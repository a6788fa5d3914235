import Mathlib.Control.Traversable.Basic
import PhoenixLens.Markup.Extractor
import PhoenixLens.Proofs.Json.Records
import PhoenixLens.Proofs.SortedLists

/-!
# Uses that an exact parser reports

The offsets of a report come from outside and may be any 64-bit numbers. Only those of the open tag
are compared with the text; the others go into the use as they are, and the ones that are missing
are added up. So a use is in order where its report is, and nowhere else.
-/

namespace PhoenixLens

/-- The ends of a range that are known lie between two offsets and are in order. -/
structure RangeWithin (low high : Nat) (start stop : Option Nat) : Prop where
  opens : ∀ a, start = some a → low ≤ a ∧ a ≤ high
  closes : ∀ b, stop = some b → low ≤ b ∧ b ≤ high
  ordered : ∀ a b, start = some a → stop = some b → a ≤ b

/-- The name and the value of an attribute lie between two offsets. -/
structure UsageAttribute.IsWithin (given : UsageAttribute) (low high : Nat) : Prop where
  start : low ≤ given.nameStart
  name : given.nameStart ≤ given.nameEnd
  stop : given.nameEnd ≤ high
  value : RangeWithin low high given.valueStart given.valueEnd

/-- The parts of a use follow each other in a text of the given length. -/
structure ComponentUsage.IsOrdered (usage : ComponentUsage) (length : Nat) : Prop where
  start : usage.openTagStart ≤ usage.nameStart
  name : usage.nameStart ≤ usage.nameEnd
  tag : usage.nameEnd ≤ usage.openTagEnd
  block : usage.openTagEnd ≤ usage.blockEnd
  stop : usage.blockEnd ≤ length
  content : RangeWithin usage.openTagStart usage.blockEnd usage.contentStart usage.contentEnd
  attributes : ∀ given ∈ usage.attributes, given.IsWithin usage.openTagStart usage.blockEnd

/-! ### Attributes -/

namespace ReportedAttribute

/-- The reported offsets, and the length of the name, stay between two offsets. -/
structure IsWithin (reported : ReportedAttribute) (low high : Nat) : Prop where
  start : low ≤ reported.start
  name : reported.start + reported.name.utf8ByteSize ≤ high
  value : ∀ v, reported.value = some v →
    low ≤ reported.stop - v.utf8ByteSize ∧ reported.stop ≤ high

/-- The end of the name is a 64-bit number. -/
def AddsUp (reported : ReportedAttribute) : Prop :=
  reported.start + reported.name.utf8ByteSize < UInt64.size

theorem toUsageAttribute_isWithin_iff {reported : ReportedAttribute} {low high : Nat}
    (hHigh : high < UInt64.size) :
    reported.AddsUp ∧ reported.toUsageAttribute.IsWithin low high ↔ reported.IsWithin low high := by
  have hValue : RangeWithin low high reported.toUsageAttribute.valueStart
        reported.toUsageAttribute.valueEnd ↔
      ∀ v, reported.value = some v →
        low ≤ reported.stop - v.utf8ByteSize ∧ reported.stop ≤ high := by
    rw [toUsageAttribute]
    cases reported.value with
    | none => exact ⟨fun _ => nofun, fun _ => ⟨nofun, nofun, nofun⟩⟩
    | some v =>
      constructor
      · intro h v' hSome
        cases hSome
        exact ⟨(h.opens _ rfl).1, (h.closes _ rfl).2⟩
      · intro h
        obtain ⟨hLow, hStop⟩ := h v rfl
        refine ⟨?_, ?_, ?_⟩ <;> simp <;> omega
  constructor
  · rintro ⟨hAdds, hWithin⟩
    have hName : reported.toUsageAttribute.nameEnd =
        reported.start + reported.name.utf8ByteSize := Nat.mod_eq_of_lt hAdds
    exact ⟨hWithin.start, hName ▸ hWithin.stop, hValue.mp hWithin.value⟩
  · intro h
    have hAdds : reported.AddsUp := Nat.lt_of_le_of_lt h.name hHigh
    have hName : reported.toUsageAttribute.nameEnd =
        reported.start + reported.name.utf8ByteSize := Nat.mod_eq_of_lt hAdds
    exact ⟨hAdds, h.start, hName ▸ Nat.le_add_right _ _, hName ▸ h.name, hValue.mpr h.value⟩

end ReportedAttribute

/-! ### Reports -/

namespace ReportedUsage

/-- The report is about something in a text of the given length. -/
def IsAbout (reported : ReportedUsage) (length : Nat) : Prop :=
  reported.start ≤ reported.stop ∧ reported.stop ≤ length

/-- The start of the name, behind the start of the tag if none is reported. -/
def nameFrom (reported : ReportedUsage) : Nat := reported.nameStart.getD (reported.start + 1)

def nameLength (reported : ReportedUsage) : Nat :=
  reported.name.utf8ByteSize + if reported.isLocal then 1 else 0

/-- The end of the block, that of the open tag if none is reported. -/
def blockTo (reported : ReportedUsage) : Nat := reported.blockEnd.getD reported.stop

/-- The reported offsets follow each other in a text of the given length, with sums for the missing
ones that may be any numbers. -/
structure IsOrdered (reported : ReportedUsage) (length : Nat) : Prop where
  start : reported.start ≤ reported.nameFrom
  name : reported.nameFrom ≤ reported.nameEnd.getD (reported.nameFrom + reported.nameLength)
  tag : reported.nameEnd.getD (reported.nameFrom + reported.nameLength) ≤ reported.stop
  block : reported.stop ≤ reported.blockTo
  stop : reported.blockTo ≤ length
  content : RangeWithin reported.start reported.blockTo reported.contentStart reported.contentEnd
  attributes : ∀ given ∈ reported.attributes, given.IsWithin reported.start reported.blockTo

/-- No sum of the conversion is too big for a 64-bit number. -/
structure AddsUp (reported : ReportedUsage) : Prop where
  name : reported.nameEnd = none → reported.nameFrom + reported.nameLength < UInt64.size
  attributes : ∀ given ∈ reported.attributes, given.AddsUp

/-- The ends of the open tag and of the block are 64-bit numbers. -/
def EndsFit (reported : ReportedUsage) : Prop :=
  reported.stop < UInt64.size ∧ ∀ b, reported.blockEnd = some b → b < UInt64.size

theorem EndsFit.blockTo_lt {reported : ReportedUsage} (h : reported.EndsFit) :
    reported.blockTo < UInt64.size := by
  rw [blockTo]
  cases hBlock : reported.blockEnd with
  | none => exact h.1
  | some b => exact h.2 b hBlock

theorem endsFit_of_decode {value : Json} {reported : ReportedUsage}
    (h : decode value = some reported) : reported.EndsFit := by
  have hAny {α : Type} (reader : Json.Reader α) := Json.Ensures.trivial reader
  refine Json.Ensures.record ?_ h
  refine (hAny _).bind fun _ _ => (hAny _).bind fun _ _ => (hAny _).bind fun _ _ =>
    (hAny _).bind fun _ _ => ?_
  refine (Json.Ensures.required fun _ _ => Json.decodeNat_lt).bind fun stop hStop => ?_
  refine (hAny _).bind fun _ _ => (hAny _).bind fun _ _ => (hAny _).bind fun _ _ => ?_
  refine (Json.Ensures.optional fun _ _ => Json.decodeNat_lt).bind fun blockEnd hBlock => ?_
  refine (hAny _).bind fun _ _ => (hAny _).bind fun _ _ => (hAny _).bind fun _ _ =>
    (hAny _).bind fun _ _ => ?_
  exact .pure ⟨hStop, hBlock⟩

/-- A report is dropped exactly where its open tag is not in the text. -/
theorem toUsage?_eq_none_iff {reported : ReportedUsage} {text : List Char} :
    reported.toUsage? text = none ↔ ¬reported.IsAbout (Text.byteLength text) := by
  rw [toUsage?, IsAbout, ← not_lt, ← not_lt (a := Text.byteLength text), ← not_or, not_not]
  split
  · rename_i hOut
    simpa using hOut
  · rename_i hOut
    simpa using hOut

/-- The use of a report is in order, with sums that are not too big, exactly where the report is in
order. -/
theorem isOrdered_iff_of_toUsage? {reported : ReportedUsage} {text : List Char}
    {usage : ComponentUsage} {length : Nat} (hFits : reported.EndsFit)
    (h : reported.toUsage? text = some usage) :
    reported.AddsUp ∧ usage.IsOrdered length ↔ reported.IsOrdered length := by
  have hAttribute (given : ReportedAttribute) :
      given.AddsUp ∧ given.toUsageAttribute.IsWithin reported.start reported.blockTo ↔
        given.IsWithin reported.start reported.blockTo :=
    given.toUsageAttribute_isWithin_iff hFits.blockTo_lt
  -- the end of the name is the only sum, and it is taken where none is reported
  have hName (hAdds : reported.nameEnd = none →
      reported.nameFrom + reported.nameLength < UInt64.size) :
      reported.nameEnd.getD (addOffsets reported.nameFrom reported.nameLength) =
        reported.nameEnd.getD (reported.nameFrom + reported.nameLength) := by
    cases hNone : reported.nameEnd with
    | none => exact Nat.mod_eq_of_lt (hAdds hNone)
    | some _ => rfl
  rw [toUsage?] at h
  split at h
  · cases h
  · cases h
    constructor
    · rintro ⟨hAdds, hUsage⟩
      refine ⟨hUsage.start, ?_, ?_, hUsage.block, hUsage.stop, hUsage.content, ?_⟩
      · exact hName hAdds.name ▸ hUsage.name
      · exact hName hAdds.name ▸ hUsage.tag
      · intro given hGiven
        exact (hAttribute given).mp
          ⟨hAdds.attributes given hGiven, hUsage.attributes _ (List.mem_map_of_mem hGiven)⟩
    · intro hReport
      have hAdds : reported.nameEnd = none →
          reported.nameFrom + reported.nameLength < UInt64.size := by
        intro hNone
        have hTag := hReport.tag
        rw [hNone] at hTag
        exact Nat.lt_of_le_of_lt hTag hFits.1
      have hAttributes (given : ReportedAttribute) (hGiven : given ∈ reported.attributes) :=
        (hAttribute given).mpr (hReport.attributes given hGiven)
      refine ⟨⟨hAdds, fun given hGiven => (hAttributes given hGiven).1⟩, hReport.start, ?_, ?_,
        hReport.block, hReport.stop, hReport.content, ?_⟩
      · exact (hName hAdds).symm ▸ hReport.name
      · exact (hName hAdds).symm ▸ hReport.tag
      · intro given hGiven
        obtain ⟨source, hSource, rfl⟩ := List.mem_map.mp hGiven
        exact (hAttributes source hSource).2

/-- The open tag of a use lies in the text. -/
theorem openTag_of_toUsage? {reported : ReportedUsage} {text : List Char} {usage : ComponentUsage}
    (h : reported.toUsage? text = some usage) :
    usage.openTagStart ≤ usage.openTagEnd ∧ usage.openTagEnd ≤ Text.byteLength text := by
  have hAbout : reported.IsAbout (Text.byteLength text) := by
    by_contra hNot
    rw [toUsage?_eq_none_iff.mpr hNot] at h
    cases h
  rw [toUsage?] at h
  split at h
  · cases h
  · cases h
    exact hAbout

end ReportedUsage

/-! ### Payloads -/

/-- What a payload says about a template can be read only if the ends it reports are 64-bit
numbers. -/
theorem endsFit_of_decodePayload {payload : Json} {reported : List ReportedUsage}
    (h : decodePayload .markup payload = .ok reported) : ∀ report ∈ reported, report.EndsFit := by
  rw [decodePayload] at h
  split at h
  · cases h
  · split at h
    · rename_i found hFound
      cases h
      refine Json.Ensures.record (p := fun found => ∀ report ∈ found, report.EndsFit) ?_ hFound
      refine Json.Ensures.withDefault nofun fun value items hItems => ?_
      exact Json.of_mem_decodeList (fun _ _ => ReportedUsage.endsFit_of_decode) hItems
    · cases h

namespace Markup

/-- What becomes of the reports about a text. -/
structure Follows (text : List Char) (reported : List ReportedUsage)
    (usages : List ComponentUsage) : Prop where
  /-- The uses are those of the reports about something in the text, -/
  uses : usages.Perm (reported.filterMap (·.toUsage? text))
  dropped : ∀ report ∈ reported,
    report.toUsage? text = none ↔ ¬report.IsAbout (Text.byteLength text)
  /-- in order of their open tags, -/
  sorted : usages.Pairwise fun a b => a.openTagStart ≤ b.openTagStart
  /-- which lie in the text. -/
  tags : ∀ usage ∈ usages,
    usage.openTagStart ≤ usage.openTagEnd ∧ usage.openTagEnd ≤ Text.byteLength text
  /-- A use is in order, and no sum was too big for it, exactly where its report is in order. -/
  ordered : ∀ report ∈ reported, ∀ usage, report.toUsage? text = some usage →
    (report.AddsUp ∧ usage.IsOrdered (Text.byteLength text) ↔
      report.IsOrdered (Text.byteLength text))
  /-- So all uses are in order if all reports about the text are, and only then without a sum that
  is too big. -/
  all : (∀ report ∈ reported, report.IsAbout (Text.byteLength text) → report.AddsUp) ∧
      (∀ usage ∈ usages, usage.IsOrdered (Text.byteLength text)) ↔
    ∀ report ∈ reported, report.IsAbout (Text.byteLength text) →
      report.IsOrdered (Text.byteLength text)

theorem follows_ofReport {text : List Char} {reported : List ReportedUsage}
    (hFits : ∀ report ∈ reported, report.EndsFit) :
    Follows text reported (UsageExtractor.ofReport text reported) := by
  have hPerm : (UsageExtractor.ofReport text reported).Perm
      (reported.filterMap (·.toUsage? text)) := List.mergeSort_perm _ _
  have hMem (usage : ComponentUsage) : usage ∈ UsageExtractor.ofReport text reported ↔
      ∃ report ∈ reported, report.toUsage? text = some usage := by
    rw [hPerm.mem_iff, List.mem_filterMap]
  have hOrdered (report : ReportedUsage) (hReport : report ∈ reported) (usage : ComponentUsage)
      (hUsage : report.toUsage? text = some usage) :
      report.AddsUp ∧ usage.IsOrdered (Text.byteLength text) ↔
        report.IsOrdered (Text.byteLength text) :=
    ReportedUsage.isOrdered_iff_of_toUsage? (hFits report hReport) hUsage
  have hConverted (report : ReportedUsage) (hAbout : report.IsAbout (Text.byteLength text)) :
      ∃ usage, report.toUsage? text = some usage := by
    rw [← Option.ne_none_iff_exists', ne_eq, ReportedUsage.toUsage?_eq_none_iff, not_not]
    exact hAbout
  refine ⟨hPerm, fun _ _ => ReportedUsage.toUsage?_eq_none_iff, ?_, ?_, hOrdered, ?_, ?_⟩
  · exact pairwise_sortBy ComponentUsage.openTagStart _
  · intro usage hUsage
    obtain ⟨report, -, hReport⟩ := (hMem usage).mp hUsage
    exact ReportedUsage.openTag_of_toUsage? hReport
  · rintro ⟨hAdds, hUsages⟩ report hReport hAbout
    obtain ⟨usage, hUsage⟩ := hConverted report hAbout
    exact (hOrdered report hReport usage hUsage).mp
      ⟨hAdds report hReport hAbout, hUsages usage ((hMem usage).mpr ⟨report, hReport, hUsage⟩)⟩
  · intro hAll
    have hBoth (report : ReportedUsage) (hReport : report ∈ reported) (usage : ComponentUsage)
        (hUsage : report.toUsage? text = some usage) :
        report.AddsUp ∧ usage.IsOrdered (Text.byteLength text) := by
      refine (hOrdered report hReport usage hUsage).mpr (hAll report hReport ?_)
      by_contra hNot
      rw [ReportedUsage.toUsage?_eq_none_iff.mpr hNot] at hUsage
      cases hUsage
    constructor
    · intro report hReport hAbout
      obtain ⟨usage, hUsage⟩ := hConverted report hAbout
      exact (hBoth report hReport usage hUsage).1
    · intro usage hUsage
      obtain ⟨report, hReport, hFrom⟩ := (hMem usage).mp hUsage
      exact (hBoth report hReport usage hFrom).2

/-- Where an exact parser can be used that answers a payload which can be read, and no other answer
is kept, the uses follow from its reports, whatever offsets it gives. -/
theorem usagesExact_follows {m : Type → Type} [Monad m] [LawfulMonad m]
    {extractor : UsageExtractor} {gateway : Gateway m} {parser : ExactParser m} {path : Path}
    {key : String} {text : List Char} {payload : Json} {reported : List ReportedUsage}
    (hTree : extractor.treeOf? key text = none) (hParser : gateway.parser = some parser)
    (hUsable : parser.isAvailable = pure true)
    (hAnswer : parser.run .markup (.content path (String.ofList text)) = pure (.ok payload))
    (hKept : ∀ kept, gateway.textAnswers.find?
      ⟨.markup, Text.contentDigest (String.ofList text)⟩ = some kept → kept = payload)
    (hPayload : decodePayload .markup payload = .ok reported) :
    ∃ usages, Prod.fst <$> (extractor.usagesExact path key text).run gateway =
        pure (usages, .exact) ∧
      Follows text reported usages := by
  refine ⟨UsageExtractor.ofReport text reported, ?_,
    follows_ofReport (endsFit_of_decodePayload hPayload)⟩
  have hRun : ∃ next, (Gateway.parseExact .markup path (String.ofList text)).run gateway =
      pure (.ok reported, next) := by
    cases hFound : gateway.textAnswers.find?
        ⟨.markup, Text.contentDigest (String.ofList text)⟩ with
    | none =>
      simp only [Gateway.parseExact, Gateway.available?, bind_pure_comp, Except.toBool,
        StateT.run_bind, StateT.run_get, StateT.run_monadLift, monadLift_self, bind_map_left,
        pure_bind, hParser, hUsable, map_pure, if_true, hFound, hAnswer, liftM_pure, hPayload,
        StateT.run_map, StateT.run_set]
      exact ⟨_, rfl⟩
    | some kept =>
      obtain rfl := hKept kept hFound
      simp only [Gateway.parseExact, Gateway.available?, bind_pure_comp, StateT.run_bind,
        StateT.run_get, StateT.run_monadLift, monadLift_self, bind_map_left, pure_bind, hParser,
        hUsable, map_pure, if_true, hFound, hPayload, StateT.run_map, StateT.run_set]
      exact ⟨_, rfl⟩
  obtain ⟨next, hNext⟩ := hRun
  rw [UsageExtractor.usagesExact, hTree]
  simp [hNext]

/-- A report in order: its use is the tag with its attribute. -/
theorem usagesExact_follows_tag :
    let report : ReportedUsage :=
      { name := "b", isLocal := true, start := 0, stop := 14, blockEnd := some 19,
        contentStart := some 14, contentEnd := some 15,
        attributes := [{ name := "id", start := 4, stop := 9, value := some "x" }] }
    let payload := ParseKind.markup.encode [report]
    let parser : ExactParser Id := ⟨true, fun _ _ => .ok payload⟩
    let text := "<.b id=\"x\"   >c</.b>".toList
    decodePayload .markup payload = .ok [report] ∧
      report.IsOrdered (Text.byteLength text) ∧
      ∃ usages, Prod.fst <$> ((UsageExtractor.usagesExact {} ⟨"/a.heex"⟩ "a" text).run
          { parser := some parser }) = (pure (usages, .exact) : Id _) ∧
        Follows text [report] usages := by
  intro report payload parser text
  have hPayload : decodePayload .markup payload = .ok [report] := rfl
  refine ⟨hPayload, ?_, usagesExact_follows rfl rfl rfl rfl nofun hPayload⟩
  refine ⟨by decide, by decide, by decide, by decide, by decide, ?_, ?_⟩
  · exact ⟨by simp [report, ReportedUsage.blockTo], by simp [report, ReportedUsage.blockTo],
      by simp [report]⟩
  · intro given hGiven
    obtain rfl := List.mem_singleton.mp hGiven
    exact ⟨by decide, by decide, by simp [report, ReportedUsage.blockTo]⟩

/-- A name behind its tag and an offset that is too big to be added up go into the uses. -/
theorem ofReport_not_ordered :
    let behind : ReportedUsage :=
      { name := "b", isLocal := true, start := 0, stop := 6, nameStart := some 7,
        nameEnd := some 8 }
    let huge : ReportedUsage :=
      { name := "b", isLocal := true, start := 0, stop := 6,
        nameStart := some 18446744073709551615 }
    let text := "<.b />".toList
    let usages := UsageExtractor.ofReport text [behind, huge]
    decodePayload .markup (ParseKind.markup.encode [behind, huge]) = .ok [behind, huge] ∧
      usages.map (fun usage => (usage.nameStart, usage.nameEnd)) =
        [(7, 8), (18446744073709551615, 1)] ∧
      ¬huge.AddsUp ∧ ∀ usage ∈ usages, ¬usage.IsOrdered (Text.byteLength text) := by
  intro behind huge text usages
  have hUsages : usages = [behind, huge].filterMap (·.toUsage? text) :=
    List.mergeSort_of_pairwise (by decide)
  have hNames : usages.map (fun usage => (usage.nameStart, usage.nameEnd)) =
      [(7, 8), (18446744073709551615, 1)] := by
    rw [hUsages]
    decide
  have hTags : ∀ usage ∈ usages, usage.openTagEnd = 6 := by
    rw [hUsages]
    decide
  refine ⟨rfl, hNames, ?_, ?_⟩
  · intro hAdds
    exact absurd (hAdds.name rfl) (by decide)
  · intro usage hUsage hOrdered
    have hPair : (usage.nameStart, usage.nameEnd) ∈ [(7, 8), (18446744073709551615, 1)] :=
      hNames ▸ List.mem_map_of_mem hUsage
    have hStart := hOrdered.name
    have hEnd := hOrdered.tag
    rw [hTags usage hUsage] at hEnd
    simp only [List.mem_cons, Prod.mk.injEq, List.not_mem_nil, or_false] at hPair
    omega

end Markup

end PhoenixLens
