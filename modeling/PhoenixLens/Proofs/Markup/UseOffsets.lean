import Mathlib.Data.List.TakeWhile
import PhoenixLens.Markup.Usages
import PhoenixLens.Proofs.Markup.Offsets
import PhoenixLens.Proofs.Markup.Uses
import PhoenixLens.Proofs.Text.Rest

/-!
# Offsets of uses and slots

The name that is read off a text is what the text begins with, its mark included.

Uses and slots are read off any text, closed or not. Their tags are what stands at their offsets,
their contents and blocks end between characters, and they follow one another.
-/

namespace PhoenixLens

namespace Elixir

theorem identifier?_prefix {cs name : List Char} (h : identifier? cs = some name) :
    ∃ rest, cs = name ++ rest := by
  cases cs with
  | nil => cases h
  | cons c cs =>
    rw [identifier?] at h
    split at h
    · cases h
      exact ⟨cs.dropWhile Text.isAsciiWord, by simp⟩
    · cases h

theorem withMark_prefix (name rest : List Char) :
    ∃ further, name ++ rest = withMark name rest ++ further := by
  rw [withMark.eq_def]
  split
  · exact ⟨_, by rw [List.append_assoc]; rfl⟩
  · exact ⟨_, by rw [List.append_assoc]; rfl⟩
  · exact ⟨rest, rfl⟩

/-- Words are identifiers as a whole. -/
theorem identifier?_eq_of_all {cs name : List Char} (h : identifier? cs = some name)
    (hAll : ∀ c ∈ cs, Text.isAsciiWord c = true) : name = cs := by
  cases cs with
  | nil => cases h
  | cons c cs =>
    rw [identifier?] at h
    split at h
    · cases h
      have hRest : cs.takeWhile Text.isAsciiWord = cs :=
        List.takeWhile_eq_self_iff.mpr (List.forall_mem_cons.mp hAll).2
      rw [hRest]
    · cases h

end Elixir

namespace Markup

open Elixir (identifier? withMark identifier?_prefix withMark_prefix)

variable {cs name : List Char}

theorem tagName?_prefix (h : tagName? cs = some name) : ∃ rest, cs = name ++ rest := by
  cases cs with
  | nil => cases h
  | cons c cs =>
    rw [tagName?] at h
    split at h
    · cases h
      obtain ⟨further, hFurther⟩ := withMark_prefix
        (c :: cs.takeWhile fun c => Text.isAsciiWord c || c == '.' || c == ':' || c == '-')
        (cs.dropWhile fun c => Text.isAsciiWord c || c == '.' || c == ':' || c == '-')
      rw [List.cons_append, List.takeWhile_append_dropWhile] at hFurther
      exact ⟨further, hFurther⟩
    · cases h

theorem slotName?_prefix (h : slotsOf.slotName? cs = some name) :
    ∃ rest, cs = ':' :: name ++ rest := by
  rw [slotsOf.slotName?.eq_def] at h
  split at h
  · obtain ⟨rest, hRest⟩ := identifier?_prefix h
    exact ⟨rest, by rw [hRest]; rfl⟩
  · cases h

/-- Where the names of modules end, the name of the component follows. -/
theorem remoteName?_prefix {callName : CallName} (h : remoteName? cs = some callName) :
    ∃ rest, cs = callName.written ++ rest := by
  have hWhole := List.takeWhile_append_dropWhile (l := cs)
    (p := fun c => Text.isAsciiWord c || c == '.')
  have hWords : ∀ c ∈ cs.takeWhile fun c => Text.isAsciiWord c || c == '.',
      (Text.isAsciiWord c || c == '.') = true :=
    List.all_eq_true.mp List.all_takeWhile
  rw [remoteName?] at h
  generalize cs.takeWhile _ = run at h hWhole hWords
  generalize cs.dropWhile _ = behind at h hWhole
  have hParts := List.takeWhile_append_dropWhile (l := Text.splitAt '.' run)
    (p := fun part : List Char => part.head?.any Text.isAsciiUpper)
  have hJoin := Text.join_splitAt '.' run
  generalize hModules : (Text.splitAt '.' run).takeWhile _ = modules at h hParts
  generalize (Text.splitAt '.' run).dropWhile _ = others at h hParts
  subst hWhole
  split at h
  · cases h
  · cases h
  · rename_i modules part further hNe
    rw [Option.map_eq_some_iff] at h
    obtain ⟨name, hName, rfl⟩ := h
    have hPart : ∀ c ∈ part, Text.isAsciiWord c = true := by
      intro c hc
      have hMem : part ∈ Text.splitAt '.' run := by
        rw [← hParts]
        exact List.mem_append_right _ List.mem_cons_self
      have hWord := hWords c (Text.mem_of_mem_splitAt hMem hc)
      have hDot : c ≠ '.' := fun hSame => Text.not_mem_of_mem_splitAt hMem (hSame ▸ hc)
      simpa [hDot] using hWord
    obtain rfl := Elixir.identifier?_eq_of_all hName hPart
    rw [← hParts, Text.join_append _ hNe (List.cons_ne_nil _ _)] at hJoin
    rw [← hJoin, CallName.written]
    cases further with
    | nil =>
      obtain ⟨further, hFurther⟩ := withMark_prefix name behind
      refine ⟨further, ?_⟩
      rw [Text.join_singleton, List.append_assoc, hFurther]
      simp
    | cons next further =>
      rw [Text.join_cons _ _ (List.cons_ne_nil _ _)]
      exact ⟨'.' :: (Text.join ['.'] (next :: further) ++ behind), by simp⟩

theorem callName?_prefix {callName : CallName} (h : callName? cs = some callName) :
    ∃ rest, cs = callName.written ++ rest := by
  rw [callName?.eq_def] at h
  split at h
  · rename_i rest
    rw [Option.map_eq_some_iff] at h
    obtain ⟨name, hName, rfl⟩ := h
    obtain ⟨behind, rfl⟩ := identifier?_prefix hName
    rw [List.drop_left]
    obtain ⟨further, hFurther⟩ := withMark_prefix name behind
    exact ⟨further, by rw [hFurther]; rfl⟩
  · exact remoteName?_prefix h

end Markup

end PhoenixLens

namespace PhoenixLens.Markup

open Text (RestAt StandsAt)

variable {text cs rest : List Char} {pos stop : Nat}

/-! ### Open tags -/

/-- The open tags of a text are what stands there, one behind the other. -/
theorem openTags_offset (h : RestAt text pos cs) :
    (∀ tag ∈ openTags pos cs, IsOpenTagIn text tag ∧ pos ≤ tag.start) ∧
      (openTags pos cs).Pairwise fun tag later => tag.start < later.start := by
  induction cs generalizing pos with
  | nil => exact ⟨nofun, .nil⟩
  | cons c cs ih =>
    obtain ⟨hLater, hOrder⟩ := ih h.tail
    have hSize := c.utf8Size_pos
    rw [openTags]
    cases hTag : (if c == '<' then
        (tagName? cs).bind fun name => readOpenTag? pos name (cs.drop name.length)
      else none) with
    | none =>
      refine ⟨fun tag hMem => ?_, hOrder⟩
      obtain ⟨hTag, hStart⟩ := hLater tag hMem
      exact ⟨hTag, by omega⟩
    | some tag =>
      split at hTag
      · rename_i hAngle
        obtain rfl := beq_iff_eq.mp hAngle
        rw [Option.bind_eq_some_iff] at hTag
        obtain ⟨name, hName, hTag⟩ := hTag
        obtain ⟨rest, rfl⟩ := tagName?_prefix hName
        rw [List.drop_left] at hTag
        obtain ⟨hIn, hStart, -⟩ := readOpenTag?_offset h hTag
        constructor
        · refine List.forall_mem_cons.mpr ⟨⟨hIn, Nat.le_of_eq hStart.symm⟩, fun other hOther => ?_⟩
          obtain ⟨hOtherIn, hOtherStart⟩ := hLater other hOther
          exact ⟨hOtherIn, by omega⟩
        · refine List.pairwise_cons.mpr ⟨fun other hOther => ?_, hOrder⟩
          have hOtherStart := (hLater other hOther).2
          omega
      · cases hTag

theorem start_of_readOpenTag? {start : Nat} {name rest : List Char} {tag : OpenTag}
    (h : readOpenTag? start name rest = some tag) : tag.start = start := by
  obtain ⟨tagEnd, -, rfl⟩ := Option.map_eq_some_iff.mp h
  rfl

/-- The open tags of a text that begin at an offset are the one that is read there. -/
theorem filter_openTags {text before cs : List Char} {pos : Nat}
    (h : RestAt text pos (before ++ '<' :: cs)) :
    (openTags pos (before ++ '<' :: cs)).filter
        (fun tag => tag.start == pos + Text.byteLength before) =
      ((tagName? cs).bind fun name =>
        readOpenTag? (pos + Text.byteLength before) name (cs.drop name.length)).toList := by
  induction before generalizing pos with
  | nil =>
    have hAngle : ('<' : Char).utf8Size = 1 := rfl
    have hLater : (openTags (pos + ('<' : Char).utf8Size) cs).filter
        (fun tag => tag.start == pos + Text.byteLength []) = [] := by
      rw [List.filter_eq_nil_iff]
      intro tag hTag
      have hStart := ((openTags_offset h.tail).1 tag hTag).2
      rw [beq_iff_eq, Text.byteLength_nil]
      omega
    rw [List.nil_append, openTags, List.filter_append, hLater, List.append_nil,
      List.filter_eq_self.mpr]
    · rfl
    · intro tag hTag
      obtain ⟨name, -, hRead⟩ := Option.bind_eq_some_iff.mp (Option.mem_toList.mp hTag)
      exact beq_iff_eq.mpr (start_of_readOpenTag? hRead)
  | cons c before ih =>
    have hSize := c.utf8Size_pos
    have hPos : pos + Text.byteLength (c :: before) = pos + c.utf8Size + Text.byteLength before := by
      rw [Text.byteLength_cons, Nat.add_assoc]
    rw [List.cons_append, openTags, List.filter_append, hPos, ih h.tail,
      List.filter_eq_nil_iff.mpr, List.nil_append]
    intro tag hTag
    have hFirst := Option.mem_toList.mp hTag
    split at hFirst
    · obtain ⟨name, -, hRead⟩ := Option.bind_eq_some_iff.mp hFirst
      rw [start_of_readOpenTag? hRead, beq_iff_eq]
      omega
    · cases hFirst

/-! ### Closing tags -/

/-- The span of a closing tag that stands at the offset `first` or behind it. -/
structure IsClosingSpan (text : List Char) (first : Nat) (span : Span) : Prop where
  le : first ≤ span.1
  lt : span.1 < span.2
  start : ∃ rest, RestAt text span.1 ('<' :: rest)
  behind : ∃ rest, RestAt text span.2 rest

theorem IsClosingSpan.of_le {first start : Nat} {span : Span} (h : IsClosingSpan text start span)
    (hLe : first ≤ start) : IsClosingSpan text first span :=
  ⟨Nat.le_trans hLe h.le, h.lt, h.start, h.behind⟩

theorem matchingClose?_go_offset {tag : List Char} {skip : List Span} {depth resume : Nat}
    {span : Span} (h : RestAt text pos cs)
    (hClose : matchingClose?.go tag skip depth resume pos cs = some span) :
    IsClosingSpan text pos span := by
  induction cs generalizing depth resume pos with
  | nil => cases hClose
  | cons c cs ih =>
    have hNext {depth resume : Nat}
        (hClose : matchingClose?.go tag skip depth resume (pos + c.utf8Size) cs = some span) :
        IsClosingSpan text pos span := (ih h.tail hClose).of_le (Nat.le_add_right _ _)
    by_cases hPass : pos < resume ∨ c ≠ '<'
    · rw [matchingClose?_go_pass hPass] at hClose
      exact hNext hClose
    · rw [not_or, not_not] at hPass
      obtain ⟨hReached, rfl⟩ := hPass
      rw [matchingClose?_go_tag (Nat.le_of_not_lt hReached)] at hClose
      split at hClose
      · exact hNext hClose
      · split at hClose
        · split at hClose
          · split at hClose
            · cases hClose
            · rename_i close hFound
              cases hClose
              obtain ⟨hLe, after, hAfter⟩ := h.tail.offsetOf? hFound
              refine ⟨Nat.le_refl _, ?_, ⟨cs, h⟩, after, hAfter.tail⟩
              show pos < close + 1
              omega
            · exact hNext hClose
          · exact hNext hClose
        · split at hClose
          · exact hNext hClose
          · exact hNext hClose

/-- A closing tag stands behind the tag that it closes. -/
theorem matchingClose?_offset {tag : List Char} {skip : List Span} {span : Span}
    (h : RestAt text pos cs) (hClose : matchingClose? tag skip pos cs = some span) :
    IsClosingSpan text pos span :=
  matchingClose?_go_offset h hClose

theorem IsOpenTagIn.start_lt {tag : OpenTag} (h : IsOpenTagIn text tag) :
    tag.start + 1 ≤ tag.nameEnd ∧ tag.start + 1 ≤ tag.stop := by
  have hName := (Text.le_of_span? h.name).1
  have hStop := h.nameEnd
  omega

/-- What is looked through for the closing tag of a tag begins behind the tag. -/
theorem IsOpenTagIn.closing {tag : OpenTag} {name : List Char} {skip : List Span} {span : Span}
    (h : IsOpenTagIn text tag) (hRest : RestAt text (tag.start + 1) cs)
    (hClose : matchingClose? name skip tag.stop
      (Text.dropBytes (tag.stop - (tag.start + 1)) cs) = some span) :
    IsClosingSpan text tag.stop span := by
  obtain ⟨behind, hBehind⟩ := h.behind
  rw [hRest.dropBytes_sub hBehind h.start_lt.2] at hClose
  exact matchingClose?_offset hBehind hClose

/-! ### Slots -/

end PhoenixLens.Markup

namespace PhoenixLens.UsageSlot

open Text (RestAt)

/-- The slot begins with a tag of its name, and its block ends behind the tag. -/
structure IsWritten (text : List Char) (slot : UsageSlot) : Prop where
  angle : ∃ rest, RestAt text slot.start ('<' :: ':' :: (slot.name.toList ++ rest))
  lt : slot.start < slot.openTagEnd
  openTag : ∃ rest, RestAt text slot.openTagEnd rest
  le : slot.openTagEnd ≤ slot.stop
  behind : ∃ rest, RestAt text slot.stop rest
  attributes : Markup.AreWritten text
    (slot.start + 2 + Text.byteLength slot.name.toList) slot.attributes
  inTag : ∀ given ∈ slot.attributes, given.stop < slot.openTagEnd

end PhoenixLens.UsageSlot

namespace PhoenixLens.Markup

open Text (RestAt StandsAt)

variable {text cs rest : List Char} {pos stop : Nat}

theorem slot_offset {name : List Char} (nested : List Span) {tag : OpenTag}
    (h : RestAt text pos ('<' :: (':' :: name ++ rest)))
    (hTag : readOpenTag? pos (':' :: name) rest = some tag) :
    UsageSlot.IsWritten text
      { name := String.ofList name
        start := pos
        openTagEnd := tag.stop
        stop := if tag.selfClosing then tag.stop else
          ((matchingClose? (':' :: name) nested tag.stop
            (Text.dropBytes (tag.stop - (pos + 1)) (':' :: name ++ rest))).map (·.2)).getD tag.stop
        attributes := tag.attributes
        selfClosing := tag.selfClosing } := by
  obtain ⟨hIn, rfl, hName⟩ := readOpenTag?_offset h hTag
  have hEnd : tag.stop ≤ (if tag.selfClosing then tag.stop else
      ((matchingClose? (':' :: name) nested tag.stop (Text.dropBytes (tag.stop - (tag.start + 1))
        (':' :: name ++ rest))).map (·.2)).getD tag.stop) ∧
      ∃ behind, RestAt text (if tag.selfClosing then tag.stop else
        ((matchingClose? (':' :: name) nested tag.stop (Text.dropBytes (tag.stop - (tag.start + 1))
          (':' :: name ++ rest))).map (·.2)).getD tag.stop) behind := by
    split
    · exact ⟨Nat.le_refl _, hIn.behind⟩
    · cases hClose : matchingClose? (':' :: name) nested tag.stop
        (Text.dropBytes (tag.stop - (tag.start + 1)) (':' :: name ++ rest)) with
      | none => exact ⟨Nat.le_refl _, hIn.behind⟩
      | some span =>
        have hSpan := hIn.closing h.tail hClose
        exact ⟨Nat.le_of_lt (Nat.lt_of_le_of_lt hSpan.le hSpan.lt), hSpan.behind⟩
  have hNameEnd := (Text.span?_eq_some_iff.mp hIn.name).2
  have hColon : ':'.utf8Size = 1 := rfl
  rw [hName, Text.byteLength_cons, hColon] at hNameEnd
  have hAttributes : AreWritten text (tag.start + 2 + Text.byteLength name) tag.attributes :=
    hIn.attributes.of_le (by omega)
  exact ⟨⟨rest, by simpa using h⟩, hIn.start_lt.2, hIn.behind, hEnd.1, hEnd.2,
    by simpa using hAttributes, hIn.inTag⟩

/-- The slots begin between two offsets, one behind the other. -/
structure SlotsWithin (text : List Char) (first stop : Nat) (slots : List UsageSlot) : Prop where
  written : ∀ slot ∈ slots, slot.IsWritten text ∧ first ≤ slot.start ∧ slot.start < stop
  ordered : slots.Pairwise fun slot later => slot.stop ≤ later.start

theorem SlotsWithin.of_le {first start : Nat} {slots : List UsageSlot}
    (h : SlotsWithin text start stop slots) (hLe : first ≤ start) :
    SlotsWithin text first stop slots := by
  refine ⟨fun slot hSlot => ?_, h.ordered⟩
  obtain ⟨hWritten, hStart, hStop⟩ := h.written slot hSlot
  exact ⟨hWritten, Nat.le_trans hLe hStart, hStop⟩

theorem SlotsWithin.cons {first : Nat} {slot : UsageSlot} {slots : List UsageSlot}
    (hSlot : slot.IsWritten text) (hFirst : first ≤ slot.start) (hStop : slot.start < stop)
    (h : SlotsWithin text slot.stop stop slots) : SlotsWithin text first stop (slot :: slots) := by
  have hLe : slot.start ≤ slot.stop := Nat.le_of_lt (Nat.lt_of_lt_of_le hSlot.lt hSlot.le)
  constructor
  · intro other hOther
    rcases List.mem_cons.mp hOther with rfl | hLater
    · exact ⟨hSlot, hFirst, hStop⟩
    · exact (h.of_le (Nat.le_trans hFirst hLe)).written other hLater
  · refine List.pairwise_cons.mpr ⟨fun later hLater => ?_, h.ordered⟩
    exact (h.written later hLater).2.1

theorem slotsOf_go_offset {nested : List Span} {resume : Nat} (h : RestAt text pos cs) :
    SlotsWithin text (max pos resume) stop (slotsOf.go stop nested resume pos cs) := by
  induction cs generalizing resume pos with
  | nil => exact ⟨nofun, .nil⟩
  | cons c cs ih =>
    have hNext {later : Nat} (hLater : max pos resume ≤ max (pos + c.utf8Size) later) :
        SlotsWithin text (max pos resume) stop
          (slotsOf.go stop nested later (pos + c.utf8Size) cs) := (ih h.tail).of_le hLater
    by_cases hLimit : stop ≤ pos
    · rw [slotsOf_go_end hLimit]
      exact ⟨nofun, .nil⟩
    · by_cases hPass : pos < resume ∨ c ≠ '<'
      · rw [slotsOf_go_pass hPass (Nat.lt_of_not_le hLimit)]
        exact hNext (by omega)
      · rw [not_or, not_not] at hPass
        obtain ⟨hReached, rfl⟩ := hPass
        rw [slotsOf_go_tag (Nat.le_of_not_lt hReached) (Nat.lt_of_not_le hLimit)]
        split
        · exact hNext (by omega)
        · rename_i name hName
          obtain ⟨rest, rfl⟩ := slotName?_prefix hName
          split
          · exact hNext (by omega)
          · dsimp only
            rw [List.drop_left]
            split
            · exact hNext (by omega)
            · rename_i tag hTag
              refine .cons (slot_offset _ h hTag) ?_ (Nat.lt_of_not_le hLimit)
                ((ih h.tail).of_le (Nat.le_max_right _ _))
              rw [Nat.max_eq_left (Nat.le_of_not_lt hReached)]

/-- The slots of a text are what stands there, one behind the other. -/
theorem slotsOf_offset (stop : Nat) (nested : List Span) (h : RestAt text pos cs) :
    SlotsWithin text pos stop (slotsOf stop nested pos cs) :=
  (slotsOf_go_offset h).of_le (Nat.le_max_left _ _)

end PhoenixLens.Markup

/-! ### Uses -/

namespace PhoenixLens.ComponentUsage

open Text (RestAt isBoundary span?)

/-- The open tag, the content and the block of a use are what stands in the text at their offsets. -/
structure HasTag (text : List Char) (usage : ComponentUsage) : Prop where
  angle : ∃ rest, RestAt text usage.openTagStart ('<' :: rest)
  nameStart : usage.nameStart = usage.openTagStart + 1
  name : span? text usage.nameStart usage.nameEnd = some usage.tagName.toList
  nameEnd : usage.nameEnd < usage.openTagEnd
  openTag : isBoundary text usage.openTagEnd = true
  content : (usage.contentStart = none ∧ usage.contentEnd = none ∧
      usage.blockEnd = usage.openTagEnd) ∨
    ∃ stop rest, usage.contentStart = some usage.openTagEnd ∧ usage.contentEnd = some stop ∧
      usage.openTagEnd ≤ stop ∧ stop < usage.blockEnd ∧ RestAt text stop ('<' :: rest)
  block : isBoundary text usage.blockEnd = true
  attributes : Markup.AreWritten text usage.nameEnd usage.attributes
  inTag : ∀ given ∈ usage.attributes, given.stop < usage.openTagEnd

/-- The slots of a use begin in its content, one behind the other. -/
structure IsWritten (text : List Char) (usage : ComponentUsage) : Prop extends
    HasTag text usage where
  slots : ∀ slot ∈ usage.slots, slot.IsWritten text ∧ ∃ stop, usage.contentEnd = some stop ∧
    usage.openTagEnd ≤ slot.start ∧ slot.start < stop
  ordered : usage.slots.Pairwise fun slot later => slot.stop ≤ later.start

end PhoenixLens.ComponentUsage

namespace PhoenixLens.Markup

open Text (RestAt StandsAt isBoundary_iff)

variable {text cs rest : List Char} {pos stop : Nat}

/-- The use that a tag with a given closing tag begins. -/
def useOf (callName : CallName) (tag : OpenTag) (close : Option Span) : ComponentUsage where
  componentName := String.ofList callName.name
  moduleContext := callName.moduleName.map String.ofList
  isLocal := callName.moduleName.isNone
  openTagStart := tag.start
  openTagEnd := tag.stop
  nameStart := tag.start + 1
  nameEnd := tag.nameEnd
  attributes := tag.attributes
  selfClosing := tag.selfClosing
  contentStart := close.map fun _ => tag.stop
  contentEnd := close.map (·.1)
  blockEnd := (close.map (·.2)).getD tag.stop

/-- The closing tag of a tag, where `cs` follows its `<`. -/
def closeOf? (tag : OpenTag) (cs : List Char) : Option Span :=
  if tag.selfClosing then none else
    matchingClose? tag.name [] tag.stop (Text.dropBytes (tag.stop - (tag.start + 1)) cs)

theorem usageAt?_eq (pos : Nat) (cs : List Char) :
    usageAt? pos cs = (callName? cs).bind fun callName =>
      (readOpenTag? pos callName.written (cs.drop callName.written.length)).map fun tag =>
        useOf callName tag (closeOf? tag cs) := by
  cases hCall : callName? cs with
  | none => rw [usageAt?_eq_none hCall, Option.bind_none]
  | some callName =>
    simp only [usageAt?, hCall, readOpenTag?, Option.bind_eq_bind, Option.bind_some]
    cases tagEnd? (pos + 1 + Text.byteLength callName.written)
      (cs.drop callName.written.length) with
    | none => rfl
    | some tagEnd => rfl

theorem tagName_useOf (callName : CallName) (tag : OpenTag) (close : Option Span) :
    (useOf callName tag close).tagName.toList = callName.written := by
  rw [ComponentUsage.tagName, CallName.written, useOf]
  cases callName.moduleName with
  | none => simp
  | some name => simp

theorem useOf_offset {callName : CallName} {tag : OpenTag} {close : Option Span}
    (h : IsOpenTagIn text tag) (hName : tag.name = callName.written)
    (hClose : ∀ span ∈ close, IsClosingSpan text tag.stop span) :
    (useOf callName tag close).HasTag text := by
  have hOpenTag := isBoundary_iff.mpr h.behind
  refine ⟨h.angle, rfl, ?_, h.nameEnd, hOpenTag, ?_, ?_, h.attributes, h.inTag⟩
  · rw [tagName_useOf, ← hName]
    exact h.name
  · cases close with
    | none => exact .inl ⟨rfl, rfl, rfl⟩
    | some span =>
      obtain ⟨hLe, hLt, ⟨rest, hStart⟩, -⟩ := hClose span rfl
      exact .inr ⟨span.1, rest, rfl, rfl, hLe, hLt, hStart⟩
  · cases close with
    | none => exact hOpenTag
    | some span => exact isBoundary_iff.mpr (hClose span rfl).behind

theorem usageAt?_offset {usage : ComponentUsage} (h : RestAt text pos ('<' :: cs))
    (hUsage : usageAt? pos cs = some usage) :
    usage.HasTag text ∧ usage.slots = [] ∧ usage.openTagStart = pos := by
  rw [usageAt?_eq, Option.bind_eq_some_iff] at hUsage
  obtain ⟨callName, hName, hUsage⟩ := hUsage
  obtain ⟨rest, rfl⟩ := callName?_prefix hName
  rw [List.drop_left, Option.map_eq_some_iff] at hUsage
  obtain ⟨tag, hTag, rfl⟩ := hUsage
  obtain ⟨hIn, rfl, hWritten⟩ := readOpenTag?_offset h hTag
  refine ⟨useOf_offset hIn hWritten fun span hClose => ?_, rfl, rfl⟩
  rw [closeOf?] at hClose
  split at hClose
  · cases hClose
  · exact hIn.closing h.tail hClose

theorem bareUsages_offset (h : RestAt text pos cs) :
    (∀ usage ∈ bareUsages pos cs,
      usage.HasTag text ∧ usage.slots = [] ∧ pos ≤ usage.openTagStart) ∧
      (bareUsages pos cs).Pairwise fun usage later => usage.openTagStart < later.openTagStart := by
  induction cs generalizing pos with
  | nil => exact ⟨nofun, .nil⟩
  | cons c cs ih =>
    obtain ⟨hLater, hOrder⟩ := ih h.tail
    have hSize := c.utf8Size_pos
    rw [bareUsages]
    cases hUsage : (if c == '<' then usageAt? pos cs else none) with
    | none =>
      refine ⟨fun usage hMem => ?_, hOrder⟩
      obtain ⟨hTag, hSlots, hStart⟩ := hLater usage hMem
      exact ⟨hTag, hSlots, by omega⟩
    | some usage =>
      split at hUsage
      · rename_i hAngle
        obtain rfl := beq_iff_eq.mp hAngle
        obtain ⟨hTag, hSlots, rfl⟩ := usageAt?_offset h hUsage
        constructor
        · refine List.forall_mem_cons.mpr ⟨⟨hTag, hSlots, Nat.le_refl _⟩, fun other hOther => ?_⟩
          obtain ⟨hOtherTag, hOtherSlots, hOtherStart⟩ := hLater other hOther
          exact ⟨hOtherTag, hOtherSlots, by omega⟩
        · refine List.pairwise_cons.mpr ⟨fun other hOther => ?_, hOrder⟩
          have hOtherStart := (hLater other hOther).2.2
          omega
      · cases hUsage

theorem withSlots_offset (spans : List Span) {usage : ComponentUsage} (h : usage.HasTag text)
    (hNone : usage.slots = []) : (withSlots text spans usage).IsWritten text := by
  rcases h.content with ⟨hStart, hEnd, -⟩ | ⟨stop, rest, hStart, hEnd, hContent⟩
  · have hSame : withSlots text spans usage = usage := by simp only [withSlots, hStart]
    rw [hSame]
    refine ⟨h, ?_, ?_⟩
    · rw [hNone]
      exact List.forall_mem_nil _
    · rw [hNone]
      exact .nil
  · obtain ⟨inner, hInner⟩ := isBoundary_iff.mp h.openTag
    have hSlots (nested : List Span) := slotsOf_offset stop nested hInner
    simp only [withSlots, hStart, hEnd, hInner.dropBytes_eq]
    refine ⟨⟨h.angle, h.nameStart, h.name, h.nameEnd, h.openTag, ?_, h.block, h.attributes,
      h.inTag⟩, fun slot hSlot => ?_, (hSlots _).ordered⟩
    · exact .inr ⟨stop, rest, rfl, rfl, hContent⟩
    · obtain ⟨hWritten, hFirst, hLast⟩ := (hSlots _).written slot hSlot
      exact ⟨hWritten, stop, rfl, hFirst, hLast⟩

/-- The uses that are read off a text are what stands there, one behind the other. -/
theorem usagesOf_offset (text : List Char) :
    (∀ usage ∈ usagesOf text, usage.IsWritten text) ∧
      (usagesOf text).Pairwise fun usage later => usage.openTagStart < later.openTagStart := by
  obtain ⟨hTags, hOrder⟩ := bareUsages_offset (.self text)
  have hStart (spans : List Span) (usage : ComponentUsage) :
      (withSlots text spans usage).openTagStart = usage.openTagStart := by
    rw [withSlots]
    split <;> rfl
  constructor
  · refine List.forall_mem_map.mpr fun usage hUsage => ?_
    obtain ⟨hTag, hNone, -⟩ := hTags usage hUsage
    exact withSlots_offset _ hTag hNone
  · refine List.pairwise_map.mpr (hOrder.imp fun hLt => ?_)
    rwa [hStart, hStart]

end PhoenixLens.Markup
