import PhoenixLens.Proofs.Markup.ByteAttributes

/-!
# Any text can be scanned

The scanner over bytes finds what the reader of characters finds. Its answers are there for every
text, so no byte is read behind the end and no cut goes through a character.

The scanner over bytes has an answer for every text, whatever is broken in it, and everything it
reports lies in the text: in order, between characters, and as it is written there.
-/

namespace PhoenixLens.Markup.ByteScanner

open Text (RestAt StandsAt span? isBoundary_iff)

variable {text cs rest : List Char} {pos stop : Nat}

/-! ### Open tags -/

theorem lastOffset?_eq_none {c : Char} (h : c ∉ cs) (pos : Nat) : lastOffset? c pos cs = none := by
  induction cs generalizing pos with
  | nil => rfl
  | cons d cs ih =>
    have hOther : (d == c) = false := by simpa using (List.ne_of_not_mem_cons h).symm
    rw [lastOffset?, ih (List.not_mem_of_not_mem_cons h), hOther]
    rfl

theorem lastOffset?_append {c : Char} (before : List Char) {after : List Char} (h : c ∉ after)
    (pos : Nat) :
    lastOffset? c pos (before ++ c :: after) = some (pos + Text.byteLength before) := by
  induction before generalizing pos with
  | nil => simp [lastOffset?, lastOffset?_eq_none h]
  | cons d before ih =>
    rw [List.cons_append, lastOffset?, ih, Text.byteLength_cons, Nat.add_assoc]
    rfl

/-- The slash at the end of a tag is the last one before its `>`. -/
theorem lastOffset?_slash {first start : Nat} {slash : Option Nat} {before : List Char}
    (h : SeenSlash text first pos slash) (hSlash : slash = some start)
    (hBefore : span? text 0 pos = some before) : lastOffset? '/' 0 before = some start := by
  obtain ⟨-, blanks, ⟨front, after, rfl, rfl⟩, hBlanks, rfl⟩ := h start hSlash
  have hNone : '/' ∉ blanks := fun hMem => absurd (hBlanks '/' hMem) (by decide)
  have hRest : RestAt (front ++ ('/' :: blanks ++ after)) 0 ((front ++ '/' :: blanks) ++ after) :=
    ⟨[], by simp, rfl⟩
  have hSpan := hRest.standsAt.span?
  rw [Nat.zero_add, Text.byteLength_append, hBefore] at hSpan
  rw [Option.some.inj hSpan, lastOffset?_append front hNone, Nat.zero_add]

theorem readOpenTag_bytes {name : List Char} (h : RestAt text pos ('<' :: (name ++ rest))) :
    readOpenTag text pos (pos + 1 + Text.byteLength name) = some (readOpenTag? pos name rest) := by
  have hName : RestAt text (pos + 1) (name ++ rest) := h.tail
  have hRest := hName.append
  simp only [readOpenTag, tagEnd_bytes hRest, Option.bind_eq_bind, Option.bind_some, readOpenTag?]
  cases hEnd : tagEnd? (pos + 1 + Text.byteLength name) rest with
  | none => rfl
  | some tagEnd =>
    have hTagEnd := tagEnd?_offset hRest hEnd
    obtain ⟨hFirst, -, further, hFurther⟩ := hTagEnd.attributesEnd
    obtain ⟨bracket, hBracket⟩ := hTagEnd.bracket
    have hBefore := (RestAt.self text).span?_eq hBracket (Nat.zero_le _)
    have hLimit : (if tagEnd.selfClosing then
        (lastOffset? '/' 0 (Text.takeBytes (tagEnd.stop - 1 - 0) text)).getD (tagEnd.stop - 1)
        else tagEnd.stop - 1) = tagEnd.attributesEnd := by
      rw [TagEnd.selfClosing, TagEnd.attributesEnd]
      cases hSlash : tagEnd.slash with
      | none => rfl
      | some start =>
        rw [lastOffset?_slash hTagEnd.slash hSlash hBefore]
        rfl
    simp only [Option.map_some, TagEnd.pair, hBefore, Option.bind_some, hName.standsAt.span?, hLimit,
      attributes_bytes hRest hFurther hFirst]
    rfl

theorem openTags_go_bytes (h : RestAt text pos cs) :
    openTags.go text pos cs = some (Markup.openTags pos cs) := by
  induction cs generalizing pos with
  | nil => rfl
  | cons c cs ih =>
    rw [openTags.go, Markup.openTags, ih h.tail]
    by_cases hAngle : c = '<'
    · subst hAngle
      simp only [beq_self_eq_true, if_true]
      cases hName : tagName? cs with
      | none => rfl
      | some name =>
        obtain ⟨rest, rfl⟩ := tagName?_prefix hName
        simp only [readOpenTag_bytes h, List.drop_left, Option.bind_eq_bind, Option.bind_some]
        rfl
    · have hOther : (c == '<') = false := by simpa using hAngle
      simp only [hOther]
      rfl

/-- The open tags are found, and no read or cut fails. -/
theorem openTags_eq (text : List Char) : openTags text = some (Markup.openTags 0 text) :=
  openTags_go_bytes (.self text)

/-! ### Closing tags -/

theorem beginsWithName_eq (tag cs : List Char) :
    beginsWithName tag cs = some (afterTagName? tag cs).isSome := by
  rw [beginsWithName, afterTagName?]
  split
  · rename_i hPrefix
    obtain ⟨after, rfl⟩ := List.isPrefixOf_iff_prefix.mp hPrefix
    have hAfter : tag.isPrefixOf? (tag ++ after) = some after :=
      List.isPrefixOf?_eq_some_iff_append_eq.mpr rfl
    rw [from?_eq ⟨tag, rfl, rfl⟩, hAfter]
    cases hEnds : endsName after with
    | false => simp [Option.filter, hEnds]
    | true => simp [Option.filter, hEnds]
  · rename_i hOther
    have hNone : tag.isPrefixOf? cs = none := by
      cases hAfter : tag.isPrefixOf? cs with
      | none => rfl
      | some after =>
        have hWhole := List.isPrefixOf?_eq_some_iff_append_eq.mp hAfter
        exact absurd (List.isPrefixOf_iff_prefix.mpr ⟨after, hWhole⟩) hOther
    rw [hNone]
    rfl

theorem isSome_spanAt? {spans : List Span} {span : Span}
    (hSpans : ∀ span ∈ spans, Text.isBoundary text span.2 = true)
    (h : spanAt? spans pos = some span) : ∃ rest, RestAt text span.2 rest :=
  isBoundary_iff.mp (hSpans span (List.mem_of_find?_eq_some h))

theorem afterTagName?_prefix {tag after : List Char} (h : afterTagName? tag cs = some after) :
    cs = tag ++ after := by
  rw [afterTagName?, Option.filter_eq_some_iff] at h
  exact (List.isPrefixOf?_eq_some_iff_append_eq.mp h.1).symm

theorem offsetOf?_bracket (pos : Nat) (cs : List Char) :
    Text.offsetOf? ['>'] pos ('<' :: cs) = Text.offsetOf? ['>'] (pos + 1) cs := by
  have hSize : '<'.utf8Size = 1 := rfl
  have hOther : ('>' == '<') = false := by decide
  rw [Text.offsetOf?, Text.offsetOf?, Text.cutAt?]
  simp only [List.isPrefixOf?, hOther]
  cases Text.cutAt? ['>'] cs with
  | none => rfl
  | some found => simp [hSize, Nat.add_assoc]

theorem matchingClose_go_bytes {tag : List Char} {skipped : List Span} {depth resume : Nat}
    (hSkipped : ∀ span ∈ skipped, Text.isBoundary text span.2 = true) (h : RestAt text pos cs) :
    matchingClose.go text tag skipped depth resume pos cs =
      some (matchingClose?.go tag skipped depth resume pos cs) := by
  induction cs generalizing depth resume pos with
  | nil => rfl
  | cons c cs ih =>
    rw [matchingClose.go]
    by_cases hPass : pos < resume ∨ c ≠ '<'
    · have hPassed : (decide (pos < resume) || c != '<') = true := by simpa using hPass
      rw [matchingClose?_go_pass hPass]
      simp only [hPassed, if_true]
      exact ih h.tail
    · have hHere : (decide (pos < resume) || c != '<') = false := by simpa using hPass
      rw [not_or, not_not] at hPass
      obtain ⟨hReached, rfl⟩ := hPass
      have hNext : RestAt text (pos + 1) cs := h.tail
      have hGo {depth resume : Nat} :
          matchingClose.go text tag skipped depth resume (pos + '<'.utf8Size) cs =
            some (matchingClose?.go tag skipped depth resume (pos + 1) cs) := ih h.tail
      rw [matchingClose?_go_tag (Nat.le_of_not_lt hReached)]
      simp only [hHere, if_neg Bool.false_ne_true, hGo, from?_eq hNext, from?_eq h,
        beginsWithName_eq, Option.bind_eq_bind, Option.bind_some]
      cases hSpan : spanAt? skipped pos with
      | some span =>
        obtain ⟨rest, hRest⟩ := isSome_spanAt? hSkipped hSpan
        simp only [from?_eq hRest, Option.bind_some]
      | none =>
        cases hSlash : Text.stripPrefix? "/" cs with
        | some after =>
          cases hName : afterTagName? tag after with
          | none => simp only [hName, Option.isSome_none, if_neg Bool.false_ne_true]
          | some further =>
            simp only [hName, Option.isSome_some, if_true, offsetOf?_bracket]
            cases hClose : Text.offsetOf? ['>'] (pos + 1) cs with
            | none => rfl
            | some close =>
              obtain ⟨-, rest, hRest⟩ := hNext.offsetOf? hClose
              have hBehind : RestAt text (close + 1) rest := hRest.tail
              cases depth with
              | zero => rfl
              | succ depth => simp only [from?_eq hBehind, Option.bind_some]
        | none =>
          cases hName : afterTagName? tag cs with
          | none => simp only [Option.isSome_none, if_neg Bool.false_ne_true, Option.bind_none]
          | some further =>
            obtain rfl := afterTagName?_prefix hName
            simp only [Option.isSome_some, if_true, tagEnd_bytes hNext.append, Option.bind_some]
            cases hEnd : tagEnd? (pos + 1 + Text.byteLength tag) further with
            | none => rfl
            | some tagEnd =>
              obtain ⟨rest, hRest⟩ := (tagEnd?_offset hNext.append hEnd).behind
              simp only [Option.map_some, TagEnd.pair, from?_eq hRest, Option.bind_some]

theorem matchingClose_bytes {tag : List Char} {skipped : List Span}
    (hSkipped : ∀ span ∈ skipped, Text.isBoundary text span.2 = true) (h : RestAt text pos cs) :
    matchingClose text tag skipped pos = some (matchingClose? tag skipped pos cs) := by
  rw [matchingClose, from?_eq h]
  exact matchingClose_go_bytes hSkipped h

/-- The closing tag of a tag is looked for behind the tag. -/
theorem matchingClose_tag {tag : OpenTag} (name : List Char) {skipped : List Span}
    (hSkipped : ∀ span ∈ skipped, Text.isBoundary text span.2 = true) (hIn : IsOpenTagIn text tag)
    (h : RestAt text (tag.start + 1) cs) :
    matchingClose text name skipped tag.stop = some (matchingClose? name skipped tag.stop
      (Text.dropBytes (tag.stop - (tag.start + 1)) cs)) := by
  obtain ⟨behind, hBehind⟩ := hIn.behind
  rw [h.dropBytes_sub hBehind hIn.start_lt.2]
  exact matchingClose_bytes hSkipped hBehind

/-! ### Slots -/

theorem window_eq (h : RestAt text pos cs) (hStop : RestAt text stop rest) :
    ∃ piece, window text pos stop = some piece := by
  rw [window]
  split
  · rename_i hLt
    exact ⟨_, h.span?_eq hStop (Nat.le_of_lt hLt)⟩
  · exact ⟨[], rfl⟩

theorem slots_go_bytes {nested : List Span} {resume : Nat}
    (hNested : ∀ span ∈ nested, Text.isBoundary text span.2 = true)
    (hStop : ∃ rest, RestAt text stop rest) (h : RestAt text pos cs) :
    slots.go text nested stop resume pos cs = some (slotsOf.go stop nested resume pos cs) := by
  obtain ⟨last, hLast⟩ := hStop
  induction cs generalizing resume pos with
  | nil => rfl
  | cons c cs ih =>
    rw [slots.go]
    by_cases hLimit : stop ≤ pos
    · rw [slotsOf_go_end hLimit, if_pos hLimit]
      rfl
    · by_cases hPass : pos < resume ∨ c ≠ '<'
      · have hPassed : (decide (pos < resume) || c != '<') = true := by simpa using hPass
        rw [slotsOf_go_pass hPass (Nat.lt_of_not_le hLimit), if_neg hLimit]
        simp only [hPassed, if_true]
        exact ih h.tail
      · have hHere : (decide (pos < resume) || c != '<') = false := by simpa using hPass
        rw [not_or, not_not] at hPass
        obtain ⟨hReached, rfl⟩ := hPass
        have hNext : RestAt text (pos + 1) cs := h.tail
        have hGo {resume : Nat} : slots.go text nested stop resume (pos + '<'.utf8Size) cs =
            some (slotsOf.go stop nested resume (pos + 1) cs) := ih h.tail
        rw [slotsOf_go_tag (Nat.le_of_not_lt hReached) (Nat.lt_of_not_le hLimit), if_neg hLimit]
        simp only [hHere, if_neg Bool.false_ne_true, hGo, Option.bind_eq_bind]
        cases hName : slotsOf.slotName? cs with
        | none => rfl
        | some name =>
          obtain ⟨rest, rfl⟩ := slotName?_prefix hName
          cases hSpan : spanAt? nested pos with
          | some span =>
            obtain ⟨behind, hBehind⟩ := isSome_spanAt? hNested hSpan
            obtain ⟨piece, hPiece⟩ := window_eq hBehind hLast
            simp only [hPiece, Option.bind_some]
          | none =>
            simp only [readOpenTag_bytes h, List.drop_left, Option.bind_some]
            cases hTag : readOpenTag? pos (':' :: name) rest with
            | none =>
              obtain ⟨piece, hPiece⟩ := window_eq hNext.append hLast
              simp only [hPiece, Option.bind_some]
            | some tag =>
              obtain ⟨hIn, rfl, -⟩ := readOpenTag?_offset h hTag
              have hClose := matchingClose_tag (':' :: name) hNested hIn hNext
              obtain ⟨behind, hBehind⟩ := (slot_offset nested h hTag).behind
              obtain ⟨piece, hPiece⟩ := window_eq hBehind hLast
              cases hSelf : tag.selfClosing with
              | true =>
                simp only [hSelf, if_true] at hPiece
                simp only [hSelf, if_true, Option.bind_some, Option.map_none, Option.getD_none,
                  hPiece]
                rfl
              | false =>
                simp only [hSelf, if_neg Bool.false_ne_true] at hPiece
                simp only [hSelf, if_neg Bool.false_ne_true, hClose, Option.bind_some, hPiece]
                rfl

theorem slots_bytes {nested : List Span}
    (hNested : ∀ span ∈ nested, Text.isBoundary text span.2 = true) (h : RestAt text pos cs)
    (hStop : RestAt text stop rest) :
    slots text nested pos stop = some (slotsOf stop nested pos cs) := by
  obtain ⟨piece, hPiece⟩ := window_eq h hStop
  rw [slots, hPiece, from?_eq h]
  exact slots_go_bytes hNested ⟨rest, hStop⟩ h

theorem hasBody_bytes {spans : List Span} (h : RestAt text pos cs) (hStop : RestAt text stop rest)
    (hSpans : ∀ span ∈ spans, Text.isBoundary text span.1 = true ∧
      Text.isBoundary text span.2 = true) :
    hasBody text pos stop spans = some (Markup.hasBody text pos stop spans) := by
  have hWindow {pos stop : Nat} {cs rest : List Char} (h : RestAt text pos cs)
      (hStop : RestAt text stop rest) :
      ∃ piece, window text pos stop = some piece ∧
        (!Text.allBlank piece) = (pos < stop && !Text.allBlank (Text.slice text pos stop)) := by
    rw [window]
    by_cases hLt : pos < stop
    · rw [if_pos hLt, h.span?_eq hStop (Nat.le_of_lt hLt), Text.slice, h.dropBytes_eq,
        decide_eq_true hLt]
      exact ⟨_, rfl, rfl⟩
    · rw [if_neg hLt, decide_eq_false hLt]
      exact ⟨_, rfl, rfl⟩
  induction spans generalizing pos cs with
  | nil =>
    obtain ⟨piece, hPiece, hBlank⟩ := hWindow h hStop
    rw [hasBody, hPiece, Option.map_some, hBlank]
    rfl
  | cons span spans ih =>
    obtain ⟨first, last⟩ := span
    obtain ⟨⟨hFirst, hLast⟩, hLater⟩ := List.forall_mem_cons.mp hSpans
    obtain ⟨behind, hBehind⟩ := isBoundary_iff.mp hFirst
    obtain ⟨piece, hPiece, hBlank⟩ := hWindow h hBehind
    obtain ⟨next, hNext⟩ : ∃ next, RestAt text (max pos last) next := by
      rcases Nat.le_total pos last with hLe | hLe
      · rw [Nat.max_eq_right hLe]
        exact isBoundary_iff.mp hLast
      · rw [Nat.max_eq_left hLe]
        exact ⟨cs, h⟩
    simp only [hasBody, hPiece, ih hNext hLater, Option.bind_eq_bind, Option.bind_some, hBlank]
    rfl

theorem SlotsWithin.isBoundary {first : Nat} {slots : List UsageSlot}
    (h : SlotsWithin text first stop slots) :
    ∀ slot ∈ slots, Text.isBoundary text slot.start = true ∧
      Text.isBoundary text slot.stop = true := by
  intro slot hSlot
  obtain ⟨hWritten, -⟩ := h.written slot hSlot
  obtain ⟨rest, hAngle⟩ := hWritten.angle
  exact ⟨hAngle.isBoundary, isBoundary_iff.mpr hWritten.behind⟩

theorem providedSlotNames_bytes {slots : List UsageSlot} (h : RestAt text pos cs)
    (hStop : RestAt text stop rest) (hSlots : SlotsWithin text pos stop slots) :
    providedSlotNames text pos stop slots =
      some (Markup.providedSlotNames text pos stop slots) := by
  have hSpans : ∀ span ∈ (slots.mergeSort fun a b => a.start ≤ b.start).map
      fun slot => (slot.start, slot.stop),
      Text.isBoundary text span.1 = true ∧ Text.isBoundary text span.2 = true := by
    refine List.forall_mem_map.mpr fun slot hSlot => ?_
    exact SlotsWithin.isBoundary hSlots slot (List.mem_mergeSort.mp hSlot)
  simp only [providedSlotNames, hasBody_bytes h hStop hSpans, Option.bind_eq_bind,
    Option.bind_some, Markup.providedSlotNames]
  rfl

/-! ### Uses -/

theorem usage_bytes (h : RestAt text pos ('<' :: cs)) :
    usage text pos cs = some (usageAt? pos cs) := by
  rw [usage, usageAt?_eq]
  cases hName : callName? cs with
  | none => rfl
  | some callName =>
    obtain ⟨rest, rfl⟩ := callName?_prefix hName
    simp only [readOpenTag_bytes h, List.drop_left, Option.bind_eq_bind, Option.bind_some]
    cases hTag : readOpenTag? pos callName.written rest with
    | none => rfl
    | some tag =>
      obtain ⟨hIn, rfl, -⟩ := readOpenTag?_offset h hTag
      have hNone : ∀ span ∈ ([] : List Span), Text.isBoundary text span.2 = true := nofun
      have hClose := matchingClose_tag tag.name hNone hIn h.tail
      simp only [Option.map_some, closeOf?]
      cases hSelf : tag.selfClosing with
      | true => rfl
      | false =>
        simp only [if_neg Bool.false_ne_true, hClose, Option.bind_some]
        rfl

theorem bareUsages_bytes (h : RestAt text pos cs) :
    bareUsages text pos cs = some (Markup.bareUsages pos cs) := by
  induction cs generalizing pos with
  | nil => rfl
  | cons c cs ih =>
    rw [bareUsages, Markup.bareUsages, ih h.tail]
    by_cases hAngle : c = '<'
    · subst hAngle
      simp only [beq_self_eq_true, if_true, usage_bytes h, Option.bind_eq_bind, Option.bind_some]
      rfl
    · have hOther : (c == '<') = false := by simpa using hAngle
      simp only [hOther, if_neg Bool.false_ne_true]
      rfl

theorem withSlots_bytes {spans : List Span} {usage : ComponentUsage}
    (hSpans : ∀ span ∈ spans, Text.isBoundary text span.2 = true) (h : usage.HasTag text) :
    withSlots text spans usage = some (Markup.withSlots text spans usage) := by
  rcases h.content with ⟨hStart, hEnd, -⟩ | ⟨stop, rest, hStart, hEnd, -, -, hStop⟩
  · simp only [withSlots, Markup.withSlots, hStart]
  · obtain ⟨inner, hInner⟩ := isBoundary_iff.mp h.openTag
    have hNested (keep : Span → Bool) :
        ∀ span ∈ spans.filter keep, Text.isBoundary text span.2 = true :=
      fun span hSpan => hSpans span (List.mem_of_mem_filter hSpan)
    simp only [withSlots, Markup.withSlots, hStart, hEnd, slots_bytes (hNested _) hInner hStop,
      Option.bind_eq_bind, Option.bind_some, providedSlotNames_bytes hInner hStop
        (slotsOf_offset _ _ hInner), hInner.dropBytes_eq]
    rfl

theorem mapM_withSlots {spans : List Span} {usages : List ComponentUsage}
    (h : ∀ usage ∈ usages, withSlots text spans usage = some (Markup.withSlots text spans usage)) :
    usages.mapM (withSlots text spans) = some (usages.map (Markup.withSlots text spans)) := by
  induction usages with
  | nil => rfl
  | cons usage usages ih =>
    obtain ⟨hFirst, hLater⟩ := List.forall_mem_cons.mp h
    rw [List.mapM_cons, hFirst, ih hLater]
    rfl

/-- The uses of components are found, and no read or cut fails. -/
theorem usages_eq (text : List Char) : usages text = some (usagesOf text) := by
  obtain ⟨hTags, -⟩ := bareUsages_offset (.self text)
  have hSpans : ∀ span ∈ (Markup.bareUsages 0 text).map
      fun usage => (usage.openTagStart, usage.blockEnd), Text.isBoundary text span.2 = true :=
    List.forall_mem_map.mpr fun usage hUsage => (hTags usage hUsage).1.block
  rw [usages, bareUsages_bytes (.self text), usagesOf]
  exact mapM_withSlots fun usage hUsage => withSlots_bytes hSpans (hTags usage hUsage).1

end PhoenixLens.Markup.ByteScanner

namespace PhoenixLens

open Text (RestAt span? isBoundary isBoundary_iff)

variable {text : List Char}

/-! ### Offsets -/

def UsageAttribute.offsets (given : UsageAttribute) : List Nat :=
  [given.nameStart, given.nameEnd] ++ given.valueStart.toList ++ given.valueEnd.toList

def UsageSlot.offsets (slot : UsageSlot) : List Nat :=
  [slot.start, slot.openTagEnd, slot.stop] ++ slot.attributes.flatMap (·.offsets)

def ComponentUsage.offsets (usage : ComponentUsage) : List Nat :=
  [usage.openTagStart, usage.nameStart, usage.nameEnd, usage.openTagEnd, usage.blockEnd] ++
    usage.contentStart.toList ++ usage.contentEnd.toList ++
      usage.attributes.flatMap (·.offsets) ++ usage.slots.flatMap (·.offsets)

theorem isBoundary_of_span? {pos stop : Nat} {piece : List Char}
    (h : span? text pos stop = some piece) :
    isBoundary text pos = true ∧ isBoundary text stop = true := by
  obtain ⟨hStands, rfl⟩ := Text.span?_eq_some_iff.mp h
  obtain ⟨rest, hRest⟩ := hStands.exists_rest
  exact ⟨hRest.isBoundary, hRest.append.isBoundary⟩

theorem UsageAttribute.IsWritten.offsets {given : UsageAttribute} (h : given.IsWritten text) :
    ∀ offset ∈ given.offsets, isBoundary text offset = true := by
  obtain ⟨hStart, hEnd⟩ := isBoundary_of_span? h.name
  rw [UsageAttribute.offsets]
  rcases h.value with ⟨-, hNone, hNoEnd⟩ | ⟨value, start, stop, -, hSome, hSomeEnd, -, hValue⟩
  · simp [hNone, hNoEnd, hStart, hEnd]
  · simp [hSome, hSomeEnd, hStart, hEnd, isBoundary_of_span? hValue]

theorem Markup.AreWritten.offsets {first : Nat} {attributes : List UsageAttribute}
    (h : Markup.AreWritten text first attributes) :
    ∀ offset ∈ attributes.flatMap (·.offsets), isBoundary text offset = true := by
  intro offset hOffset
  obtain ⟨given, hGiven, hOwn⟩ := List.mem_flatMap.mp hOffset
  exact (h.written given hGiven).1.offsets offset hOwn

theorem UsageSlot.IsWritten.offsets {slot : UsageSlot} (h : slot.IsWritten text) :
    ∀ offset ∈ slot.offsets, isBoundary text offset = true := by
  obtain ⟨rest, hAngle⟩ := h.angle
  rw [UsageSlot.offsets, List.forall_mem_append]
  refine ⟨?_, h.attributes.offsets⟩
  simp [hAngle.isBoundary, isBoundary_iff.mpr h.openTag, isBoundary_iff.mpr h.behind]

theorem ComponentUsage.IsWritten.offsets {usage : ComponentUsage} (h : usage.IsWritten text) :
    ∀ offset ∈ usage.offsets, isBoundary text offset = true := by
  obtain ⟨rest, hAngle⟩ := h.angle
  obtain ⟨hStart, hEnd⟩ := isBoundary_of_span? h.name
  rw [ComponentUsage.offsets, List.forall_mem_append, List.forall_mem_append]
  refine ⟨⟨?_, h.attributes.offsets⟩, ?_⟩
  · rcases h.content with ⟨hNone, hNoEnd, -⟩ | ⟨stop, rest, hSome, hSomeEnd, -, -, hContent⟩
    · simp [hNone, hNoEnd, hAngle.isBoundary, hStart, hEnd, h.openTag, h.block]
    · simp [hSome, hSomeEnd, hAngle.isBoundary, hStart, hEnd, h.openTag, h.block,
        hContent.isBoundary]
  · intro offset hOffset
    obtain ⟨slot, hSlot, hOwn⟩ := List.mem_flatMap.mp hOffset
    exact (h.slots slot hSlot).1.offsets offset hOwn

/-! ### Uses -/

/-- What a use reports lies in the text, in order and as it is written. -/
structure ComponentUsage.StandsIn (text : List Char) (usage : ComponentUsage) : Prop where
  ranges : usage.openTagStart < usage.nameStart ∧ usage.nameStart ≤ usage.nameEnd ∧
    usage.nameEnd ≤ usage.openTagEnd ∧ usage.openTagEnd ≤ usage.blockEnd ∧
    usage.blockEnd ≤ Text.byteLength text
  content : (usage.contentStart = none ∧ usage.contentEnd = none) ∨
    ∃ stop, usage.contentStart = some usage.openTagEnd ∧ usage.contentEnd = some stop ∧
      usage.openTagEnd ≤ stop ∧ stop ≤ usage.blockEnd
  name : span? text usage.nameStart usage.nameEnd = some usage.tagName.toList
  attributes : ∀ given ∈ usage.attributes, given.IsWritten text ∧
    usage.nameEnd ≤ given.nameStart ∧ given.nameEnd ≤ given.stop ∧ given.stop < usage.openTagEnd
  attributesApart : usage.attributes.Pairwise fun given later => given.stop ≤ later.nameStart
  slots : ∀ slot ∈ usage.slots, (∃ stop, usage.contentEnd = some stop ∧
      usage.openTagEnd ≤ slot.start ∧ slot.start < stop) ∧
    slot.start < slot.openTagEnd ∧ slot.openTagEnd ≤ slot.stop ∧
    slot.stop ≤ Text.byteLength text
  slotsApart : usage.slots.Pairwise fun slot later => slot.stop ≤ later.start
  boundaries : ∀ offset ∈ usage.offsets, isBoundary text offset = true

theorem ComponentUsage.IsWritten.standsIn {usage : ComponentUsage} (h : usage.IsWritten text) :
    usage.StandsIn text := by
  obtain ⟨hOrder, -⟩ := Text.le_of_span? h.name
  obtain ⟨rest, hBlock⟩ := isBoundary_iff.mp h.block
  have hContent : usage.openTagEnd ≤ usage.blockEnd ∧
      ((usage.contentStart = none ∧ usage.contentEnd = none) ∨
        ∃ stop, usage.contentStart = some usage.openTagEnd ∧ usage.contentEnd = some stop ∧
          usage.openTagEnd ≤ stop ∧ stop ≤ usage.blockEnd) := by
    rcases h.content with ⟨hNone, hNoEnd, hBlock⟩ | ⟨stop, rest, hSome, hEnd, hLe, hLt, -⟩
    · exact ⟨Nat.le_of_eq hBlock.symm, .inl ⟨hNone, hNoEnd⟩⟩
    · exact ⟨Nat.le_of_lt (Nat.lt_of_le_of_lt hLe hLt),
        .inr ⟨stop, hSome, hEnd, hLe, Nat.le_of_lt hLt⟩⟩
  have hStart := h.nameStart
  refine ⟨⟨by omega, hOrder, Nat.le_of_lt h.nameEnd, hContent.1, hBlock.le⟩, hContent.2, h.name,
    fun given hGiven => ?_, h.attributes.ordered, fun slot hSlot => ?_, h.ordered, h.offsets⟩
  · obtain ⟨hWritten, hFirst⟩ := h.attributes.written given hGiven
    exact ⟨hWritten, hFirst, hWritten.stop_le.1, h.inTag given hGiven⟩
  · obtain ⟨hWritten, hInside⟩ := h.slots slot hSlot
    obtain ⟨behind, hBehind⟩ := hWritten.behind
    exact ⟨hInside, hWritten.lt, hWritten.le, hBehind.le⟩

namespace Markup

/-- **Any text can be scanned.** Reading it byte by byte never goes behind its end and never cuts
through a character, and gives the open tags and uses that reading it by characters gives. All of
them stand in the text, from left to right. -/
theorem scanning_is_safe (text : List Char) :
    ByteScanner.openTags text = some (openTags 0 text) ∧
    ByteScanner.usages text = some (usagesOf text) ∧
    (∀ tag ∈ openTags 0 text, IsOpenTagIn text tag) ∧
    (∀ usage ∈ usagesOf text, usage.StandsIn text) ∧
    (usagesOf text).Pairwise fun usage later => usage.openTagStart < later.openTagStart := by
  obtain ⟨hUsages, hOrder⟩ := usagesOf_offset text
  refine ⟨ByteScanner.openTags_eq text, ByteScanner.usages_eq text, fun tag hTag => ?_,
    fun usage hUsage => (hUsages usage hUsage).standsIn, hOrder⟩
  exact ((openTags_offset (.self text)).1 tag hTag).1

end Markup

end PhoenixLens
