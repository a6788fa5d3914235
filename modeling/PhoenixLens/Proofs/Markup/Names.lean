import Mathlib.Data.List.Chain
import PhoenixLens.Proofs.Markup.LooseTag

/-!
# Names of tags

The name of a written tag is read again where the tag stands, as what it was written for. A name is
not taken for another one that begins with it.
-/

namespace PhoenixLens.Markup

open Elixir (identifier? withMark)

/-! ### Text without tags -/

theorem hasNoTag_of_not_mem {text : List Char} (h : '<' ∉ text) : HasNoTag text := by
  induction text with
  | nil => exact .nil
  | cons c text ih =>
    have hRest := ih (List.not_mem_of_not_mem_cons h)
    cases text with
    | nil => exact .singleton c
    | cons d text =>
      exact List.isChain_cons_cons.mpr ⟨fun hc => absurd hc (List.ne_of_not_mem_cons h).symm, hRest⟩

/-- No tag begins where the text begins. -/
def BeginsNoTag (text : List Char) : Prop := ∀ c ∈ text.head?, startsTag c = false

/-- No tag begins in the text, whatever stands behind it. -/
structure IsTagless (text : List Char) : Prop where
  hasNoTag : HasNoTag text
  last : text.getLast? ≠ some '<'

namespace IsTagless

theorem of_not_mem {text : List Char} (h : '<' ∉ text) : IsTagless text :=
  ⟨hasNoTag_of_not_mem h, fun hLast => h (List.mem_of_getLast? hLast)⟩

theorem append {text more : List Char} (h : IsTagless text) (hMore : IsTagless more) :
    IsTagless (text ++ more) := by
  refine ⟨List.isChain_append.mpr ⟨h.hasNoTag, hMore.hasNoTag, ?_⟩, ?_⟩
  · rintro c hc d _ rfl
    exact absurd hc h.last
  · rw [List.getLast?_append]
    cases hLast : more.getLast? with
    | none => exact h.last
    | some c => simpa [hLast] using hMore.last

theorem blanks {blanks : List Char} (h : ∀ c ∈ blanks, Text.isTagBlank c = true) :
    IsTagless blanks := by
  refine of_not_mem fun hMem => ?_
  have hBlank := h _ hMem
  revert hBlank
  decide

theorem expressionEnd?_go_last {cs : List Char} {state : Elixir.Quoting} {depth pos : Nat}
    (h : expressionEnd?.go state depth pos cs = some (pos + Text.byteLength cs)) :
    ∃ before c, cs = before ++ [c] ∧ Elixir.isClosing c = true := by
  induction cs generalizing state depth pos with
  | nil => cases state <;> cases h
  | cons c cs ih =>
    have hMore : ∀ state depth, expressionEnd?.go state depth (pos + c.utf8Size) cs =
        some (pos + Text.byteLength (c :: cs)) →
          ∃ before d, c :: cs = before ++ [d] ∧ Elixir.isClosing d = true := by
      intro state depth hGo
      rw [Text.byteLength_cons, ← Nat.add_assoc] at hGo
      obtain ⟨before, d, hText, hClosing⟩ := ih hGo
      exact ⟨c :: before, d, by rw [hText]; rfl, hClosing⟩
    cases state with
    | quoted quote escaped =>
      rw [expressionEnd?.go] at h
      · exact hMore _ _ h
      · intro hState
        cases hState
    | code =>
      rw [expressionEnd?.go] at h
      split at h
      · exact hMore _ _ h
      · split at h
        · rename_i hClosing
          split at h
          · rw [Text.byteLength_cons, Option.some.injEq] at h
            cases cs with
            | nil => exact ⟨[], c, rfl, hClosing⟩
            | cons d cs =>
              have hSize := d.utf8Size_pos
              rw [Text.byteLength_cons] at h
              omega
          · exact hMore _ _ h
        · exact hMore _ _ h

theorem expression (value : Expression) : IsTagless value.1 := by
  refine ⟨value.2.2.2, fun hLast => ?_⟩
  have hEnd := value.2.2.1
  rw [expressionEnd?, ← Nat.zero_add (Text.byteLength value.1)] at hEnd
  obtain ⟨before, c, hText, hClosing⟩ := expressionEnd?_go_last hEnd
  rw [hText, List.getLast?_concat, Option.some.injEq] at hLast
  rw [hLast] at hClosing
  revert hClosing
  decide

theorem quoted (value : QuotedText) : IsTagless ('"' :: (value.1 ++ ['"'])) := by
  have hOpen : IsTagless ['"'] := of_not_mem (by decide)
  have hInner : IsTagless (value.1 ++ ['"']) := by
    refine ⟨List.isChain_append.mpr ⟨value.2.2, .singleton _, ?_⟩, ?_⟩
    · intro c _ d hd _
      cases hd
      decide
    · rw [List.getLast?_concat]
      decide
  exact hOpen.append hInner

theorem one (given : TagAttribute) : IsTagless given.text := by
  have hName : ∀ name : AttributeName, '<' ∉ name.1 := fun name hMem => (name.2.2 _ hMem).2 rfl
  cases given with
  | bare name => exact of_not_mem (hName name)
  | quoted name value =>
    have hFront : '<' ∉ name.1 ++ ['='] := by simp [hName name]
    have hWhole := (of_not_mem hFront).append (quoted value)
    simpa [TagAttribute.text] using hWhole
  | expression name value =>
    have hFront : '<' ∉ name.1 ++ ['='] := by simp [hName name]
    have hWhole := (of_not_mem hFront).append (expression value)
    simpa [TagAttribute.text] using hWhole
  | spread value => exact expression value

theorem attributes (written : TagAttributes) : IsTagless written.text := by
  refine append ?_ (blanks written.ending.2)
  induction written.attributes with
  | nil => exact of_not_mem List.not_mem_nil
  | cons first more ih =>
    rw [List.flatMap_cons]
    exact ((blanks first.1.2.2).append (one first.2)).append ih

end IsTagless

/-- No tag begins in the text, nor with its last character if `rest` stands behind it. -/
structure IsTaglessBefore (rest text : List Char) : Prop where
  hasNoTag : HasNoTag text
  last : text.getLast? = some '<' → BeginsNoTag rest

theorem IsTagless.before {text : List Char} (h : IsTagless text) (rest : List Char) :
    IsTaglessBefore rest text :=
  ⟨h.hasNoTag, fun hLast => absurd hLast h.last⟩

namespace IsTaglessBefore

variable {rest text : List Char}

theorem tail {c : Char} (h : IsTaglessBefore rest (c :: text)) : IsTaglessBefore rest text := by
  refine ⟨h.hasNoTag.tail, fun hLast => h.last ?_⟩
  rw [List.getLast?_cons, hLast, Option.getD_some]

theorem beginsNoTag (h : IsTaglessBefore rest ('<' :: text)) : BeginsNoTag (text ++ rest) := by
  cases text with
  | nil => exact h.last rfl
  | cons c text =>
    rintro d ⟨⟩
    exact (List.isChain_cons_cons.mp h.hasNoTag).1 rfl

end IsTaglessBefore

/-! ### Characters of names -/

/-- What the names of tags consist of. -/
def isNameChar (c : Char) : Bool := isElementChar c || c == '.' || c == '?' || c == '!'

/-- A tag may go on like this behind its name. -/
def EndsName (rest : List Char) : Prop :=
  ∃ c more, rest = c :: more ∧ (Text.isTagBlank c = true ∨ c = '>' ∨ c = '/')

theorem isElementChar_of_isAsciiWord {c : Char} (h : Text.isAsciiWord c = true) :
    isElementChar c = true := by
  simp [isElementChar, h]

theorem isNameChar_of_isElementChar {c : Char} (h : isElementChar c = true) :
    isNameChar c = true := by
  simp [isNameChar, h]

theorem isNameChar_of_mem_join {pieces : List (List Char)}
    (h : ∀ piece ∈ pieces, ∀ c ∈ piece, isNameChar c = true) :
    ∀ c ∈ Text.join ['.'] pieces, isNameChar c = true := by
  intro c hc
  rcases Text.mem_join hc with hDot | ⟨piece, hPiece, hMem⟩
  · rw [List.mem_singleton.mp hDot]
    decide
  · exact h piece hPiece c hMem

theorem Identifier.isNameChar (name : Identifier) : ∀ c ∈ name.1, isNameChar c = true :=
  fun c hc => isNameChar_of_isElementChar (isElementChar_of_isAsciiWord (name.2.all c hc))

theorem ModulePart.isNameChar (part : ModulePart) : ∀ c ∈ part.1, isNameChar c = true :=
  fun c hc => isNameChar_of_isElementChar (isElementChar_of_isAsciiWord (part.2.all c hc))

namespace NameMark

theorem isNameChar (mark : NameMark) : ∀ c ∈ mark.1, Markup.isNameChar c = true := by
  have hMarks : ∀ m ∈ [[], ['?'], ['!']], ∀ c ∈ m, Markup.isNameChar c = true := by decide
  exact hMarks mark.1 mark.2

theorem eq_cases (mark : NameMark) : mark.1 = [] ∨ mark.1 = ['?'] ∨ mark.1 = ['!'] := by
  simpa using mark.2

/-- A text with a mark before it begins with the mark or as it began without. -/
theorem forall_head (mark : NameMark) {P : Char → Prop} (hQuestion : P '?') (hExclamation : P '!')
    {rest : List Char} (h : ∀ c ∈ rest.head?, P c) : ∀ c ∈ (mark.1 ++ rest).head?, P c := by
  rcases mark.eq_cases with hMark | hMark | hMark
  · rw [hMark]
    exact h
  · rw [hMark]
    rintro c ⟨⟩
    exact hQuestion
  · rw [hMark]
    rintro c ⟨⟩
    exact hExclamation

/-- A mark belongs to the name before it, unless another one follows. -/
theorem withMark_append (mark : NameMark) (name : List Char) {rest : List Char}
    (hQuestion : rest.head? ≠ some '?') (hExclamation : rest.head? ≠ some '!') :
    withMark name (mark.1 ++ rest) = name ++ mark.1 := by
  rcases mark.eq_cases with hMark | hMark | hMark
  · rw [hMark, List.nil_append, List.append_nil, withMark]
    · rintro more rfl
      exact hQuestion rfl
    · rintro more rfl
      exact hExclamation rfl
  · rw [hMark]
    rfl
  · rw [hMark]
    rfl

end NameMark

/-- The names of the modules, each with a dot behind it or all with dots between them. -/
theorem ComponentName.written_eq (name : ComponentName) :
    name.callName.written =
      Text.join ['.'] (name.modules.map (·.1)) ++ '.' :: (name.name.1 ++ name.mark.1) := by
  rw [CallName.written, callName]
  cases name.modules <;> rfl

theorem WrittenName.isNameChar (name : WrittenName) : ∀ c ∈ name.text, isNameChar c = true := by
  cases name with
  | element name => exact fun c hc => isNameChar_of_isElementChar (name.2.all c hc)
  | slot name =>
    rw [WrittenName.text, List.forall_mem_cons]
    exact ⟨by decide, Identifier.isNameChar name⟩
  | component name =>
    rw [WrittenName.text, name.written_eq, List.forall_mem_append, List.forall_mem_cons,
      List.forall_mem_append]
    refine ⟨isNameChar_of_mem_join ?_, by decide, Identifier.isNameChar name.name,
      NameMark.isNameChar name.mark⟩
    rw [List.forall_mem_map]
    exact fun part _ => ModulePart.isNameChar part

theorem ne_of_isNameChar {c d : Char} (h : isNameChar c = true) (hd : isNameChar d = false) :
    c ≠ d := by
  rintro rfl
  rw [h] at hd
  cases hd

theorem EndsName.isNameChar {rest : List Char} (h : EndsName rest) :
    ∀ c ∈ rest.head?, isNameChar c = false := by
  obtain ⟨c, more, rfl, hEnd⟩ := h
  rintro d ⟨⟩
  rcases hEnd with hBlank | rfl | rfl
  · simp only [Text.isTagBlank, Bool.or_eq_true, beq_iff_eq] at hBlank
    rcases hBlank with (((rfl | rfl) | rfl) | rfl) | rfl <;> decide
  · decide
  · decide

theorem EndsName.endsName {rest : List Char} (h : EndsName rest) : endsName rest = true := by
  obtain ⟨c, more, rfl, hEnd⟩ := h
  have hBlank : Text.isTagBlank c = true → Text.isBlank c = true := by
    simp only [Text.isTagBlank, Bool.or_eq_true, beq_iff_eq]
    rintro ((((rfl | rfl) | rfl) | rfl) | rfl) <;> decide
  rcases hEnd with hTag | rfl | rfl
  · simp [Markup.endsName, hBlank hTag]
  · simp [Markup.endsName]
  · simp [Markup.endsName]

theorem endsName_loose (written : LooseAttributes) (selfClosing : Bool) (rest : List Char) :
    EndsName (written.text ++ (tagEnding selfClosing ++ rest)) := by
  have hFirst := written.isTagBlank_head
  cases hText : written.text with
  | nil =>
    cases selfClosing with
    | false => exact ⟨'>', rest, rfl, .inr (.inl rfl)⟩
    | true => exact ⟨'/', '>' :: rest, rfl, .inr (.inr rfl)⟩
  | cons c more =>
    rw [hText] at hFirst
    exact ⟨c, _, rfl, .inl (hFirst c rfl)⟩

theorem endsName_attributes (written : TagAttributes) (selfClosing : Bool) (rest : List Char) :
    EndsName (written.text ++ (tagEnding selfClosing ++ rest)) := by
  rw [← written.text_loose]
  exact endsName_loose written.loose selfClosing rest

/-- A name that makes a tag of the `<` before it. -/
structure IsTagName (name : List Char) : Prop where
  first : ∃ c rest, name = c :: rest ∧ startsTag c = true ∧ c ≠ '/'
  all : ∀ c ∈ name, isNameChar c = true

/-- The names of modules begin with a capital letter. -/
theorem ModulePart.join_first (part : ModulePart) (more : List ModulePart) :
    ∃ c rest, Text.join ['.'] ((part :: more).map (·.1)) = c :: rest ∧
      Text.isAsciiUpper c = true := by
  obtain ⟨c, rest, hPart, hUpper⟩ := part.2.first
  cases more with
  | nil => exact ⟨c, rest, (Text.join_singleton _ _).trans hPart, hUpper⟩
  | cons next more =>
    rw [List.map_cons, Text.join_cons _ _ (by simp), hPart]
    exact ⟨c, _, rfl, hUpper⟩

/-- The name of a component begins with a dot or a capital letter. -/
theorem ComponentName.first (name : ComponentName) :
    ∃ c rest, name.callName.written = c :: rest ∧ (c = '.' ∨ Text.isAsciiUpper c = true) := by
  rw [name.written_eq]
  cases name.modules with
  | nil => exact ⟨'.', name.name.1 ++ name.mark.1, rfl, .inl rfl⟩
  | cons part more =>
    obtain ⟨c, rest, hFirst, hUpper⟩ := ModulePart.join_first part more
    rw [hFirst]
    exact ⟨c, _, rfl, .inr hUpper⟩

theorem WrittenName.isTagName (name : WrittenName) : IsTagName name.text := by
  refine ⟨?_, name.isNameChar⟩
  cases name with
  | element name =>
    obtain ⟨c, rest, hName, hLetter⟩ := name.2.first
    refine ⟨c, rest, hName, by simp [startsTag, hLetter], ?_⟩
    rintro rfl
    revert hLetter
    decide
  | slot name => exact ⟨':', name.1, rfl, by decide, by decide⟩
  | component name =>
    obtain ⟨c, rest, hName, hFirst⟩ := name.first
    refine ⟨c, rest, hName, ?_, ?_⟩
    · rcases hFirst with rfl | hUpper
      · decide
      · simp [startsTag, Text.isAsciiLetter, hUpper]
    · rintro rfl
      revert hFirst
      decide

theorem IsTagless.name {name : List Char} (h : ∀ c ∈ name, isNameChar c = true) :
    IsTagless name :=
  of_not_mem fun hMem => ne_of_isNameChar (h _ hMem) (by decide) rfl

/-- Behind the `<` of a tag no other tag begins up to its end. -/
theorem IsTagless.inner {name : List Char} (h : ∀ c ∈ name, isNameChar c = true)
    (selfClosing : Bool) (written : TagAttributes) :
    IsTagless (name ++ (written.text ++ tagEnding selfClosing)) := by
  have hEnding : IsTagless (tagEnding selfClosing) := by
    cases selfClosing <;> exact of_not_mem (by decide)
  exact (IsTagless.name h).append ((attributes written).append hEnding)

theorem IsTagless.closing {name : List Char} (h : ∀ c ∈ name, isNameChar c = true) :
    IsTagless ('/' :: (name ++ ['>'])) := by
  have hSlash : '<' ∉ ['/'] := by decide
  have hAngle : '<' ∉ ['>'] := by decide
  exact (IsTagless.of_not_mem hSlash).append ((IsTagless.name h).append (.of_not_mem hAngle))

/-- Only the names of slots begin with a colon. -/
theorem WrittenName.first_of_not_slot {name : WrittenName} (h : name.slot? = none) :
    ∃ c rest, name.text = c :: rest ∧ c ≠ ':' := by
  cases name with
  | element name =>
    obtain ⟨c, rest, hName, hLetter⟩ := name.2.first
    refine ⟨c, rest, hName, ?_⟩
    rintro rfl
    revert hLetter
    decide
  | slot name => cases h
  | component name =>
    obtain ⟨c, rest, hName, hFirst⟩ := name.first
    refine ⟨c, rest, hName, ?_⟩
    rintro rfl
    revert hFirst
    decide

/-! ### Names told apart -/

theorem not_endsName_of_isNameChar {c : Char} (h : isNameChar c = true) (rest : List Char) :
    endsName (c :: rest) = false := by
  have hBlank : Text.isBlank c = false := Text.not_isBlank_of (by decide) h
  simp [endsName, hBlank, ne_of_isNameChar h (show isNameChar '>' = false by decide),
    ne_of_isNameChar h (show isNameChar '/' = false by decide)]

/-- A tag is taken for one of the given name only if it has that name. -/
theorem afterTagName?_append {tag name rest : List Char} (hTag : ∀ c ∈ tag, isNameChar c = true)
    (hName : ∀ c ∈ name, isNameChar c = true) (hRest : EndsName rest) :
    afterTagName? tag (name ++ rest) = if tag = name then some rest else none := by
  induction tag generalizing name with
  | nil =>
    cases name with
    | nil => simp [afterTagName?, List.isPrefixOf?, hRest.endsName]
    | cons d name =>
      have hNot := not_endsName_of_isNameChar (hName d List.mem_cons_self) (name ++ rest)
      simp [afterTagName?, List.isPrefixOf?, hNot]
  | cons c tag ih =>
    cases name with
    | nil =>
      obtain ⟨d, more, rfl, hEnd⟩ := id hRest
      have hDiffers : (c == d) = false := by
        rw [beq_eq_false_iff_ne]
        exact ne_of_isNameChar (hTag c List.mem_cons_self) (hRest.isNameChar d rfl)
      simp [afterTagName?, List.isPrefixOf?, hDiffers]
    | cons d name =>
      have hRec : afterTagName? tag (name ++ rest) = if tag = name then some rest else none :=
        ih (fun e he => hTag e (List.mem_cons_of_mem _ he))
          fun e he => hName e (List.mem_cons_of_mem _ he)
      by_cases hSame : c = d
      · subst hSame
        simpa [afterTagName?, List.isPrefixOf?] using hRec
      · have hDiffers : (c == d) = false := by simpa using hSame
        simp [afterTagName?, List.isPrefixOf?, hDiffers, hSame]

/-! ### Names of components and slots -/

theorem identifier?_append (name : Identifier) {rest : List Char}
    (h : ∀ c ∈ rest.head?, Text.isAsciiWord c = false) :
    identifier? (name.1 ++ rest) = some name.1 := by
  obtain ⟨c, more, hName, hStart⟩ := name.2.first
  have hMore : ∀ d ∈ more, Text.isAsciiWord d = true := fun d hd =>
    name.2.all d (hName ▸ List.mem_cons_of_mem c hd)
  rw [hName, List.cons_append, identifier?, if_pos hStart, Text.takeWhile_append_of_stop hMore h]

theorem EndsName.not_isAsciiWord {rest : List Char} (h : EndsName rest) (mark : NameMark) :
    ∀ c ∈ (mark.1 ++ rest).head?, Text.isAsciiWord c = false ∧ c ≠ '.' := by
  have hRest : ∀ c ∈ rest.head?, Text.isAsciiWord c = false ∧ c ≠ '.' := by
    intro c hc
    have hNot := h.isNameChar c hc
    simp only [Markup.isNameChar, isElementChar, Bool.or_eq_false_iff, beq_eq_false_iff_ne] at hNot
    exact ⟨hNot.1.1.1.1.1, hNot.1.1.2⟩
  exact mark.forall_head (by decide) (by decide) hRest

theorem EndsName.withMark_append {rest : List Char} (h : EndsName rest) (name : List Char)
    (mark : NameMark) : withMark name (mark.1 ++ rest) = name ++ mark.1 := by
  refine mark.withMark_append name ?_ ?_
  · exact fun hHead => absurd (h.isNameChar '?' hHead) (by decide)
  · exact fun hHead => absurd (h.isNameChar '!' hHead) (by decide)

theorem callName?_eq_remoteName? {c : Char} (h : c ≠ '.') (cs : List Char) :
    callName? (c :: cs) = remoteName? (c :: cs) := by
  rw [callName?]
  rintro rest ⟨⟩
  exact h rfl

/-- A dotted name is read as the modules that it begins with and the function behind them. -/
theorem remoteName?_join {modules : List ModulePart} (hNe : modules ≠ []) (name : Identifier)
    (mark : NameMark) {rest : List Char} (h : EndsName rest) :
    remoteName? (Text.join ['.'] (modules.map (·.1) ++ [name.1]) ++ (mark.1 ++ rest)) =
      some ⟨some (Text.join ['.'] (modules.map (·.1))), name.1 ++ mark.1⟩ := by
  have hStop := h.not_isAsciiWord mark
  have hWords : ∀ piece ∈ modules.map (·.1) ++ [name.1], ∀ c ∈ piece,
      Text.isAsciiWord c = true := by
    rw [List.forall_mem_append, List.forall_mem_map, List.forall_mem_singleton]
    exact ⟨fun part _ => part.2.all, name.2.all⟩
  have hDots : ∀ piece ∈ modules.map (·.1) ++ [name.1], '.' ∉ piece := by
    intro piece hPiece hMem
    have hWord := hWords piece hPiece '.' hMem
    revert hWord
    decide
  have hChars : ∀ c ∈ Text.join ['.'] (modules.map (·.1) ++ [name.1]),
      (Text.isAsciiWord c || c == '.') = true := by
    intro c hc
    rcases Text.mem_join hc with hDot | ⟨piece, hPiece, hMem⟩
    · simp [List.mem_singleton.mp hDot]
    · simp [hWords piece hPiece c hMem]
  have hEnd : ∀ c ∈ (mark.1 ++ rest).head?, (Text.isAsciiWord c || c == '.') = false := by
    intro c hc
    simpa using hStop c hc
  have hModules : ∀ part ∈ modules.map (·.1), part.head?.any Text.isAsciiUpper = true := by
    rw [List.forall_mem_map]
    intro part _
    obtain ⟨c, more, hPart, hUpper⟩ := part.2.first
    simpa [hPart] using hUpper
  have hFunction : name.1.head?.any Text.isAsciiUpper = false := by
    obtain ⟨c, more, hName, hStart⟩ := name.2.first
    simpa [hName] using Text.not_isAsciiUpper_of_startsIdentifier hStart
  have hIdentifier := @identifier?_append name [] nofun
  rw [List.append_nil] at hIdentifier
  obtain ⟨first, more, hMap⟩ : ∃ first more, modules.map (·.1) = first :: more :=
    List.exists_cons_of_ne_nil fun hNone => hNe (List.map_eq_nil_iff.mp hNone)
  simp only [remoteName?, Text.takeWhile_append_of_stop hChars hEnd,
    Text.dropWhile_append_of_stop hChars hEnd, Text.splitAt_join (by simp) hDots,
    List.takeWhile_append_of_pos hModules, List.dropWhile_append_of_pos hModules]
  rw [List.takeWhile_cons_of_neg (by simp [hFunction]), List.append_nil,
    List.dropWhile_cons_of_neg (by simp [hFunction]), hMap]
  simp [hIdentifier, h.withMark_append]

theorem callName?_component (name : ComponentName) {rest : List Char} (h : EndsName rest) :
    callName? (name.callName.written ++ rest) = some name.callName := by
  have hStop := h.not_isAsciiWord name.mark
  have hName := identifier?_append name.name fun c hc => (hStop c hc).1
  rw [name.written_eq]
  cases hModules : name.modules with
  | nil =>
    have hForm : Text.join ['.'] (([] : List ModulePart).map (·.1)) ++
        '.' :: (name.name.1 ++ name.mark.1) ++ rest =
          '.' :: (name.name.1 ++ (name.mark.1 ++ rest)) := by simp [Text.join]
    rw [hForm, callName?, hName, Option.map_some, List.drop_left, h.withMark_append,
      ComponentName.callName, hModules]
    rfl
  | cons first more =>
    have hForm : Text.join ['.'] ((first :: more).map (·.1)) ++
        '.' :: (name.name.1 ++ name.mark.1) ++ rest =
          Text.join ['.'] ((first :: more).map (·.1) ++ [name.name.1]) ++
            (name.mark.1 ++ rest) := by
      rw [Text.join_concat _ (by simp)]
      simp
    have hRemote := remoteName?_join (List.cons_ne_nil first more) name.name name.mark h
    obtain ⟨c, tail, hFirst, hUpper⟩ := first.2.first
    have hHead : ∃ tail,
        Text.join ['.'] ((first :: more).map (·.1) ++ [name.name.1]) = c :: tail := by
      rw [List.map_cons, List.cons_append, Text.join_cons _ _ (by simp), hFirst]
      exact ⟨_, rfl⟩
    obtain ⟨tail, hHead⟩ := hHead
    have hDot : c ≠ '.' := by
      rintro rfl
      revert hUpper
      decide
    rw [hForm, hHead, List.cons_append, callName?_eq_remoteName? hDot, ← List.cons_append, ← hHead,
      hRemote, ComponentName.callName, hModules]
    rfl

theorem remoteName?_of_not_mem {cs : List Char}
    (h : '.' ∉ cs.takeWhile fun c => Text.isAsciiWord c || c == '.') : remoteName? cs = none := by
  simp only [remoteName?, Text.splitAt_of_not_mem h]
  generalize cs.takeWhile _ = part
  cases hUpper : part.head?.any Text.isAsciiUpper with
  | true => simp [hUpper]
  | false => simp [hUpper]

theorem callName?_element (name : ElementName) {rest : List Char} (h : EndsName rest) :
    callName? (name.1 ++ rest) = none := by
  have hDot : ∀ c, isElementChar c = true → c ≠ '.' := by
    rintro c hc rfl
    revert hc
    decide
  have hTake : '.' ∉ (name.1 ++ rest).takeWhile fun c => Text.isAsciiWord c || c == '.' := by
    have hAll := name.2.all
    generalize name.1 = text at hAll
    induction text with
    | nil =>
      obtain ⟨c, more, rfl, _⟩ := id h
      have hNot := h.not_isAsciiWord ⟨[], by decide⟩ c rfl
      rw [List.nil_append, List.takeWhile_cons_of_neg (by simp [hNot])]
      exact List.not_mem_nil
    | cons c text ih =>
      have hRest := ih fun d hd => hAll d (List.mem_cons_of_mem _ hd)
      rw [List.cons_append, List.takeWhile_cons]
      split
      · rw [List.mem_cons, not_or]
        exact ⟨(hDot c (hAll c List.mem_cons_self)).symm, hRest⟩
      · exact List.not_mem_nil
  obtain ⟨c, more, hName, hLetter⟩ := name.2.first
  have hFirst : c ≠ '.' := hDot c (name.2.all c (hName ▸ List.mem_cons_self))
  rw [hName, List.cons_append] at hTake ⊢
  rw [callName?_eq_remoteName? hFirst, remoteName?_of_not_mem hTake]

/-- The name of a component begins with a dot or a capital letter. -/
theorem callName?_eq_none {c : Char} (hDot : c ≠ '.') (hUpper : Text.isAsciiUpper c = false)
    (cs : List Char) : callName? (c :: cs) = none := by
  have hParts : ∀ text : List Char, text.head?.all (fun d => d = c) →
      (Text.splitAt '.' text).takeWhile (fun part => part.head?.any Text.isAsciiUpper) = [] := by
    intro text hText
    cases text with
    | nil => rfl
    | cons d text =>
      obtain rfl : d = c := by simpa using hText
      have hHead : (d == '.') = false := by simpa using hDot
      rw [Text.splitAt, hHead]
      cases Text.splitAt '.' text <;> simp [hUpper]
  have hTaken := hParts ((c :: cs).takeWhile fun d => Text.isAsciiWord d || d == '.') (by
    rw [List.takeWhile_cons]
    split <;> simp)
  simp only [callName?_eq_remoteName? hDot, remoteName?, hTaken]

theorem callName?_of_beginsNoTag {cs : List Char} (h : BeginsNoTag cs) : callName? cs = none := by
  cases cs with
  | nil => rfl
  | cons c cs =>
    have hNot := h c rfl
    simp only [startsTag, Text.isAsciiLetter, Bool.or_eq_false_iff, beq_eq_false_iff_ne] at hNot
    exact callName?_eq_none hNot.1.1.2 hNot.1.1.1.2 cs

theorem slotName?_slot (name : Identifier) {rest : List Char} (h : EndsName rest) :
    slotsOf.slotName? (':' :: (name.1 ++ rest)) = some name.1 :=
  identifier?_append name fun c hc => (h.not_isAsciiWord ⟨[], by decide⟩ c hc).1

theorem slotName?_eq_none {c : Char} (h : c ≠ ':') (cs : List Char) :
    slotsOf.slotName? (c :: cs) = none := by
  rw [slotsOf.slotName?]
  rintro rest ⟨⟩
  exact h rfl

end PhoenixLens.Markup
