import PhoenixLens.Elixir.Definition
import PhoenixLens.Proofs.Elixir.Lexical

/-!
# Lines with a comment behind them

Two texts of which one is the other with blanks and a comment behind it. The readers of code end at
the comment; the readers of texts cut pieces off the beginning, and what is left stays related in
the same way.
-/

namespace PhoenixLens.Elixir

/-! ### Texts without comments -/

/-- The state in which a text leaves a reader of code; behind a comment there is none. -/
def stateAfter? : Quoting → List Char → Option Quoting
  | state, [] => some state
  | state, c :: cs => if state.isCode && c == '#' then none else stateAfter? (state.step c) cs

/-- The text closes its strings and has no comment. -/
def EndsInCode (text : List Char) : Prop := stateAfter? .code text = some .code

instance (text : List Char) : Decidable (EndsInCode text) :=
  inferInstanceAs (Decidable (_ = _))

theorem stateAfter?_append (state : Quoting) (a b : List Char) :
    stateAfter? state (a ++ b) = (stateAfter? state a).bind fun s => stateAfter? s b := by
  induction a generalizing state with
  | nil => rfl
  | cons c a ih =>
    rw [List.cons_append, stateAfter?, stateAfter?]
    split
    · rfl
    · exact ih _

theorem stateAfter?_of_plain {text : List Char} (h : ∀ c ∈ text, isPlain c = true) :
    stateAfter? .code text = some .code := by
  induction text with
  | nil => rfl
  | cons c text ih =>
    have hPlain := h c List.mem_cons_self
    simp only [isPlain, Bool.and_eq_true, Bool.not_eq_true', bne_iff_ne] at hPlain
    rw [stateAfter?, if_neg (by simp [hPlain.2]), Quoting.step, if_neg (by simp [hPlain.1])]
    exact ih fun d hd => h d (List.mem_cons_of_mem _ hd)

theorem codeOf_go_of_stateAfter? {state next : Quoting} {text : List Char}
    (h : stateAfter? state text = some next) (rest : List Char) :
    codeOf.go state (text ++ rest) = codeOf.go state text ++ codeOf.go next rest := by
  induction text generalizing state with
  | nil =>
    rw [stateAfter?, Option.some.injEq] at h
    rw [h]
    cases next <;> rfl
  | cons c text ih =>
    rw [stateAfter?] at h
    split at h
    · cases h
    · rename_i hComment
      cases state with
      | code =>
        have hHash : (c == '#') = false := by simpa [Quoting.isCode] using hComment
        simp only [List.cons_append, codeOf.go, hHash, ih h]
        rfl
      | quoted quote escaped =>
        simp only [List.cons_append, codeOf.go, ih h]
        split <;> rfl

/-! ### Comments behind texts -/

/-- Blanks and a comment of the given characters. -/
def IsRemark (p : Char → Prop) (remark : List Char) : Prop :=
  ∃ blanks comment, (∀ c ∈ blanks, Text.isBlank c = true) ∧ (∀ c ∈ comment, p c) ∧
    remark = blanks ++ '#' :: comment

/-- The second text is the first one with a comment of the given characters behind it. -/
def Remarked (p : Char → Prop) (text other : List Char) : Prop :=
  ∃ remark, IsRemark p remark ∧ other = text ++ remark

/-- A class of characters that neither blanks nor the sign of a comment belong to. -/
def IsSolid (q : Char → Bool) : Prop := (∀ c, Text.isBlank c = true → q c = false) ∧ q '#' = false

theorem isSolid_eq {d : Char} (hBlank : Text.isBlank d = false) (hHash : d ≠ '#') :
    IsSolid (· == d) := by
  constructor
  · rintro c hc
    rw [beq_eq_false_iff_ne]
    rintro rfl
    rw [hBlank] at hc
    cases hc
  · simpa using hHash.symm

theorem isSolid_of_list {cs : List Char} (h : ∀ c ∈ cs, Text.isBlank c = false ∧ c ≠ '#') :
    IsSolid fun c => cs.contains c := by
  constructor
  · intro c hBlank
    rw [← Bool.not_eq_true, List.contains_iff_mem]
    intro hMem
    rw [(h c hMem).1] at hBlank
    cases hBlank
  · rw [← Bool.not_eq_true, List.contains_iff_mem]
    exact fun hMem => (h '#' hMem).2 rfl

/-- A class of characters that blanks and the signs of code do not belong to. -/
def IsMild (q : Char → Bool) : Prop :=
  ∀ c, q c = true → Text.isBlank c = false ∧ isPlain c = true ∧ bracketStep c = 0

theorem IsMild.isSolid {q : Char → Bool} (h : IsMild q) : IsSolid q := by
  constructor
  · intro c hBlank
    rw [← Bool.not_eq_true]
    intro hc
    rw [(h c hc).1] at hBlank
    cases hBlank
  · rw [← Bool.not_eq_true]
    intro hc
    cases (h '#' hc).2.1

/-- The quotes, the sign of a comment and the brackets. -/
def codeSigns : List Char := ['"', '\'', '#', '(', '[', '{', ')', ']', '}']

theorem isMild_of_not_isBlank {q : Char → Bool}
    (hBlank : ∀ c, q c = true → Text.isBlank c = false) (hSigns : ∀ c ∈ codeSigns, q c = false) :
    IsMild q := by
  intro c hc
  have hNot : ∀ d ∈ codeSigns, c ≠ d := by
    rintro d hd rfl
    rw [hSigns c hd] at hc
    cases hc
  simp only [codeSigns, List.forall_mem_cons] at hNot
  refine ⟨hBlank c hc, ?_, ?_⟩
  · simp [isPlain, isQuote, hNot]
  · simp [bracketStep, isOpening, isClosing, hNot]

theorem isMild_of {q : Char → Bool} (hBlanks : ∀ n ∈ Text.blankCodes, q (Char.ofNat n) = false)
    (hSigns : ∀ c ∈ codeSigns, q c = false) : IsMild q :=
  isMild_of_not_isBlank (fun _ => Text.not_isBlank_of hBlanks) hSigns

theorem isMild_of_continuesWord {q : Char → Bool} (h : ∀ c, q c = true → continuesWord c = true) :
    IsMild q := by
  intro c hc
  have hWord := h c hc
  exact ⟨not_isBlank_of_continuesWord hWord, isPlain_of_continuesWord hWord,
    bracketStep_of_continuesWord hWord⟩

theorem isPlain_of_isBlank {c : Char} (h : Text.isBlank c = true) : isPlain c = true := by
  rw [isPlain, isQuote]
  simp only [Bool.and_eq_true, Bool.not_eq_true', Bool.or_eq_false_iff, beq_eq_false_iff_ne,
    bne_iff_ne]
  refine ⟨⟨?_, ?_⟩, ?_⟩
  all_goals
    rintro rfl
    revert h
    decide

namespace IsRemark

variable {p : Char → Prop} {remark : List Char}

theorem blanks_append (h : IsRemark p remark) {blanks : List Char}
    (hBlanks : ∀ c ∈ blanks, Text.isBlank c = true) : IsRemark p (blanks ++ remark) := by
  obtain ⟨own, comment, hOwn, hComment, rfl⟩ := h
  refine ⟨blanks ++ own, comment, ?_, hComment, (List.append_assoc ..).symm⟩
  intro c hc
  rcases List.mem_append.mp hc with hMore | hc
  · exact hBlanks c hMore
  · exact hOwn c hc

theorem exists_cons (h : IsRemark p remark) :
    ∃ c rest, remark = c :: rest ∧ (Text.isBlank c = true ∨ c = '#') := by
  obtain ⟨blanks, comment, hBlanks, -, rfl⟩ := h
  cases blanks with
  | nil => exact ⟨'#', comment, rfl, .inr rfl⟩
  | cons c blanks => exact ⟨c, _, rfl, .inl (hBlanks c List.mem_cons_self)⟩

theorem not_head (h : IsRemark p remark) {q : Char → Bool} (hq : IsSolid q) :
    ∃ c rest, remark = c :: rest ∧ q c = false := by
  obtain ⟨c, rest, hRemark, hBlank | rfl⟩ := h.exists_cons
  · exact ⟨c, rest, hRemark, hq.1 c hBlank⟩
  · exact ⟨'#', rest, hRemark, hq.2⟩

theorem trimStart (h : IsRemark p remark) :
    ∃ comment, (∀ c ∈ comment, p c) ∧ Text.trimStart remark = '#' :: comment := by
  obtain ⟨blanks, comment, hBlanks, hComment, rfl⟩ := h
  refine ⟨comment, hComment, ?_⟩
  rw [Text.trimStart, List.dropWhile_append_of_pos hBlanks,
    List.dropWhile_cons_of_neg (by decide)]

theorem of_hash {comment : List Char} (h : ∀ c ∈ comment, p c) : IsRemark p ('#' :: comment) :=
  ⟨[], comment, nofun, h, rfl⟩

theorem codeOf_go (h : IsRemark p remark) :
    (∀ c ∈ codeOf.go .code remark, Text.isBlank c = true) := by
  obtain ⟨blanks, comment, hBlanks, -, rfl⟩ := h
  rw [codeOf_go_append fun c hc => isPlain_of_isBlank (hBlanks c hc)]
  simpa [codeOf.go] using hBlanks

end IsRemark

/-! ### Code -/

section Code

variable {p : Char → Prop} {text other : List Char}

theorem Remarked.codeOf (h : Remarked p text other) (hText : EndsInCode text) :
    ∃ blanks, (∀ c ∈ blanks, Text.isBlank c = true) ∧ codeOf other = codeOf text ++ blanks := by
  obtain ⟨remark, hRemark, rfl⟩ := h
  exact ⟨_, hRemark.codeOf_go, codeOf_go_of_stateAfter? hText remark⟩

theorem bracketStep_of_isBlank {c : Char} (h : Text.isBlank c = true) : bracketStep c = 0 := by
  have hNot : ∀ d, Text.isBlank d = false → c ≠ d := by
    rintro d hd rfl
    rw [h] at hd
    cases hd
  simp [bracketStep, isOpening, isClosing, hNot '(' (by decide), hNot '[' (by decide),
    hNot '{' (by decide), hNot ')' (by decide), hNot ']' (by decide), hNot '}' (by decide)]

theorem trimEnd_append_blanks {blanks : List Char} (h : ∀ c ∈ blanks, Text.isBlank c = true)
    (code : List Char) : Text.trimEnd (code ++ blanks) = Text.trimEnd code :=
  Text.dropEndWhile_append_of_pos h code

theorem Remarked.needsContinuation_eq (h : Remarked p text other) (hText : EndsInCode text) :
    needsContinuation other = needsContinuation text := by
  obtain ⟨blanks, hBlanks, hCode⟩ := h.codeOf hText
  have hDepth := bracketDepth_of_all fun c hc => bracketStep_of_isBlank (hBlanks c hc)
  simp only [Elixir.needsContinuation, hCode, trimEnd_append_blanks hBlanks, bracketDepth_append,
    hDepth, Int.add_zero]

theorem Remarked.opensDoBlock_eq (h : Remarked p text other) (hText : EndsInCode text) :
    opensDoBlock other = opensDoBlock text := by
  obtain ⟨blanks, hBlanks, hCode⟩ := h.codeOf hText
  simp only [Elixir.opensDoBlock, hCode, trimEnd_append_blanks hBlanks]

theorem keywordOf_of_after {word : List Char} {before : Option Char} {c : Char}
    (h : Text.isBlank c = true) :
    keywordOf ⟨word, before, some c⟩ = keywordOf ⟨word, before, none⟩ := by
  have hColon : (c == ':') = false := by
    rw [beq_eq_false_iff_ne]
    rintro rfl
    revert h
    decide
  simp [keywordOf, hColon]

theorem continuesWord_of_isBlank {c : Char} (h : Text.isBlank c = true) :
    continuesWord c = false := by
  rw [← Bool.not_eq_true]
  intro hWord
  rw [not_isBlank_of_continuesWord hWord] at h
  cases h

theorem not_startsWord_of_isBlank {c : Char} (h : Text.isBlank c = true) :
    startsWord c = false :=
  not_startsWord_of_not_continuesWord (continuesWord_of_isBlank h)

theorem words_go_of_blanks {blanks : List Char} (h : ∀ c ∈ blanks, Text.isBlank c = true)
    (previous : Option Char) : words.go previous none blanks = [] := by
  induction blanks generalizing previous with
  | nil => rfl
  | cons c blanks ih =>
    have hStart := not_startsWord_of_isBlank (h c List.mem_cons_self)
    rw [words_go_cons hStart, ih fun d hd => h d (List.mem_cons_of_mem _ hd)]

/-- Blanks at the end of code add no word and change no keyword. -/
theorem words_go_append_blanks {blanks : List Char} (h : ∀ c ∈ blanks, Text.isBlank c = true)
    (previous : Option Char) (word : Option (Option Char × List Char)) (code : List Char) :
    (words.go previous word (code ++ blanks)).map keywordOf =
      (words.go previous word code).map keywordOf := by
  induction code generalizing previous word with
  | nil =>
    cases word with
    | none => rw [List.nil_append, words_go_of_blanks h, words.go]
    | some unfinished =>
      obtain ⟨before, seen⟩ := unfinished
      cases blanks with
      | nil => rfl
      | cons c blanks =>
        have hBlank := h c List.mem_cons_self
        have hWord : continuesWord c = false := continuesWord_of_isBlank hBlank
        have hWords : words.go previous (some (before, seen)) (c :: blanks) =
            ⟨seen.reverse, before, some c⟩ :: words.go (some c) none blanks := by
          rw [words.go, if_neg (by simp [hWord])]
        rw [List.nil_append, hWords, List.map_cons, keywordOf_of_after hBlank,
          words_go_of_blanks fun d hd => h d (List.mem_cons_of_mem _ hd)]
        rfl
  | cons c code ih =>
    cases word with
    | none =>
      rw [List.cons_append, words.go, words.go]
      split
      · exact ih _ _
      · exact ih _ _
    | some unfinished =>
      obtain ⟨before, seen⟩ := unfinished
      rw [List.cons_append, words.go, words.go]
      split
      · exact ih _ _
      · rw [List.map_cons, List.map_cons, ih]

theorem Remarked.blockDelta_eq (h : Remarked p text other) (hText : EndsInCode text) :
    blockDelta other = blockDelta text := by
  obtain ⟨blanks, hBlanks, hCode⟩ := h.codeOf hText
  rw [Elixir.blockDelta_eq, Elixir.blockDelta_eq, hCode, trimEnd_append_blanks hBlanks, words,
    words, words_go_append_blanks hBlanks]

end Code

/-! ### Cutting off the beginning -/

theorem eq_none_of_rel {α β : Type} {r : α → β → Prop} {b : Option β}
    (h : Option.Rel r none b) : b = none := by
  cases h
  rfl

theorem eq_of_rel {α : Type} {a b : Option α} (h : Option.Rel (· = ·) a b) : a = b := by
  cases h with
  | some hEq => rw [hEq]
  | none => rfl

theorem rel_of_eq {α : Type} {a b : Option α} (h : a = b) : Option.Rel (· = ·) a b := by
  subst h
  cases a with
  | some value => exact .some rfl
  | none => exact .none

theorem rel_bind {α β γ δ : Type} {r : α → β → Prop} {s : γ → δ → Prop} {a : Option α}
    {b : Option β} (h : Option.Rel r a b) {f : α → Option γ} {g : β → Option δ}
    (hStep : ∀ x y, a = some x → r x y → Option.Rel s (f x) (g y)) :
    Option.Rel s (a >>= f) (b >>= g) := by
  cases h with
  | some hRel => exact hStep _ _ rfl hRel
  | none => exact .none

theorem isSome_eq_of_rel {α β : Type} {r : α → β → Prop} {a : Option α} {b : Option β}
    (h : Option.Rel r a b) : b.isSome = a.isSome := by
  cases h <;> rfl

theorem exists_of_rel {α β : Type} {r : α → β → Prop} {a : α} {b : Option β}
    (h : Option.Rel r (some a) b) : ∃ value, b = some value ∧ r a value := by
  cases h with
  | some hRel => exact ⟨_, rfl, hRel⟩

namespace Remarked

variable {p : Char → Prop} {text other : List Char}

theorem append_left (h : Remarked p text other) (front : List Char) :
    Remarked p (front ++ text) (front ++ other) := by
  obtain ⟨remark, hRemark, rfl⟩ := h
  exact ⟨remark, hRemark, (List.append_assoc ..).symm⟩

theorem trimStart (h : Remarked p text other) :
    Remarked p (Text.trimStart text) (Text.trimStart other) := by
  obtain ⟨remark, hRemark, rfl⟩ := h
  rw [Text.trimStart, Text.trimStart, List.dropWhile_append]
  split
  · rename_i hEmpty
    obtain ⟨comment, hComment, hTrim⟩ := hRemark.trimStart
    rw [Text.trimStart] at hTrim
    rw [List.isEmpty_iff.mp hEmpty, hTrim]
    exact ⟨_, .of_hash hComment, rfl⟩
  · exact ⟨remark, hRemark, rfl⟩

theorem trimEnd (h : Remarked p text other) :
    Remarked p (Text.trimEnd text) (Text.trimEnd other) := by
  obtain ⟨_, ⟨blanks, comment, hBlanks, hComment, rfl⟩, rfl⟩ := h
  obtain ⟨own, hOwn, hText⟩ := Text.exists_dropEndWhile_append Text.isBlank text
  obtain ⟨rest, -, hRest⟩ := Text.exists_dropEndWhile_append Text.isBlank comment
  have hEnd : Text.trimEnd (text ++ (blanks ++ '#' :: comment)) =
      text ++ (blanks ++ '#' :: Text.trimEnd comment) := by
    rw [← List.append_assoc, Text.trimEnd, Text.dropEndWhile_append_cons (by decide),
      ← Text.trimEnd, List.append_assoc]
  refine ⟨own ++ (blanks ++ '#' :: Text.trimEnd comment), ?_, ?_⟩
  · refine IsRemark.blanks_append ⟨blanks, _, hBlanks, ?_, rfl⟩ hOwn
    intro c hc
    exact hComment c (hRest ▸ List.mem_append_left _ hc)
  · change text = Text.trimEnd text ++ own at hText
    rw [hEnd, ← List.append_assoc (Text.trimEnd text), ← hText]

theorem trim (h : Remarked p text other) : Remarked p (Text.trim text) (Text.trim other) :=
  h.trimStart.trimEnd

theorem stripPrefix? (h : Remarked p text other) {start : String}
    (hStart : IsSolid fun c => start.toList.contains c) :
    Option.Rel (Remarked p) (Text.stripPrefix? start text) (Text.stripPrefix? start other) := by
  obtain ⟨remark, hRemark, rfl⟩ := h
  obtain ⟨c, rest, hCons, hNot⟩ := hRemark.not_head hStart
  rw [Text.stripPrefix?, Text.stripPrefix?]
  cases hOwn : start.toList.isPrefixOf? text with
  | some inner =>
    have hAppend := List.isPrefixOf?_eq_some_iff_append_eq.mp hOwn
    have hOther : start.toList.isPrefixOf? (text ++ remark) = some (inner ++ remark) := by
      rw [List.isPrefixOf?_eq_some_iff_append_eq, ← List.append_assoc, hAppend]
    rw [hOther]
    exact .some ⟨remark, hRemark, rfl⟩
  | none =>
    cases hOther : start.toList.isPrefixOf? (text ++ remark) with
    | none => exact .none
    | some inner =>
      have hAppend := List.isPrefixOf?_eq_some_iff_append_eq.mp hOther
      have hApart : ∀ more, start.toList ++ more ≠ text := by
        intro more hText
        rw [List.isPrefixOf?_eq_some_iff_append_eq.mpr hText] at hOwn
        cases hOwn
      rcases List.append_eq_append_iff.mp hAppend with ⟨more, hText, -⟩ | ⟨more, hText, hMore⟩
      · exact absurd hText.symm (hApart more)
      · cases more with
        | nil =>
          rw [List.append_nil] at hText
          exact absurd (by rw [List.append_nil, hText]) (hApart [])
        | cons d more =>
          -- The comment would have to begin inside of what is cut off.
          rw [hCons, List.cons_append, List.cons.injEq] at hMore
          simp only [List.contains_iff_mem, Bool.eq_false_iff, ne_eq, hMore.1] at hNot
          exact absurd (hText ▸ List.mem_append_right _ List.mem_cons_self) hNot

theorem takeWhile (h : Remarked p text other) {q : Char → Bool} (hq : IsSolid q) :
    other.takeWhile q = text.takeWhile q := by
  obtain ⟨remark, hRemark, rfl⟩ := h
  obtain ⟨c, rest, rfl, hNot⟩ := hRemark.not_head hq
  rw [List.takeWhile_append]
  split
  · rename_i hAll
    rw [List.takeWhile_cons_of_neg (by simp [hNot]), List.append_nil]
    exact ((List.takeWhile_prefix q).eq_of_length hAll).symm
  · rfl

theorem dropWhile (h : Remarked p text other) {q : Char → Bool} (hq : IsSolid q) :
    Remarked p (text.dropWhile q) (other.dropWhile q) := by
  obtain ⟨remark, hRemark, rfl⟩ := h
  obtain ⟨c, rest, hCons, hNot⟩ := hRemark.not_head hq
  refine ⟨remark, hRemark, ?_⟩
  rw [List.dropWhile_append]
  split
  · rename_i hEmpty
    rw [List.isEmpty_iff.mp hEmpty, hCons, List.dropWhile_cons_of_neg (by simp [hNot])]
    rfl
  · rfl

theorem head?_any (h : Remarked p text other) {q : Char → Bool} (hq : IsSolid q) :
    other.head?.any q = text.head?.any q := by
  obtain ⟨remark, hRemark, rfl⟩ := h
  obtain ⟨c, rest, rfl, hNot⟩ := hRemark.not_head hq
  cases text with
  | nil => simp [hNot]
  | cons d text => rfl

/-- Behind blanks stands what is read on, or the comment, which must not be read as anything. -/
theorem afterBlanks?_bind {α β : Type} {r : α → β → Prop} (h : Remarked p text other)
    {f : List Char → Option α} {g : List Char → Option β}
    (hRest : ∀ x y, Elixir.afterBlanks? text = some x → Remarked p x y → Option.Rel r (f x) (g y))
    (hComment : ∀ comment, g ('#' :: comment) = none) :
    Option.Rel r (Elixir.afterBlanks? text >>= f) (Elixir.afterBlanks? other >>= g) := by
  obtain ⟨remark, hRemark, rfl⟩ := h
  cases text with
  | nil =>
    have hNone : (Elixir.afterBlanks? ([] ++ remark) >>= g) = none := by
      obtain ⟨comment, -, hTrim⟩ := hRemark.trimStart
      obtain ⟨c, rest, rfl, hBlank | rfl⟩ := hRemark.exists_cons
      · rw [Text.trimStart, List.dropWhile_cons_of_pos hBlank] at hTrim
        rw [List.nil_append, Elixir.afterBlanks?, if_pos hBlank, Text.trimStart, hTrim]
        exact hComment comment
      · rfl
    rw [hNone]
    exact .none
  | cons c rest =>
    have hRel : Option.Rel (Remarked p) (Elixir.afterBlanks? (c :: rest))
        (Elixir.afterBlanks? (c :: rest ++ remark)) := by
      rw [List.cons_append, Elixir.afterBlanks?, Elixir.afterBlanks?]
      split
      · exact .some (trimStart ⟨remark, hRemark, rfl⟩)
      · exact .none
    exact rel_bind hRel hRest

end Remarked

/-! ### What stands before -/

/-- The second text is what follows plain text without brackets in the first one. -/
def IsBehind (text rest : List Char) : Prop :=
  ∃ front, (∀ c ∈ front, isPlain c = true ∧ bracketStep c = 0) ∧ text = front ++ rest

namespace IsBehind

variable {text rest : List Char}

theorem refl (text : List Char) : IsBehind text text := ⟨[], nofun, rfl⟩

theorem trans {more : List Char} (h : IsBehind text rest) (hMore : IsBehind rest more) :
    IsBehind text more := by
  obtain ⟨front, hFront, rfl⟩ := h
  obtain ⟨next, hNext, rfl⟩ := hMore
  refine ⟨front ++ next, ?_, (List.append_assoc ..).symm⟩
  intro c hc
  rcases List.mem_append.mp hc with hc | hc
  · exact hFront c hc
  · exact hNext c hc

theorem trimStart (text : List Char) : IsBehind text (Text.trimStart text) := by
  refine ⟨text.takeWhile Text.isBlank, ?_, List.takeWhile_append_dropWhile.symm⟩
  intro c hc
  have hBlank := List.all_eq_true.mp List.all_takeWhile c hc
  exact ⟨isPlain_of_isBlank hBlank, bracketStep_of_isBlank hBlank⟩

theorem dropWhile {q : Char → Bool} (hq : IsMild q) (text : List Char) :
    IsBehind text (text.dropWhile q) := by
  refine ⟨text.takeWhile q, ?_, List.takeWhile_append_dropWhile.symm⟩
  intro c hc
  exact (hq c (List.all_eq_true.mp List.all_takeWhile c hc)).2

theorem stripPrefix? {start : String} (hStart : IsMild fun c => start.toList.contains c)
    (h : Text.stripPrefix? start text = some rest) : IsBehind text rest := by
  refine ⟨start.toList, ?_, (List.isPrefixOf?_eq_some_iff_append_eq.mp h).symm⟩
  intro c hc
  exact (hStart c (List.contains_iff_mem.mpr hc)).2

theorem afterBlanks? (h : Elixir.afterBlanks? text = some rest) : IsBehind text rest := by
  cases text with
  | nil => cases h
  | cons c text =>
    rw [Elixir.afterBlanks?] at h
    split at h
    · rename_i hBlank
      have hTrim : Text.trimStart (c :: text) = Text.trimStart text :=
        List.dropWhile_cons_of_pos hBlank
      rw [← Option.some.inj h, ← hTrim]
      exact trimStart _
    · cases h

theorem endsInCode (h : IsBehind text rest) (hText : EndsInCode text) : EndsInCode rest := by
  obtain ⟨front, hFront, rfl⟩ := h
  rwa [EndsInCode, stateAfter?_append, stateAfter?_of_plain fun c hc => (hFront c hc).1] at hText

end IsBehind

end PhoenixLens.Elixir
