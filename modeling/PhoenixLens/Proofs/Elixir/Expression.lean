import PhoenixLens.Proofs.Elixir.Balanced
import PhoenixLens.Proofs.Elixir.RouterValue

/-!
# Expressions in one line

What may stand as an argument of a macro or behind a key: text that closes what it opens, ends in
its line and, as an argument, opens and closes no block. Expressions make up longer ones, up to the
whole line.
-/

namespace PhoenixLens.Elixir

/-! ### Words -/

/-- The second word is the first one, with more known of what stands around it. -/
structure Word.IsWithin (w v : Word) : Prop where
  text : v.text = w.text
  before : w.before = none ∨ v.before = w.before
  after : w.after = none ∨ v.after = w.after

theorem Word.IsWithin.isIdle {w v : Word} (h : w.IsWithin v) (hIdle : IsIdle (keywordOf w)) :
    IsIdle (keywordOf v) := by
  rw [keywordOf]
  split
  · exact isIdle_nil
  · rename_i hNone
    have hOwn : keywordOf w = w.text := by
      rw [keywordOf, if_neg]
      intro hSome
      refine hNone ?_
      simp only [Bool.or_eq_true, beq_iff_eq] at hSome ⊢
      rcases hSome with (hBefore | hBefore) | hAfter
      · exact .inl (.inl ((h.before.resolve_left (by simp [hBefore])).trans hBefore))
      · exact .inl (.inr ((h.before.resolve_left (by simp [hBefore])).trans hBefore))
      · exact .inr ((h.after.resolve_left (by simp [hAfter])).trans hAfter)
    rwa [h.text, ← hOwn]

theorem words_go_idle {code rest : List Char} (hRest : IsApart rest) {previous other : Option Char}
    (hPrevious : previous = none ∨ other = previous) :
    ((∀ w ∈ words.go previous none code, IsIdle (keywordOf w)) →
      ∃ found : List Word, (∀ w ∈ found, IsIdle (keywordOf w)) ∧
        words.go other none (code ++ rest) = found ++ words.go none none rest) ∧
    ∀ (before front : Option Char) (seen : List Char), before = none ∨ front = before →
      (∀ w ∈ words.go previous (some (before, seen)) code, IsIdle (keywordOf w)) →
        ∃ found : List Word, (∀ w ∈ found, IsIdle (keywordOf w)) ∧
          words.go other (some (front, seen)) (code ++ rest) = found ++ words.go none none rest := by
  induction code generalizing previous other with
  | nil =>
    refine ⟨fun _ => ⟨[], nofun, words_go_of_isApart hRest _ _⟩, fun before front seen hBefore h => ?_⟩
    have hWord := h ⟨seen.reverse, before, none⟩ List.mem_cons_self
    refine ⟨[⟨seen.reverse, front, rest.head?⟩], ?_, ?_⟩
    · rw [List.forall_mem_singleton]
      have hWithin : Word.IsWithin ⟨seen.reverse, before, none⟩
          ⟨seen.reverse, front, rest.head?⟩ := ⟨rfl, hBefore, .inl rfl⟩
      exact hWithin.isIdle hWord
    · cases rest with
      | nil => rfl
      | cons c rest =>
        have hStart := not_startsWord_of_not_continuesWord (hRest c rfl)
        rw [words_go_cons hStart, List.nil_append, words.go, hRest c rfl, if_neg Bool.false_ne_true]
        rfl
  | cons c code ih =>
    obtain ⟨hNone, hSome⟩ := @ih (some c) (some c) (.inr rfl)
    constructor
    · rw [List.cons_append, words.go, words.go]
      split
      · exact hSome _ _ _ hPrevious
      · exact hNone
    · intro before front seen hBefore
      rw [List.cons_append, words.go, words.go]
      split
      · exact hSome _ _ _ hBefore
      · rw [List.forall_mem_cons]
        rintro ⟨hWord, hLater⟩
        obtain ⟨found, hFound, hWords⟩ := hNone hLater
        refine ⟨⟨seen.reverse, front, some c⟩ :: found, ?_, ?_⟩
        · rw [List.forall_mem_cons]
          have hWithin : Word.IsWithin ⟨seen.reverse, before, some c⟩
              ⟨seen.reverse, front, some c⟩ := ⟨rfl, hBefore, .inr rfl⟩
          exact ⟨hWithin.isIdle hWord, hFound⟩
        · rw [hWords, List.cons_append]

theorem isQuiet_iff {code : List Char} :
    IsQuiet code ↔ ∀ w ∈ words code, IsIdle (keywordOf w) := by
  constructor
  · intro h
    obtain ⟨found, hFound, hWords⟩ := h none [] nofun
    have hAll : words code = found := by simpa [words, words.go] using hWords
    rwa [hAll]
  · intro h previous rest hRest
    exact (words_go_idle hRest (.inl rfl)).1 h

instance (word : List Char) : Decidable (IsWordRun word) :=
  decidable_of_iff (word.head?.any startsWord = true ∧ ∀ c ∈ word, continuesWord c = true) (by
    constructor
    · rintro ⟨hFirst, hAll⟩
      cases word with
      | nil => cases hFirst
      | cons c rest => exact ⟨⟨c, rest, rfl, hFirst⟩, hAll⟩
    · rintro ⟨⟨c, rest, rfl, hFirst⟩, hAll⟩
      exact ⟨hFirst, hAll⟩)

instance (word : List Char) : Decidable (IsIdle word) := inferInstanceAs (Decidable (_ ∧ _ ∧ _))

instance (code : List Char) : Decidable (IsQuiet code) := decidable_of_iff _ isQuiet_iff.symm

/-- Blanks between codes that open and close no block. -/
theorem IsQuiet.behind {code more : List Char} (h : IsQuiet code) (hMore : IsQuiet more) :
    IsQuiet (code ++ ' ' :: more) :=
  h.append (.cons (by decide) hMore) (by simp [IsApart]; decide)

/-! ### Text behind a blank -/

theorem suffix_behind_iff {piece text front : List Char} {c : Char} (hNot : c ∉ piece) :
    piece <:+ front ++ c :: text ↔ piece <:+ text := by
  constructor
  · intro h
    have hOther : c :: text <:+ front ++ c :: text := List.suffix_append _ _
    rcases List.suffix_or_suffix_of_suffix h hOther with hShort | hLong
    · rcases List.suffix_cons_iff.mp hShort with rfl | hText
      · exact absurd List.mem_cons_self hNot
      · exact hText
    · exact absurd (hLong.mem List.mem_cons_self) hNot
  · intro h
    exact h.trans ((List.suffix_cons c text).trans (List.suffix_append front _))

theorem EndsInDo.of_behind {text front : List Char} {c : Char} (hc : c ∉ ['d', 'o'])
    (h : EndsInDo (front ++ c :: text)) : EndsInDo text := by
  obtain ⟨before, hText, hLast⟩ := h
  have hSuffix : ['d', 'o'] <:+ front ++ c :: text := ⟨before, hText.symm⟩
  obtain ⟨own, rfl⟩ := (suffix_behind_iff hc).mp hSuffix
  refine ⟨own, rfl, fun d hd => hLast d ?_⟩
  have hBefore : before = front ++ c :: own := by
    rw [← List.cons_append, ← List.append_assoc] at hText
    exact (List.append_cancel_right hText).symm
  rw [hBefore, List.getLast?_append, List.getLast?_cons]
  rw [Option.mem_def] at hd
  simp [hd]

/-! ### Expressions -/

/-- A part of a line. -/
structure IsSegment (commas : Bool) (text : List Char) : Prop where
  balanced : IsBalanced commas .code 0 text
  unbroken : '\n' ∉ text
  trimmed : Text.IsTrimmed text

/-- An expression may end a line, and does not open the block of the line. -/
structure IsExpression (commas : Bool) (text : List Char) : Prop extends IsSegment commas text where
  finished : needsContinuation text = false
  noDo : opensDoBlock text = false
  noHeredoc : ∀ delimiter ∈ heredocDelimiters, ¬delimiter <:+ text

/-- A phrase opens and closes no block. -/
structure IsPhrase (commas : Bool) (text : List Char) : Prop extends IsExpression commas text where
  quiet : IsQuiet (codeOf text)

/-- An argument has no comma outside of brackets. -/
abbrev IsArgument (text : List Char) : Prop := IsPhrase false text

instance (commas : Bool) (text : List Char) : Decidable (IsSegment commas text) :=
  decidable_of_iff (IsBalanced commas .code 0 text ∧ '\n' ∉ text ∧ Text.IsTrimmed text)
    ⟨fun ⟨hBalanced, hUnbroken, hTrimmed⟩ => ⟨hBalanced, hUnbroken, hTrimmed⟩,
      fun ⟨hBalanced, hUnbroken, hTrimmed⟩ => ⟨hBalanced, hUnbroken, hTrimmed⟩⟩

instance (commas : Bool) (text : List Char) : Decidable (IsExpression commas text) :=
  decidable_of_iff (IsSegment commas text ∧ needsContinuation text = false ∧
      opensDoBlock text = false ∧ ∀ delimiter ∈ heredocDelimiters, ¬delimiter <:+ text)
    ⟨fun ⟨hSegment, hFinished, hDo, hHeredoc⟩ => ⟨hSegment, hFinished, hDo, hHeredoc⟩,
      fun ⟨hSegment, hFinished, hDo, hHeredoc⟩ => ⟨hSegment, hFinished, hDo, hHeredoc⟩⟩

instance (commas : Bool) (text : List Char) : Decidable (IsPhrase commas text) :=
  decidable_of_iff (IsExpression commas text ∧ IsQuiet (codeOf text))
    ⟨fun ⟨hExpression, hQuiet⟩ => ⟨hExpression, hQuiet⟩,
      fun ⟨hExpression, hQuiet⟩ => ⟨hExpression, hQuiet⟩⟩

namespace IsSegment

variable {commas : Bool} {front text : List Char}

theorem mono (h : IsSegment false text) : IsSegment commas text := by
  refine ⟨?_, h.unbroken, h.trimmed⟩
  have hEnd : IsBalanced commas .code 0 [] := .nil
  have hBalanced := h.balanced.append (by rintro ⟨⟩) hEnd
  rwa [List.append_nil] at hBalanced

theorem codeOf_behind (h : IsSegment commas front) (text : List Char) :
    codeOf (front ++ ' ' :: text) = codeOf front ++ ' ' :: codeOf text :=
  h.balanced.codeOf_go_eq (' ' :: text)

theorem bracketDepth_eq (h : IsSegment commas text) : bracketDepth (codeOf text) = 0 :=
  h.balanced.bracketDepth_eq isReached_code

theorem behind (hFront : IsSegment commas front) (h : IsSegment commas text) :
    IsSegment commas (front ++ ' ' :: text) := by
  refine ⟨hFront.balanced.code_append ?_, ?_, ?_⟩
  · exact .other rfl (by decide) (fun hSame => absurd hSame (by decide)) h.balanced
  · simp [hFront.unbroken, h.unbroken]
  · have hBoth := hFront.trimmed.append [' '] h.trimmed
    rwa [List.append_assoc] at hBoth

theorem last (h : IsSegment commas text) :
    ∃ before code c, text = before ++ [c] ∧ codeOf text = code ++ [c] ∧
      Text.isBlank c = false := by
  obtain ⟨before, c, rfl, hBlank⟩ := h.trimmed.last
  obtain ⟨code, hCode⟩ := codeOf_concat h.balanced.endsInCode
  exact ⟨before, code, c, rfl, hCode, hBlank⟩

theorem trimEnd_codeOf (h : IsSegment commas text) : Text.trimEnd (codeOf text) = codeOf text := by
  obtain ⟨before, code, c, -, hCode, hBlank⟩ := h.last
  rw [hCode, Text.trimEnd, Text.dropEndWhile_concat_of_neg hBlank]

theorem isPiece (h : IsSegment commas text) (hQuiet : IsQuiet (codeOf text)) :
    IsPiece text (codeOf text) :=
  ⟨h.balanced.codeOf_go_eq, hQuiet, h.bracketDepth_eq, h.unbroken⟩

theorem needsContinuation_eq_false_iff (h : IsSegment commas text) :
    needsContinuation text = false ↔ ¬[','] <:+ codeOf text ∧ ¬['|', '>'] <:+ codeOf text := by
  rw [← Bool.not_eq_true]
  simp [needsContinuation, h.trimEnd_codeOf, h.bracketDepth_eq, Text.endsWith]

theorem opensDoBlock_eq_false_iff (h : IsSegment commas text) :
    opensDoBlock text = false ↔ ¬EndsInDo (codeOf text) := by
  rw [← Bool.not_eq_true, opensDoBlock_iff, h.trimEnd_codeOf]

/-- Only code can end in a word outside of strings. -/
theorem endsInDo_codeOf (h : IsSegment commas text) (hDo : EndsInDo text) :
    EndsInDo (codeOf text) := by
  obtain ⟨before, rfl, hLast⟩ := hDo
  have hEnd := h.balanced.endsInCode
  have hForm : before ++ ['d', 'o'] = before ++ ['d'] ++ ['o'] := by simp
  rw [hForm] at hEnd ⊢
  obtain ⟨hBefore, hCode⟩ := codeOf_concat_of_not_isQuote hEnd (by decide)
  obtain ⟨hOwn, hOwnCode⟩ := codeOf_concat_of_not_isQuote hBefore (by decide)
  refine ⟨codeOf before, by rw [hCode, hOwnCode, List.append_assoc]; rfl, ?_⟩
  induction before using List.reverseRecOn with
  | nil => nofun
  | append_singleton before c _ =>
    have hSign := hLast c (by simp)
    have hQuote : isQuote c = false := by rcases hSign with rfl | rfl | rfl <;> decide
    obtain ⟨-, hFront⟩ := codeOf_concat_of_not_isQuote hOwn hQuote
    rw [hFront, List.getLast?_concat]
    intro d hd
    cases hd
    exact hSign

end IsSegment

namespace IsExpression

variable {commas : Bool} {front text line code : List Char}

theorem not_endsInDo (h : IsExpression commas text) : ¬EndsInDo text :=
  fun hDo => h.opensDoBlock_eq_false_iff.mp h.noDo (h.endsInDo_codeOf hDo)

theorem mono (h : IsExpression false text) : IsExpression commas text :=
  ⟨h.toIsSegment.mono, h.finished, h.noDo, h.noHeredoc⟩

/-! #### Behind other code -/

theorem trimEnd_behind (h : IsExpression commas text) (code : List Char) :
    Text.trimEnd (code ++ ' ' :: codeOf text) = code ++ ' ' :: codeOf text := by
  obtain ⟨-, own, c, -, hCode, hBlank⟩ := h.last
  rw [hCode, ← List.cons_append, ← List.append_assoc, Text.trimEnd,
    Text.dropEndWhile_concat_of_neg hBlank]

theorem finished_behind (h : IsExpression commas text)
    (hCode : codeOf line = code ++ ' ' :: codeOf text) (hDepth : bracketDepth code = 0) :
    needsContinuation line = false := by
  obtain ⟨hComma, hPipe⟩ := h.needsContinuation_eq_false_iff.mp h.finished
  have hLine : bracketDepth (code ++ ' ' :: codeOf text) = 0 := by
    rw [bracketDepth_append, hDepth, bracketDepth, h.bracketDepth_eq]
    rfl
  rw [← Bool.not_eq_true]
  simp [needsContinuation, hCode, h.trimEnd_behind, hLine, Text.endsWith,
    suffix_behind_iff, hComma, hPipe]

theorem noHeredoc_behind (h : IsExpression commas text) (front : List Char) :
    ∀ delimiter ∈ heredocDelimiters, ¬delimiter <:+ front ++ ' ' :: text := by
  intro delimiter hDelimiter
  rw [suffix_behind_iff]
  · exact h.noHeredoc delimiter hDelimiter
  · revert delimiter
    decide

theorem behind (h : IsExpression commas text) (hFront : IsSegment commas front) :
    IsExpression commas (front ++ ' ' :: text) := by
  have hSegment := hFront.behind h.toIsSegment
  refine ⟨hSegment, h.finished_behind (hFront.codeOf_behind text) hFront.bracketDepth_eq, ?_,
    h.noHeredoc_behind front⟩
  rw [hSegment.opensDoBlock_eq_false_iff, hFront.codeOf_behind]
  exact fun hDo => h.opensDoBlock_eq_false_iff.mp h.noDo (hDo.of_behind (by decide))

theorem map_keywordOf_go (code : List Char) :
    (words.go (some ' ') none code).map keywordOf = (words code).map keywordOf := by
  have hWord (previous : Option Char) (seen code : List Char) :
      (words.go previous (some (some ' ', seen)) code).map keywordOf =
        (words.go previous (some (none, seen)) code).map keywordOf := by
    induction code generalizing previous seen with
    | nil => rfl
    | cons c code ih =>
      rw [words.go, words.go]
      split
      · exact ih _ _
      · rfl
  cases code with
  | nil => rfl
  | cons c code =>
    rw [words, words.go, words.go]
    split
    · exact hWord _ _ _
    · rfl

/-- The blocks of a line whose front opens and closes none are those of the expression behind it. -/
theorem blockDelta_behind (h : IsExpression commas text)
    (hCode : codeOf line = code ++ ' ' :: codeOf text) (hQuiet : IsQuiet code) :
    blockDelta line = blockDelta text := by
  obtain ⟨found, hFound, hWords⟩ := hQuiet none (' ' :: codeOf text) (by simp [IsApart]; decide)
  have hKeywords : (words (codeOf line)).map keywordOf =
      found.map keywordOf ++ (words (codeOf text)).map keywordOf := by
    rw [hCode, words, hWords, words_go_cons (by decide), List.map_append, map_keywordOf_go]
  have hDo : Text.endsWith "do" (code ++ ' ' :: codeOf text) = Text.endsWith "do" (codeOf text) := by
    rw [Bool.eq_iff_iff, Text.endsWith, Text.endsWith, List.isSuffixOf_iff_suffix,
      List.isSuffixOf_iff_suffix, suffix_behind_iff (by decide)]
  obtain ⟨hFn, hEnd⟩ := count_keywords_eq_zero hFound
  have hLast : (found.map keywordOf).getLast? ≠ some ['d', 'o'] := by
    intro hLast
    obtain ⟨w, hw, hKeyword⟩ := List.mem_map.mp (List.mem_of_getLast? hLast)
    exact (hFound w hw).1 hKeyword
  rw [blockDelta_eq, blockDelta_eq, hKeywords, List.count_append, List.count_append, hFn, hEnd,
    Nat.zero_add, Nat.zero_add, hCode, h.trimEnd_behind, h.trimEnd_codeOf, hDo,
    List.getLast?_append]
  cases hOwn : ((words (codeOf text)).map keywordOf).getLast? with
  | some word => rfl
  | none =>
    have hNot : ((found.map keywordOf).getLast? == some ['d', 'o']) = false := by simpa using hLast
    rw [Option.none_or, hNot]
    rfl

/-! #### Lines -/

theorem isOwnLine (h : IsExpression commas text) (width : Nat) :
    IsOwnLine (List.replicate width ' ' ++ text) (blockDelta text) := by
  obtain ⟨before, -, c, hText, -, hBlank⟩ := h.last
  have hUnbroken : '\n' ∉ List.replicate width ' ' ++ text := by
    rw [List.mem_append, not_or]
    refine ⟨fun hMem => ?_, h.unbroken⟩
    cases List.eq_of_mem_replicate hMem
  have hLast : List.replicate width ' ' ++ text = List.replicate width ' ' ++ before ++ [c] := by
    rw [hText, List.append_assoc]
  have hReturn : (List.replicate width ' ' ++ text).getLast? ≠ some '\r' := by
    rw [hLast, List.getLast?_concat]
    rintro ⟨⟩
    revert hBlank
    decide
  cases width with
  | zero =>
    exact ⟨heredocOpening?_of_not_suffix ⟨_, c, hLast, hBlank⟩ h.noHeredoc, h.finished, rfl,
      hUnbroken, hReturn⟩
  | succ width =>
    have hForm : List.replicate (width + 1) ' ' ++ text = List.replicate width ' ' ++ ' ' :: text := by
      rw [List.replicate_succ', List.append_assoc]
      rfl
    have hBlanks : ∀ c ∈ List.replicate width ' ',
        isPlain c = true ∧ bracketStep c = 0 ∧ startsWord c = false := by
      intro c hc
      rw [List.eq_of_mem_replicate hc]
      decide
    have hCode : codeOf (List.replicate width ' ' ++ ' ' :: text) =
        List.replicate width ' ' ++ ' ' :: codeOf text := by
      rw [codeOf, codeOf_go_append fun c hc => (hBlanks c hc).1]
      rfl
    rw [hForm] at hLast hUnbroken hReturn ⊢
    refine ⟨heredocOpening?_of_not_suffix ⟨_, c, hLast, hBlank⟩ (h.noHeredoc_behind _), ?_, ?_,
      hUnbroken, hReturn⟩
    · exact h.finished_behind hCode (bracketDepth_of_all fun c hc => (hBlanks c hc).2.1)
    · exact h.blockDelta_behind hCode (.of_all fun c hc => (hBlanks c hc).2.2)

end IsExpression

namespace IsPhrase

variable {commas : Bool} {front text : List Char}

theorem mono (h : IsPhrase false text) : IsPhrase commas text := ⟨h.toIsExpression.mono, h.quiet⟩

theorem isPiece (h : IsPhrase commas text) : IsPiece text (codeOf text) :=
  h.toIsSegment.isPiece h.quiet

theorem behind (h : IsPhrase commas text) (hFront : IsSegment commas front)
    (hQuiet : IsQuiet (codeOf front)) : IsPhrase commas (front ++ ' ' :: text) := by
  refine ⟨h.toIsExpression.behind hFront, ?_⟩
  rw [hFront.codeOf_behind]
  exact hQuiet.behind h.quiet

/-- A dot between two phrases. -/
theorem dot (hFront : IsPhrase commas front)
    (h : IsPhrase commas text) : IsPhrase commas (front ++ '.' :: text) := by
  have hBalanced : IsBalanced commas .code 0 ('.' :: text) :=
    .other rfl (by decide) (fun hSame => absurd hSame (by decide)) h.balanced
  have hSegment : IsSegment commas (front ++ '.' :: text) := by
    refine ⟨hFront.balanced.code_append hBalanced, ?_, ?_⟩
    · simp [hFront.unbroken, h.unbroken]
    · have hBoth := hFront.trimmed.append ['.'] h.trimmed
      rwa [List.append_assoc] at hBoth
  have hCode : codeOf (front ++ '.' :: text) = codeOf front ++ '.' :: codeOf text :=
    hFront.balanced.codeOf_go_eq ('.' :: text)
  refine ⟨⟨hSegment, ?_, ?_, ?_⟩, ?_⟩
  · obtain ⟨hComma, hPipe⟩ := h.needsContinuation_eq_false_iff.mp h.finished
    rw [hSegment.needsContinuation_eq_false_iff, hCode, suffix_behind_iff (by decide),
      suffix_behind_iff (by decide)]
    exact ⟨hComma, hPipe⟩
  · rw [hSegment.opensDoBlock_eq_false_iff, hCode]
    exact fun hDo => h.opensDoBlock_eq_false_iff.mp h.noDo (hDo.of_behind (by decide))
  · intro delimiter hDelimiter
    have hDots : ∀ delimiter ∈ heredocDelimiters, '.' ∉ delimiter := by decide
    rw [suffix_behind_iff (hDots delimiter hDelimiter)]
    exact h.noHeredoc delimiter hDelimiter
  · rw [hCode]
    exact hFront.quiet.append (.cons (by decide) h.quiet) (by simp [IsApart]; decide)

theorem blockDelta_eq (h : IsPhrase commas text) : blockDelta text = (0, 0) :=
  blockDelta_of_quiet h.quiet

end IsPhrase

end PhoenixLens.Elixir
