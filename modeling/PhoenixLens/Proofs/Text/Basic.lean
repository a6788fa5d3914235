import Mathlib.Data.List.Basic
import Mathlib.Data.List.Induction
import PhoenixLens.Text.Basic

/-!
# Trimming, cutting and joining texts

What trimming does to a text with known ends, what cutting and splitting do to texts that were put
together, and which lines a text of terminated lines has.
-/

namespace PhoenixLens.Text

/-! ### Character classes -/

/-- What is said of the characters of a list is decided along the list, and not by going through
all characters. -/
instance (priority := high) decidableForallMem {p : Char → Prop} [DecidablePred p]
    (cs : List Char) : Decidable (∀ c ∈ cs, p c) := List.decidableBAll p cs

/-- The code points of the blank characters. -/
def blankCodes : List Nat :=
  [0x9, 0xA, 0xB, 0xC, 0xD, 0x20, 0x85, 0xA0, 0x1680, 0x2000, 0x2001, 0x2002, 0x2003, 0x2004,
    0x2005, 0x2006, 0x2007, 0x2008, 0x2009, 0x200A, 0x2028, 0x2029, 0x202F, 0x205F, 0x3000]

theorem mem_blankCodes_of_isBlank {c : Char} (h : isBlank c = true) : c.toNat ∈ blankCodes := by
  have hRanges : blankCodes = List.range' 0x9 5 ++ 0x20 :: 0x85 :: 0xA0 :: 0x1680 ::
      (List.range' 0x2000 11 ++ [0x2028, 0x2029, 0x202F, 0x205F, 0x3000]) := rfl
  simp only [isBlank, Bool.or_eq_true, beq_iff_eq, Bool.and_eq_true, decide_eq_true_eq] at h
  simp only [hRanges, List.mem_append, List.mem_cons, List.mem_range'_1, List.not_mem_nil, or_false]
  omega

/-- A class of characters that holds no white space. -/
theorem not_isBlank_of {p : Char → Bool} (hBlanks : ∀ n ∈ blankCodes, p (Char.ofNat n) = false)
    {c : Char} (h : p c = true) : isBlank c = false := by
  rw [← Bool.not_eq_true]
  intro hBlank
  have hNot := hBlanks _ (mem_blankCodes_of_isBlank hBlank)
  rw [Char.ofNat_toNat, h] at hNot
  cases hNot

theorem toNat_of_isAsciiAlphanumeric {c : Char} (h : isAsciiAlphanumeric c = true) :
    c.toNat < 0x80 := by
  have hEnds : 'z'.toNat = 122 ∧ 'Z'.toNat = 90 ∧ '9'.toNat = 57 := ⟨rfl, rfl, rfl⟩
  simp only [isAsciiAlphanumeric, isAsciiLetter, isAsciiLower, isAsciiUpper, isAsciiDigit,
    Bool.or_eq_true, Bool.and_eq_true, decide_eq_true_eq] at h
  rcases h with (hLower | hUpper) | hDigit
  · have hLe : c.toNat ≤ 'z'.toNat := hLower.2
    omega
  · have hLe : c.toNat ≤ 'Z'.toNat := hUpper.2
    omega
  · have hLe : c.toNat ≤ '9'.toNat := hDigit.2
    omega

/-- The ranges of codes between two blank characters, or behind all of them. The tables of letters
are long: a range is compared with these gaps, and not with every blank. -/
def liesBetweenBlanks (range : Nat × Nat) : Bool :=
  0x3000 < range.1 || (0xA0 < range.1 && range.2 < 0x1680) ||
    (0x1680 < range.1 && range.2 < 0x2000) || (0x200A < range.1 && range.2 < 0x2028) ||
    (0x202F < range.1 && range.2 < 0x205F) || (0x205F < range.1 && range.2 < 0x3000)

theorem not_isBlank_of_inRanges {ranges : List (Nat × Nat)}
    (hRanges : ranges.all liesBetweenBlanks = true) {c : Char}
    (h : inRanges ranges c.toNat = true) : isBlank c = false := by
  obtain ⟨range, hMem, hIn⟩ := List.any_eq_true.mp h
  have hGap := List.all_eq_true.mp hRanges range hMem
  simp only [Bool.and_eq_true, decide_eq_true_eq] at hIn
  simp only [liesBetweenBlanks, Bool.or_eq_true, Bool.and_eq_true, decide_eq_true_eq] at hGap
  simp only [isBlank, Bool.or_eq_false_iff, Bool.and_eq_false_iff, beq_eq_false_iff_ne,
    decide_eq_false_iff_not]
  omega

theorem not_isBlank_of_isLetterOrNumber {c : Char} (h : isLetterOrNumber c = true) :
    isBlank c = false := by
  rw [isLetterOrNumber] at h
  split at h
  · exact not_isBlank_of (p := isAsciiAlphanumeric) (by decide) h
  · exact not_isBlank_of_inRanges (by decide +kernel) h

theorem not_isBlank_of_isWord {c : Char} (h : isWord c = true) : isBlank c = false := by
  rw [isWord] at h
  split at h
  · exact not_isBlank_of (p := isAsciiWord) (by decide) h
  · exact not_isBlank_of_inRanges (by decide +kernel) h

theorem isBlank_indentation (n : Nat) : ∀ c ∈ List.replicate n ' ', isBlank c = true := by
  intro c hc
  rw [List.eq_of_mem_replicate hc]
  decide

theorem isLetterOrNumber_of_isAsciiAlphanumeric {c : Char} (h : isAsciiAlphanumeric c = true) :
    isLetterOrNumber c = true := by
  rw [isLetterOrNumber, if_pos (toNat_of_isAsciiAlphanumeric h)]
  exact h

theorem isWord_of_isAsciiWord {c : Char} (h : isAsciiWord c = true) : isWord c = true := by
  have hCode : c.toNat < 0x80 := by
    rw [isAsciiWord, Bool.or_eq_true, beq_iff_eq] at h
    rcases h with hLetter | rfl
    · exact toNat_of_isAsciiAlphanumeric hLetter
    · decide
  rw [isWord, if_pos hCode]
  exact h

theorem not_isAsciiUpper_of_startsIdentifier {c : Char} (h : startsIdentifier c = true) :
    isAsciiUpper c = false := by
  have hEnds : 'a'.toNat = 97 ∧ 'Z'.toNat = 90 := ⟨rfl, rfl⟩
  simp only [startsIdentifier, isAsciiLower, Bool.or_eq_true, Bool.and_eq_true,
    decide_eq_true_eq, beq_iff_eq] at h
  rcases h with hLower | rfl
  · have hFirst : 'a'.toNat ≤ c.toNat := hLower.1
    have hLast : ¬ c ≤ 'Z' := by
      intro hUpper
      have hCode : c.toNat ≤ 'Z'.toNat := hUpper
      omega
    simp [isAsciiUpper, hLast]
  · decide

/-! ### Beginnings and ends -/

theorem stripPrefix?_append (start : String) (cs : List Char) :
    stripPrefix? start (start.toList ++ cs) = some cs := by
  rw [stripPrefix?, List.isPrefixOf?_eq_some_iff_append_eq]

theorem stripSuffix?_append (ending : String) (cs : List Char) :
    stripSuffix? ending (cs ++ ending.toList) = some cs := by
  rw [stripSuffix?, List.isSuffixOf?_eq_some_iff_append_eq]

theorem stripPrefix?_eq_none {start : String} {c d : Char} {rest cs : List Char}
    (hStart : start.toList = c :: rest) (h : c ≠ d) : stripPrefix? start (d :: cs) = none := by
  have hHeads : (c == d) = false := by simpa using h
  simp [stripPrefix?, hStart, List.isPrefixOf?, hHeads]

theorem endsWith_iff {ending : String} {cs : List Char} :
    endsWith ending cs = true ↔ ∃ before, before ++ ending.toList = cs := by
  rw [endsWith, List.isSuffixOf_iff_suffix]
  rfl

theorem endsWith_eq_false {ending : String} {cs before : List Char} {c d : Char}
    (hEnding : ending.toList.getLast? = some c) (hLast : cs = before ++ [d]) (h : c ≠ d) :
    endsWith ending cs = false := by
  rw [← Bool.not_eq_true, endsWith_iff]
  rintro ⟨front, rfl⟩
  have hEnd := congrArg List.getLast? hLast
  rw [List.getLast?_append, hEnding, Option.some_or, List.getLast?_concat] at hEnd
  exact h (Option.some.inj hEnd)

/-! ### Runs of characters -/

section

variable {a b : List Char} {p : Char → Bool}

theorem takeWhile_append_of_stop (h : ∀ d ∈ a, p d = true)
    (hStop : ∀ d ∈ b.head?, p d = false) : (a ++ b).takeWhile p = a := by
  rw [List.takeWhile_append_of_pos h]
  cases b with
  | nil => exact List.append_nil a
  | cons d b =>
    rw [List.takeWhile_cons_of_neg (by simp [hStop d rfl]), List.append_nil]

theorem dropWhile_append_of_stop (h : ∀ d ∈ a, p d = true)
    (hStop : ∀ d ∈ b.head?, p d = false) : (a ++ b).dropWhile p = b := by
  rw [List.dropWhile_append_of_pos h]
  cases b with
  | nil => rfl
  | cons d b => rw [List.dropWhile_cons_of_neg (by simp [hStop d rfl])]

end

/-! ### Trimming -/

theorem dropEndWhile_concat_of_neg {p : Char → Bool} {c : Char} (h : p c = false)
    (cs : List Char) : dropEndWhile p (cs ++ [c]) = cs ++ [c] := by
  simp [dropEndWhile, h]

theorem dropEndWhile_append_of_pos {p : Char → Bool} {ending : List Char}
    (h : ∀ c ∈ ending, p c = true) (cs : List Char) :
    dropEndWhile p (cs ++ ending) = dropEndWhile p cs := by
  rw [dropEndWhile, List.reverse_append, List.dropWhile_append_of_pos, dropEndWhile]
  simpa using h

theorem dropEndWhile_cons_of_neg {p : Char → Bool} {c : Char} (h : p c = false) (cs : List Char) :
    dropEndWhile p (c :: cs) = c :: dropEndWhile p cs := by
  induction cs using List.reverseRecOn with
  | nil => exact dropEndWhile_concat_of_neg h []
  | append_singleton cs d ih =>
    cases hd : p d with
    | false =>
      rw [dropEndWhile_concat_of_neg hd, ← List.cons_append, dropEndWhile_concat_of_neg hd]
    | true =>
      have hEnding : ∀ e ∈ [d], p e = true := by simpa using hd
      rw [dropEndWhile_append_of_pos hEnding, ← List.cons_append,
        dropEndWhile_append_of_pos hEnding, ih]

theorem dropEndWhile_append_cons {p : Char → Bool} {c : Char} (h : p c = false)
    (front rest : List Char) :
    dropEndWhile p (front ++ c :: rest) = front ++ c :: dropEndWhile p rest := by
  rw [dropEndWhile, dropEndWhile, List.reverse_append, List.reverse_cons, List.append_assoc,
    List.dropWhile_append]
  split
  · rename_i hEmpty
    rw [List.isEmpty_iff.mp hEmpty, List.singleton_append,
      List.dropWhile_cons_of_neg (by simp [h])]
    simp
  · simp

/-- What is dropped from the end satisfies the condition. -/
theorem exists_dropEndWhile_append (p : Char → Bool) (cs : List Char) :
    ∃ ending, (∀ c ∈ ending, p c = true) ∧ cs = dropEndWhile p cs ++ ending := by
  refine ⟨(cs.reverse.takeWhile p).reverse, ?_, ?_⟩
  · intro c hc
    exact List.all_eq_true.mp List.all_takeWhile c (List.mem_reverse.mp hc)
  · rw [dropEndWhile, ← List.reverse_append, List.takeWhile_append_dropWhile, List.reverse_reverse]

theorem trim_cons {c : Char} (h : isBlank c = false) (cs : List Char) :
    trim (c :: cs) = c :: trimEnd cs := by
  rw [trim, trimStart, List.dropWhile_cons_of_neg (by simp [h]), trimEnd,
    dropEndWhile_cons_of_neg h, trimEnd]

/-- The text begins and ends with characters that are not blank. -/
structure IsTrimmed (cs : List Char) : Prop where
  first : ∃ c rest, cs = c :: rest ∧ isBlank c = false
  last : ∃ before c, cs = before ++ [c] ∧ isBlank c = false

namespace IsTrimmed

variable {cs : List Char}

theorem ne_nil (h : IsTrimmed cs) : cs ≠ [] := by
  obtain ⟨c, rest, rfl, _⟩ := h.first
  exact List.cons_ne_nil c rest

theorem trimStart_eq (h : IsTrimmed cs) : trimStart cs = cs := by
  obtain ⟨c, rest, rfl, hBlank⟩ := h.first
  rw [trimStart, List.dropWhile_cons_of_neg (by simp [hBlank])]

theorem trimEnd_eq (h : IsTrimmed cs) : trimEnd cs = cs := by
  obtain ⟨before, c, rfl, hBlank⟩ := h.last
  exact dropEndWhile_concat_of_neg hBlank before

theorem trim_eq (h : IsTrimmed cs) : trim cs = cs := by
  rw [trim, h.trimStart_eq, h.trimEnd_eq]

theorem trimStart_append (h : IsTrimmed cs) {blanks : List Char}
    (hBlanks : ∀ c ∈ blanks, isBlank c = true) : trimStart (blanks ++ cs) = cs := by
  rw [trimStart, List.dropWhile_append_of_pos hBlanks]
  exact h.trimStart_eq

theorem trim_append (h : IsTrimmed cs) {blanks : List Char}
    (hBlanks : ∀ c ∈ blanks, isBlank c = true) : trim (blanks ++ cs) = cs := by
  rw [trim, h.trimStart_append hBlanks, h.trimEnd_eq]

theorem trim_indented (h : IsTrimmed cs) (n : Nat) : trim (List.replicate n ' ' ++ cs) = cs :=
  h.trim_append (isBlank_indentation n)

theorem singleton {c : Char} (h : isBlank c = false) : IsTrimmed [c] :=
  ⟨⟨c, [], rfl, h⟩, ⟨[], c, rfl, h⟩⟩

theorem append (h : IsTrimmed cs) (middle : List Char) {other : List Char}
    (hOther : IsTrimmed other) :
    IsTrimmed (cs ++ middle ++ other) := by
  obtain ⟨c, rest, rfl, hFirst⟩ := h.first
  obtain ⟨before, d, rfl, hLast⟩ := hOther.last
  refine ⟨⟨c, rest ++ middle ++ (before ++ [d]), ?_, hFirst⟩,
    ⟨c :: rest ++ middle ++ before, d, ?_, hLast⟩⟩
  · simp
  · simp

theorem of_all (hNe : cs ≠ []) (h : ∀ c ∈ cs, isBlank c = false) : IsTrimmed cs := by
  refine ⟨?_, ?_⟩
  · obtain ⟨c, rest, rfl⟩ := List.exists_cons_of_ne_nil hNe
    exact ⟨c, rest, rfl, h c List.mem_cons_self⟩
  · refine ⟨cs.dropLast, cs.getLast hNe, (List.dropLast_concat_getLast hNe).symm, ?_⟩
    exact h _ (List.getLast_mem hNe)

theorem iff : IsTrimmed cs ↔
    cs.head?.any (!isBlank ·) = true ∧ cs.getLast?.any (!isBlank ·) = true := by
  constructor
  · rintro ⟨⟨c, rest, rfl, hFirst⟩, before, d, hLast, hBlank⟩
    refine ⟨by simp [hFirst], ?_⟩
    rw [hLast, List.getLast?_concat]
    simp [hBlank]
  · rintro ⟨hFirst, hLast⟩
    obtain ⟨c, hHead, hBlank⟩ := (Option.any_eq_true _ _).mp hFirst
    obtain ⟨d, hEnd, hLastBlank⟩ := (Option.any_eq_true _ _).mp hLast
    obtain ⟨rest, rfl⟩ := List.head?_eq_some_iff.mp hHead
    obtain ⟨before, hBefore⟩ := List.getLast?_eq_some_iff.mp hEnd
    exact ⟨⟨c, rest, rfl, by simpa using hBlank⟩, before, d, hBefore, by simpa using hLastBlank⟩

end IsTrimmed

instance (cs : List Char) : Decidable (IsTrimmed cs) := decidable_of_iff _ IsTrimmed.iff.symm

/-! ### Cutting and splitting -/

theorem append_of_cutAt? {piece cs before after : List Char}
    (h : cutAt? piece cs = some (before, after)) : before ++ piece ++ after = cs := by
  induction cs generalizing before with
  | nil =>
    rw [cutAt?] at h
    split at h
    · rename_i hEmpty
      cases h
      rw [List.isEmpty_iff.mp hEmpty]
      rfl
    · cases h
  | cons c cs ih =>
    rw [cutAt?] at h
    cases hPrefix : piece.isPrefixOf? (c :: cs) with
    | some rest =>
      rw [hPrefix] at h
      cases h
      exact List.isPrefixOf?_eq_some_iff_append_eq.mp hPrefix
    | none =>
      rw [hPrefix] at h
      obtain ⟨⟨front, rest⟩, hCut, hPair⟩ := Option.map_eq_some_iff.mp h
      cases hPair
      rw [List.cons_append, List.cons_append, ih hCut]

/-- A piece of the text is found. -/
theorem cutAt?_append_ne_none (piece front rest : List Char) :
    cutAt? piece (front ++ (piece ++ rest)) ≠ none := by
  induction front with
  | nil =>
    have hPrefix : piece.isPrefixOf? (piece ++ rest) = some rest :=
      List.isPrefixOf?_eq_some_iff_append_eq.mpr rfl
    rw [List.nil_append]
    cases hWhole : piece ++ rest with
    | nil =>
      rw [(List.append_eq_nil_iff.mp hWhole).1]
      exact nofun
    | cons c cs =>
      rw [hWhole] at hPrefix
      rw [cutAt?, hPrefix]
      exact nofun
  | cons c front ih =>
    rw [List.cons_append, cutAt?]
    split
    · exact nofun
    · rw [Ne, Option.map_eq_none_iff]
      exact ih

/-- The cut is made where the piece stands first. -/
theorem length_le_of_cutAt? {piece front rest before after : List Char}
    (h : cutAt? piece (front ++ (piece ++ rest)) = some (before, after)) :
    before.length ≤ front.length := by
  induction front generalizing before with
  | nil =>
    have hPrefix : piece.isPrefixOf? (piece ++ rest) = some rest :=
      List.isPrefixOf?_eq_some_iff_append_eq.mpr rfl
    rw [List.nil_append] at h
    cases hWhole : piece ++ rest with
    | nil =>
      rw [hWhole, (List.append_eq_nil_iff.mp hWhole).1] at h
      cases h
      exact Nat.le_refl 0
    | cons c cs =>
      rw [hWhole] at hPrefix
      rw [hWhole, cutAt?, hPrefix] at h
      cases h
      exact Nat.le_refl 0
  | cons c front ih =>
    rw [List.cons_append, cutAt?] at h
    split at h
    · cases h
      exact Nat.zero_le _
    · obtain ⟨⟨other, behind⟩, hCut, hPair⟩ := Option.map_eq_some_iff.mp h
      cases hPair
      exact Nat.succ_le_succ (ih hCut)

theorem cutAt?_singleton_append {c : Char} {before : List Char} (h : c ∉ before)
    (after : List Char) : cutAt? [c] (before ++ c :: after) = some (before, after) := by
  induction before with
  | nil => simp [cutAt?, List.isPrefixOf?]
  | cons d before ih =>
    have hHead : (c == d) = false := by simpa using List.ne_of_not_mem_cons h
    rw [List.cons_append, cutAt?]
    simp only [List.isPrefixOf?, hHead, ih (List.not_mem_of_not_mem_cons h)]
    rfl

theorem cutAt?_singleton_eq_none {c : Char} {cs : List Char} (h : c ∉ cs) :
    cutAt? [c] cs = none := by
  induction cs with
  | nil => rfl
  | cons d cs ih =>
    have hHead : (c == d) = false := by simpa using List.ne_of_not_mem_cons h
    rw [cutAt?]
    simp only [List.isPrefixOf?, hHead, ih (List.not_mem_of_not_mem_cons h)]
    rfl

theorem replaceAll_of_not_mem {c : Char} {rest cs : List Char} (h : c ∉ cs)
    (replacement : List Char) : replaceAll (c :: rest) replacement 0 cs = cs := by
  induction cs with
  | nil => rfl
  | cons d cs ih =>
    have hHead : (c == d) = false := by simpa using List.ne_of_not_mem_cons h
    rw [replaceAll]
    simp only [List.isPrefixOf, hHead, ih (List.not_mem_of_not_mem_cons h)]
    rfl

theorem join_cons (separator piece : List Char) {pieces : List (List Char)} (h : pieces ≠ []) :
    join separator (piece :: pieces) = piece ++ separator ++ join separator pieces := by
  obtain ⟨next, rest, rfl⟩ := List.exists_cons_of_ne_nil h
  simp [join]

theorem join_singleton (separator piece : List Char) : join separator [piece] = piece := by
  simp [join]

theorem mem_join {separator : List Char} {pieces : List (List Char)} {c : Char}
    (h : c ∈ join separator pieces) : c ∈ separator ∨ ∃ piece ∈ pieces, c ∈ piece := by
  induction pieces with
  | nil => cases h
  | cons piece pieces ih =>
    cases pieces with
    | nil =>
      rw [join_singleton] at h
      exact .inr ⟨piece, List.mem_cons_self, h⟩
    | cons next pieces =>
      rw [join_cons _ _ (List.cons_ne_nil _ _), List.append_assoc, List.mem_append,
        List.mem_append] at h
      rcases h with hOwn | hGap | hRest
      · exact .inr ⟨piece, List.mem_cons_self, hOwn⟩
      · exact .inl hGap
      · rcases ih hRest with hGap | ⟨other, hOther, hMem⟩
        · exact .inl hGap
        · exact .inr ⟨other, List.mem_cons_of_mem _ hOther, hMem⟩

theorem mem_join_of_mem {separator piece : List Char} {pieces : List (List Char)}
    (h : piece ∈ pieces) {c : Char} (hc : c ∈ piece) : c ∈ join separator pieces := by
  induction pieces with
  | nil => cases h
  | cons first pieces ih =>
    cases pieces with
    | nil =>
      rw [List.mem_singleton.mp h] at hc
      rwa [join_singleton]
    | cons next pieces =>
      rw [join_cons _ _ (List.cons_ne_nil _ _)]
      rcases List.mem_cons.mp h with rfl | hRest
      · exact List.mem_append_left _ (List.mem_append_left _ hc)
      · exact List.mem_append_right _ (ih hRest)

theorem splitAt_ne_nil (separator : Char) (cs : List Char) : splitAt separator cs ≠ [] := by
  cases cs with
  | nil => exact List.cons_ne_nil _ _
  | cons c cs =>
    rw [splitAt]
    split
    · exact List.cons_ne_nil _ _
    · split <;> exact List.cons_ne_nil _ _

theorem splitAt_append_cons (separator : Char) (cs rest : List Char) :
    splitAt separator (cs ++ separator :: rest) =
      splitAt separator cs ++ splitAt separator rest := by
  induction cs with
  | nil => simp [splitAt]
  | cons c cs ih =>
    rw [List.cons_append, splitAt, splitAt, ih]
    split
    · rfl
    · obtain ⟨piece, pieces, hPieces⟩ :=
        List.exists_cons_of_ne_nil (splitAt_ne_nil separator cs)
      simp [hPieces]

theorem not_mem_of_mem_splitAt {separator : Char} {cs piece : List Char}
    (h : piece ∈ splitAt separator cs) : separator ∉ piece := by
  induction cs generalizing piece with
  | nil =>
    rw [splitAt, List.mem_singleton] at h
    rw [h]
    exact List.not_mem_nil
  | cons c cs ih =>
    rw [splitAt] at h
    split at h
    · rcases List.mem_cons.mp h with rfl | hRest
      · exact List.not_mem_nil
      · exact ih hRest
    · rename_i hOther
      have hNe : separator ≠ c := fun hSame => hOther (by rw [hSame, BEq.rfl])
      split at h
      · rename_i hNil
        exact absurd hNil (splitAt_ne_nil _ _)
      · rename_i first rest hSplit
        rcases List.mem_cons.mp h with rfl | hRest
        · rw [List.mem_cons, not_or]
          exact ⟨hNe, ih (hSplit ▸ List.mem_cons_self)⟩
        · exact ih (hSplit ▸ List.mem_cons_of_mem _ hRest)

/-- The pieces of a text make up the text. -/
theorem join_splitAt (separator : Char) (cs : List Char) :
    join [separator] (splitAt separator cs) = cs := by
  induction cs with
  | nil => rfl
  | cons c cs ih =>
    rw [splitAt]
    split
    · rename_i hSeparator
      rw [join_cons _ _ (splitAt_ne_nil separator cs), ih, beq_iff_eq.mp hSeparator]
      rfl
    · split
      · rename_i hNone
        exact absurd hNone (splitAt_ne_nil separator cs)
      · rename_i piece pieces hPieces
        rw [hPieces] at ih
        rw [← ih]
        cases pieces with
        | nil => rw [join_singleton, join_singleton]
        | cons next pieces =>
          rw [join_cons _ _ (List.cons_ne_nil _ _), join_cons _ _ (List.cons_ne_nil _ _)]
          rfl

/-- The characters of the pieces are those of the text. -/
theorem mem_of_mem_splitAt {separator : Char} {cs piece : List Char}
    (h : piece ∈ splitAt separator cs) {c : Char} (hc : c ∈ piece) : c ∈ cs := by
  rw [← join_splitAt separator cs]
  exact mem_join_of_mem h hc

theorem splitAt_of_not_mem {separator : Char} {cs : List Char} (h : separator ∉ cs) :
    splitAt separator cs = [cs] := by
  induction cs with
  | nil => rfl
  | cons c cs ih =>
    have hHead : (c == separator) = false := by simpa using (List.ne_of_not_mem_cons h).symm
    rw [splitAt, hHead, ih (List.not_mem_of_not_mem_cons h)]
    rfl

theorem splitAt_append {separator : Char} {cs : List Char} (h : separator ∉ cs) (rest : List Char) :
    splitAt separator (cs ++ separator :: rest) = cs :: splitAt separator rest := by
  induction cs with
  | nil => simp [splitAt]
  | cons c cs ih =>
    have hHead : (c == separator) = false := by simpa using (List.ne_of_not_mem_cons h).symm
    rw [List.cons_append, splitAt, hHead, ih (List.not_mem_of_not_mem_cons h)]
    rfl

theorem join_append (separator : List Char) {pieces more : List (List Char)} (h : pieces ≠ [])
    (hMore : more ≠ []) :
    join separator (pieces ++ more) = join separator pieces ++ separator ++ join separator more := by
  induction pieces with
  | nil => exact absurd rfl h
  | cons first pieces ih =>
    cases pieces with
    | nil => rw [List.singleton_append, join_cons _ _ hMore, join_singleton]
    | cons next pieces =>
      rw [List.cons_append, join_cons _ _ (by simp), ih (List.cons_ne_nil _ _),
        join_cons _ _ (List.cons_ne_nil _ _)]
      simp

theorem join_concat (separator : List Char) {pieces : List (List Char)} (h : pieces ≠ [])
    (piece : List Char) :
    join separator (pieces ++ [piece]) = join separator pieces ++ separator ++ piece := by
  rw [join_append _ h (List.cons_ne_nil _ _), join_singleton]

theorem splitAt_join {separator : Char} {pieces : List (List Char)} (hNe : pieces ≠ [])
    (h : ∀ piece ∈ pieces, separator ∉ piece) :
    splitAt separator (join [separator] pieces) = pieces := by
  induction pieces with
  | nil => exact absurd rfl hNe
  | cons first pieces ih =>
    have hFirst := h first List.mem_cons_self
    cases pieces with
    | nil => rw [join_singleton, splitAt_of_not_mem hFirst]
    | cons next pieces =>
      rw [join_cons _ _ (List.cons_ne_nil _ _), List.append_assoc, List.singleton_append,
        splitAt_append hFirst,
        ih (List.cons_ne_nil _ _) fun p hp => h p (List.mem_cons_of_mem _ hp)]

/-! ### Words -/

theorem words_cons_blank {c : Char} (h : isBlank c = true) (cs : List Char) :
    words (c :: cs) = words cs := by
  simp [words, h]

theorem words_cons_cons {c d : Char} (hc : isBlank c = false) (hd : isBlank d = false)
    (cs : List Char) :
    ∃ word found, words (d :: cs) = word :: found ∧ words (c :: d :: cs) = (c :: word) :: found := by
  simp only [words, List.foldr_cons, hc, hd, if_neg Bool.false_ne_true]
  exact ⟨_, _, rfl, rfl⟩

theorem words_word {word : List Char} (hNe : word ≠ []) (h : ∀ c ∈ word, isBlank c = false)
    {rest : List Char} (hRest : ∀ c ∈ rest.head?, isBlank c = true) :
    words (word ++ rest) = word :: words rest := by
  induction word with
  | nil => exact absurd rfl hNe
  | cons c word ih =>
    obtain ⟨hc, hWord⟩ := List.forall_mem_cons.mp h
    cases word with
    | nil =>
      cases rest with
      | nil => simp [words, hc]
      | cons d rest => simp [words, hc, hRest d rfl]
    | cons d word =>
      have hd := hWord d List.mem_cons_self
      obtain ⟨first, found, hFirst, hBoth⟩ := words_cons_cons hc hd (word ++ rest)
      have hOwn := (ih (List.cons_ne_nil _ _) hWord).symm.trans hFirst
      rw [List.cons.injEq] at hOwn
      rw [List.cons_append, List.cons_append, hBoth, ← hOwn.1, ← hOwn.2]

theorem words_join {pieces : List (List Char)}
    (h : ∀ piece ∈ pieces, piece ≠ [] ∧ ∀ c ∈ piece, isBlank c = false) :
    words (join [' '] pieces) = pieces := by
  induction pieces with
  | nil => rfl
  | cons first pieces ih =>
    obtain ⟨⟨hNe, hFirst⟩, hRest⟩ := List.forall_mem_cons.mp h
    have hBlank : isBlank ' ' = true := by decide
    cases pieces with
    | nil =>
      have hOne := words_word hNe hFirst (show ∀ c ∈ ([] : List Char).head?, _ from nofun)
      rw [List.append_nil] at hOne
      rw [join_singleton, hOne]
      rfl
    | cons next pieces =>
      rw [join_cons _ _ (List.cons_ne_nil _ _), List.append_assoc, List.singleton_append,
        words_word hNe hFirst (by simpa using hBlank), words_cons_blank hBlank, ih hRest]

/-! ### Lines -/

theorem closeLine_reverse {line : List Char} (h : line.getLast? ≠ some '\r') :
    closeLine line.reverse = line := by
  cases hReverse : line.reverse with
  | nil => rw [List.reverse_eq_nil_iff.mp hReverse]; rfl
  | cons c rest =>
    have hLine : line = rest.reverse ++ [c] := by
      rw [← List.reverse_cons, ← hReverse, List.reverse_reverse]
    have hLast : c ≠ '\r' := by
      rintro rfl
      exact h (by rw [hLine, List.getLast?_concat])
    rw [closeLine.eq_2 _ (by rintro _ hEq; exact hLast (List.cons.inj hEq).1), List.reverse_cons,
      ← hLine]

theorem not_mem_closeLine {acc : List Char} (h : '\n' ∉ acc) : '\n' ∉ closeLine acc := by
  rw [closeLine.eq_def]
  split
  · exact fun hMem => h (List.mem_cons_of_mem _ (List.mem_reverse.mp hMem))
  · exact fun hMem => h (List.mem_reverse.mp hMem)

theorem not_mem_lines_go {acc cs line : List Char} (hAcc : '\n' ∉ acc)
    (h : line ∈ lines.go acc cs) : '\n' ∉ line := by
  induction cs generalizing acc with
  | nil =>
    rw [lines.go] at h
    split at h
    · cases h
    · rw [List.mem_singleton.mp h]
      exact fun hMem => hAcc (List.mem_reverse.mp hMem)
  | cons c cs ih =>
    by_cases hBreak : c = '\n'
    · subst hBreak
      rw [lines.go] at h
      rcases List.mem_cons.mp h with rfl | hRest
      · exact not_mem_closeLine hAcc
      · exact ih List.not_mem_nil hRest
    · rw [lines.go.eq_3 _ _ _ hBreak] at h
      refine ih ?_ h
      rw [List.mem_cons, not_or]
      exact ⟨fun hEq => hBreak hEq.symm, hAcc⟩

/-- Lines hold no line feeds. -/
theorem not_mem_of_mem_lines {cs line : List Char} (h : line ∈ lines cs) : '\n' ∉ line :=
  not_mem_lines_go List.not_mem_nil h

theorem lines_go_append {line : List Char} (h : '\n' ∉ line) (seen rest : List Char) :
    lines.go seen (line ++ rest) = lines.go (line.reverse ++ seen) rest := by
  induction line generalizing seen with
  | nil => rfl
  | cons c line ih =>
    have hHead : c ≠ '\n' := by
      rintro rfl
      exact h List.mem_cons_self
    rw [List.cons_append, lines.go.eq_3 _ _ _ hHead, ih (List.not_mem_of_not_mem_cons h)]
    simp

theorem lines_terminated {texts : List (List Char)}
    (h : ∀ line ∈ texts, '\n' ∉ line ∧ line.getLast? ≠ some '\r') :
    lines (texts.flatMap (· ++ ['\n'])) = texts := by
  rw [lines]
  induction texts with
  | nil => rfl
  | cons line texts ih =>
    obtain ⟨hBreak, hReturn⟩ := h line List.mem_cons_self
    rw [List.flatMap_cons, List.append_assoc, lines_go_append hBreak, List.append_nil,
      List.singleton_append, lines.go, closeLine_reverse hReturn,
      ih fun other hOther => h other (List.mem_cons_of_mem _ hOther)]

end PhoenixLens.Text
