import PhoenixLens.Elixir.LogicalLine
import PhoenixLens.Proofs.Text.Basic

/-!
# Reading code from left to right

The readers of code go through a line once. A piece of text is described by what it does to them
whatever follows, so that a line is read by reading its pieces one after the other.
-/

namespace PhoenixLens.Elixir

/-! ### Characters -/

/-- The character neither begins a string nor a comment. -/
def isPlain (c : Char) : Bool := !isQuote c && c != '#'

theorem isPlain_of_continuesWord {c : Char} (h : continuesWord c = true) : isPlain c = true := by
  rw [isPlain, isQuote]
  simp only [Bool.and_eq_true, Bool.not_eq_true', Bool.or_eq_false_iff, beq_eq_false_iff_ne,
    bne_iff_ne]
  refine ⟨⟨?_, ?_⟩, ?_⟩
  all_goals
    rintro rfl
    revert h
    decide

theorem continuesWord_of_startsWord {c : Char} (h : startsWord c = true) :
    continuesWord c = true := by
  simp [continuesWord, h]

theorem not_startsWord_of_not_continuesWord {c : Char} (h : continuesWord c = false) :
    startsWord c = false := by
  simp only [continuesWord, Bool.or_eq_false_iff] at h
  exact h.1.1

theorem startsWord_of_isAsciiWord {c : Char} (h : Text.isAsciiWord c = true) :
    startsWord c = true := by
  rw [Text.isAsciiWord, Bool.or_eq_true] at h
  rw [startsWord]
  rcases h with hLetter | hUnderscore
  · rw [Text.isLetterOrNumber_of_isAsciiAlphanumeric hLetter, Bool.true_or]
  · rw [hUnderscore, Bool.or_true]

theorem continuesWord_of_isAsciiWord {c : Char} (h : Text.isAsciiWord c = true) :
    continuesWord c = true := continuesWord_of_startsWord (startsWord_of_isAsciiWord h)

theorem isAsciiWord_of_startsIdentifier {c : Char} (h : Text.startsIdentifier c = true) :
    Text.isAsciiWord c = true := by
  rw [Text.startsIdentifier, Bool.or_eq_true] at h
  rcases h with hLower | hUnderscore
  · simp [Text.isAsciiWord, Text.isAsciiAlphanumeric, Text.isAsciiLetter, hLower]
  · simp [Text.isAsciiWord, hUnderscore]

theorem not_isBlank_of_continuesWord {c : Char} (h : continuesWord c = true) :
    Text.isBlank c = false := by
  simp only [continuesWord, startsWord, Bool.or_eq_true, beq_iff_eq] at h
  rcases h with ((hLetter | rfl) | rfl) | rfl
  · exact Text.not_isBlank_of_isLetterOrNumber hLetter
  all_goals decide

/-- A word as it may stand in code. -/
structure IsWordRun (word : List Char) : Prop where
  first : ∃ c rest, word = c :: rest ∧ startsWord c = true
  all : ∀ c ∈ word, continuesWord c = true

namespace IsWordRun

variable {word : List Char}

theorem ne_nil (h : IsWordRun word) : word ≠ [] := by
  obtain ⟨c, rest, rfl, _⟩ := h.first
  exact List.cons_ne_nil c rest

theorem isTrimmed (h : IsWordRun word) : Text.IsTrimmed word :=
  .of_all h.ne_nil fun c hc => not_isBlank_of_continuesWord (h.all c hc)

/-- The blanks before a word are what is trimmed. -/
theorem trimStart_append (h : IsWordRun word) {blanks : List Char}
    (hBlanks : ∀ c ∈ blanks, Text.isBlank c = true) (tail : List Char) :
    Text.trimStart (blanks ++ (word ++ tail)) = word ++ tail := by
  obtain ⟨c, rest, rfl, hStart⟩ := h.first
  have hBlank := not_isBlank_of_continuesWord (continuesWord_of_startsWord hStart)
  rw [Text.trimStart, List.dropWhile_append_of_pos hBlanks, List.cons_append,
    List.dropWhile_cons_of_neg (by simp [hBlank])]

theorem not_mem (h : IsWordRun word) {c : Char} (hc : continuesWord c = false) : c ∉ word := by
  intro hMem
  rw [h.all c hMem] at hc
  cases hc

end IsWordRun

theorem withMark_cons_of_ne {c : Char} (hQuestion : c ≠ '?') (hExclamation : c ≠ '!')
    (name rest : List Char) : withMark name (c :: rest) = name := by
  rw [withMark]
  · intro tail hEq
    exact hQuestion (List.cons.inj hEq).1
  · intro tail hEq
    exact hExclamation (List.cons.inj hEq).1

/-! ### Strings and comments -/

theorem codeOf_go_append {text : List Char} (h : ∀ c ∈ text, isPlain c = true)
    (rest : List Char) : codeOf.go .code (text ++ rest) = text ++ codeOf.go .code rest := by
  induction text with
  | nil => rfl
  | cons c text ih =>
    have hPlain := h c List.mem_cons_self
    simp only [isPlain, Bool.and_eq_true, Bool.not_eq_true', bne_iff_ne] at hPlain
    rw [List.cons_append, codeOf.go, if_neg (by simpa using hPlain.2), Quoting.step,
      if_neg (by simp [hPlain.1]), ih fun d hd => h d (List.mem_cons_of_mem _ hd), List.cons_append]

theorem codeOf_go_quoted {text : List Char} (h : ∀ c ∈ text, c ≠ '"' ∧ c ≠ '\\')
    (rest : List Char) :
    codeOf.go (.quoted '"' false) (text ++ '"' :: rest) = '"' :: codeOf.go .code rest := by
  induction text with
  | nil => simp [codeOf.go, Quoting.step, Quoting.isCode]
  | cons c text ih =>
    obtain ⟨hQuote, hEscape⟩ := h c List.mem_cons_self
    have hStep : (Quoting.quoted '"' false).step c = .quoted '"' false := by
      simp [Quoting.step, hQuote, hEscape]
    simp only [List.cons_append, codeOf.go, hStep, Quoting.isCode]
    exact ih fun d hd => h d (List.mem_cons_of_mem _ hd)

theorem codeOf_go_string {text : List Char} (h : ∀ c ∈ text, c ≠ '"' ∧ c ≠ '\\')
    (rest : List Char) :
    codeOf.go .code ('"' :: text ++ '"' :: rest) = '"' :: '"' :: codeOf.go .code rest := by
  rw [List.cons_append, codeOf.go, if_neg (by decide)]
  exact congrArg _ (codeOf_go_quoted h rest)

/-! ### Brackets -/

theorem bracketDepth_append (a b : List Char) :
    bracketDepth (a ++ b) = bracketDepth a + bracketDepth b := by
  induction a with
  | nil => simp [bracketDepth]
  | cons c a ih =>
    rw [List.cons_append, bracketDepth, bracketDepth, ih]
    omega

theorem bracketStep_of_continuesWord {c : Char} (h : continuesWord c = true) :
    bracketStep c = 0 := by
  have hNot : ∀ d, continuesWord d = false → c ≠ d := by
    rintro d hd rfl
    rw [h] at hd
    cases hd
  simp [bracketStep, isOpening, isClosing, hNot '(' (by decide), hNot '[' (by decide),
    hNot '{' (by decide), hNot ')' (by decide), hNot ']' (by decide), hNot '}' (by decide)]

theorem bracketDepth_of_all {text : List Char} (h : ∀ c ∈ text, bracketStep c = 0) :
    bracketDepth text = 0 := by
  induction text with
  | nil => rfl
  | cons c text ih =>
    rw [bracketDepth, h c List.mem_cons_self, ih fun d hd => h d (List.mem_cons_of_mem _ hd)]
    rfl

/-! ### Words -/

/-- What cannot be taken for a part of a word before it. -/
def IsApart (rest : List Char) : Prop := ∀ c ∈ rest.head?, continuesWord c = false

theorem words_go_cons {c : Char} (h : startsWord c = false) (previous : Option Char)
    (rest : List Char) : words.go previous none (c :: rest) = words.go (some c) none rest := by
  simp [words.go, h]

theorem words_go_unfinished {word : List Char} (h : ∀ c ∈ word, continuesWord c = true)
    {rest : List Char} (hRest : IsApart rest) (previous before : Option Char) (seen : List Char) :
    words.go previous (some (before, seen)) (word ++ rest) =
      ⟨seen.reverse ++ word, before, rest.head?⟩ ::
        (match rest with
          | [] => []
          | c :: cs => words.go (some c) none cs) := by
  induction word generalizing previous seen with
  | nil =>
    cases rest with
    | nil => simp [words.go]
    | cons c cs => simp [words.go, hRest c rfl]
  | cons c word ih =>
    rw [List.cons_append, words.go, if_pos (h c List.mem_cons_self),
      ih fun d hd => h d (List.mem_cons_of_mem _ hd)]
    simp

/-- What follows a word does not depend on it. -/
theorem words_go_of_isApart {rest : List Char} (h : IsApart rest) (previous other : Option Char) :
    words.go previous none rest = words.go other none rest := by
  cases rest with
  | nil => rfl
  | cons c cs =>
    have hStart := not_startsWord_of_not_continuesWord (h c rfl)
    rw [words_go_cons hStart, words_go_cons hStart]

theorem words_go_append {word : List Char} (h : IsWordRun word) {rest : List Char}
    (hRest : IsApart rest) (previous : Option Char) :
    words.go previous none (word ++ rest) =
      ⟨word, previous, rest.head?⟩ :: words.go none none rest := by
  obtain ⟨c, tail, rfl, hStart⟩ := h.first
  rw [List.cons_append, words.go, if_pos hStart,
    words_go_unfinished (fun d hd => h.all d (List.mem_cons_of_mem _ hd)) hRest]
  cases rest with
  | nil => rfl
  | cons d rest =>
    rw [words_go_of_isApart hRest none (some d)]
    have hNot : startsWord d = false := by
      rw [← Bool.not_eq_true]
      intro hStart'
      have hApart := hRest d rfl
      rw [continuesWord_of_startsWord hStart'] at hApart
      cases hApart
    rw [words_go_cons hNot]
    rfl

/-! ### Keywords -/

/-- The keyword that a word may be. -/
def keywordOf (word : Word) : List Char :=
  if word.before == some ':' || word.before == some '.' || word.after == some ':' then []
  else word.text

/-- The word opens and closes no block. -/
def IsIdle (word : List Char) : Prop :=
  word ≠ ['d', 'o'] ∧ word ≠ ['f', 'n'] ∧ word ≠ ['e', 'n', 'd']

theorem isIdle_nil : IsIdle [] := ⟨nofun, nofun, nofun⟩

/-- Code that opens and closes no block, whatever stands around it. -/
def IsQuiet (code : List Char) : Prop :=
  ∀ previous rest, IsApart rest → ∃ found : List Word, (∀ w ∈ found, IsIdle (keywordOf w)) ∧
    words.go previous none (code ++ rest) = found ++ words.go none none rest

namespace IsQuiet

theorem nil : IsQuiet [] := by
  intro previous rest hRest
  exact ⟨[], nofun, words_go_of_isApart hRest previous none⟩

theorem cons {c : Char} (h : startsWord c = false) {code : List Char} (hCode : IsQuiet code) :
    IsQuiet (c :: code) := by
  intro previous rest hRest
  obtain ⟨found, hFound, hWords⟩ := hCode (some c) rest hRest
  exact ⟨found, hFound, by rw [List.cons_append, words_go_cons h, hWords]⟩

theorem word {word : List Char} (h : IsWordRun word) (hIdle : IsIdle word) : IsQuiet word := by
  intro previous rest hRest
  refine ⟨[⟨word, previous, rest.head?⟩], ?_, words_go_append h hRest previous⟩
  intro w hw
  rw [List.mem_singleton.mp hw, keywordOf]
  split
  · exact isIdle_nil
  · exact hIdle

theorem after {c : Char} (hc : c = ':' ∨ c = '.') {word : List Char} (h : IsWordRun word) :
    IsQuiet (c :: word) := by
  intro previous rest hRest
  have hStart : startsWord c = false := by rcases hc with rfl | rfl <;> decide
  refine ⟨[⟨word, some c, rest.head?⟩], ?_, ?_⟩
  · intro w hw
    have hKeyword : keywordOf w = [] := by
      rw [List.mem_singleton.mp hw, keywordOf]
      rcases hc with rfl | rfl <;> simp
    rw [hKeyword]
    exact isIdle_nil
  · rw [List.cons_append, words_go_cons hStart, words_go_append h hRest]
    rfl

theorem append {code more : List Char} (h : IsQuiet code) (hMore : IsQuiet more)
    (hApart : IsApart more) : IsQuiet (code ++ more) := by
  intro previous rest hRest
  have hBoth : IsApart (more ++ rest) := by
    cases more with
    | nil => exact hRest
    | cons c more => exact hApart
  obtain ⟨found, hFound, hWords⟩ := h previous (more ++ rest) hBoth
  obtain ⟨later, hLater, hMoreWords⟩ := hMore none rest hRest
  refine ⟨found ++ later, ?_, ?_⟩
  · intro w hw
    rcases List.mem_append.mp hw with hOld | hNew
    · exact hFound w hOld
    · exact hLater w hNew
  · rw [List.append_assoc, hWords, hMoreWords, List.append_assoc]

theorem of_all {code : List Char} (h : ∀ c ∈ code, startsWord c = false) : IsQuiet code := by
  induction code with
  | nil => exact nil
  | cons c code ih =>
    exact cons (h c List.mem_cons_self) (ih fun d hd => h d (List.mem_cons_of_mem _ hd))

end IsQuiet

theorem blockDelta_eq (text : List Char) :
    blockDelta text =
      (((words (codeOf text)).map keywordOf).count ['f', 'n'] +
        (((words (codeOf text)).map keywordOf).getLast? == some ['d', 'o'] &&
          Text.endsWith "do" (Text.trimEnd (codeOf text))).toNat,
        ((words (codeOf text)).map keywordOf).count ['e', 'n', 'd']) := rfl

theorem count_keywords_eq_zero {found : List Word} (h : ∀ w ∈ found, IsIdle (keywordOf w)) :
    (found.map keywordOf).count ['f', 'n'] = 0 ∧
      (found.map keywordOf).count ['e', 'n', 'd'] = 0 := by
  simp only [List.count_eq_zero, List.mem_map, not_exists, not_and]
  exact ⟨fun w hw => (h w hw).2.1, fun w hw => (h w hw).2.2⟩

theorem blockDelta_of_quiet {text : List Char} (h : IsQuiet (codeOf text)) :
    blockDelta text = (0, 0) := by
  obtain ⟨found, hFound, hWords⟩ := h none [] nofun
  rw [List.append_nil] at hWords
  have hAll : words (codeOf text) = found := by
    rw [words, hWords]
    simp [words.go]
  have hCount := count_keywords_eq_zero hFound
  have hLast : ((found.map keywordOf).getLast? == some ['d', 'o']) = false := by
    rw [beq_eq_false_iff_ne]
    intro hLast
    obtain ⟨w, hw, hKeyword⟩ := List.mem_map.mp (List.mem_of_getLast? hLast)
    exact (hFound w hw).1 hKeyword
  rw [blockDelta_eq, hAll, hCount.1, hCount.2, hLast]
  rfl

theorem blockDelta_of_opening {text code : List Char} (hText : codeOf text = code ++ " do".toList)
    (h : IsQuiet code) : blockDelta text = (1, 0) := by
  obtain ⟨found, hFound, hWords⟩ := h none " do".toList (by simp [IsApart]; decide)
  have hAll : words (codeOf text) = found ++ [⟨['d', 'o'], some ' ', none⟩] := by
    rw [words, hText, hWords]
    rfl
  have hCount := count_keywords_eq_zero hFound
  have hEnd : Text.endsWith "do" (Text.trimEnd (codeOf text)) = true := by
    have hForm : code ++ " do".toList = (code ++ " d".toList) ++ ['o'] := by simp
    rw [hText, hForm, Text.trimEnd, Text.dropEndWhile_concat_of_neg (by decide),
      Text.endsWith_iff]
    exact ⟨code ++ [' '], by simp⟩
  rw [blockDelta_eq, hEnd, hAll, List.map_append, List.count_append, List.count_append, hCount.1,
    hCount.2]
  simp [keywordOf]

theorem words_go_blanks (width : Nat) (rest : List Char) :
    words.go (some ' ') none (List.replicate width ' ' ++ rest) =
      words.go (some ' ') none rest := by
  induction width with
  | zero => rfl
  | succ width ih => rwa [List.replicate_succ, List.cons_append, words_go_cons (by decide)]

theorem blockDelta_of_end {text : List Char} {width : Nat}
    (hText : codeOf text = List.replicate width ' ' ++ "end".toList) :
    blockDelta text = (0, 1) := by
  rw [blockDelta_eq, hText, words]
  cases width with
  | zero => rfl
  | succ width =>
    have hWords : words.go none none (List.replicate (width + 1) ' ' ++ "end".toList) =
        [⟨"end".toList, some ' ', none⟩] := by
      rw [List.replicate_succ, List.cons_append, words_go_cons (by decide), words_go_blanks]
      rfl
    rw [hWords]
    rfl

end PhoenixLens.Elixir
