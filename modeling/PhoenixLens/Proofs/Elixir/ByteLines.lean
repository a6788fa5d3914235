import PhoenixLens.Elixir.LogicalLine
import PhoenixLens.Proofs.Elixir.Lexical
import PhoenixLens.Proofs.Markup.ByteLoops

/-!
# Source lines in place

A second account of how source falls into lines and words, in the terms of a reader that works in
place: lines and characters are looked up by their numbers, and texts are cut at byte offsets. What
such a reader gives is `none` where it looks behind an end, cuts where no character ends, or stands
still. It never does, and finds the lines and words that the others find.
-/

namespace PhoenixLens.Elixir.InPlace

open Markup.ByteScanner (from? from?_eq)
open Text (span? RestAt)

/-! ### Cuts -/

def before? (text : List Char) (stop : Nat) : Option (List Char) := span? text 0 stop

/-- A difference of two numbers that is one. -/
def minus? (a b : Nat) : Option Nat := if b ≤ a then some (a - b) else none

/-- A difference, or zero where there is none. -/
def atLeastZero (a b : Nat) : Option Nat := if b ≤ a then minus? a b else some 0

/-- The items from one index up to another. -/
def items? {α : Type} (xs : List α) (start stop : Nat) : Option (List α) :=
  if start ≤ stop && stop ≤ xs.length then some ((xs.take stop).drop start) else none

theorem before?_eq (front rest : List Char) :
    before? (front ++ rest) (Text.byteLength front) = some front := by
  have hSpan := (RestAt.self (front ++ rest)).standsAt.span?
  rwa [Nat.zero_add] at hSpan

example : from? ['あ'] 1 = none := by decide

theorem minus?_eq {a b : Nat} (h : b ≤ a) : minus? a b = some (a - b) := if_pos h

@[simp] theorem atLeastZero_eq (a b : Nat) : atLeastZero a b = some (a - b) := by
  rw [atLeastZero]
  split
  · rename_i hFits
    exact minus?_eq hFits
  · rename_i hOver
    rw [Nat.sub_eq_zero_of_le (Nat.le_of_not_le hOver)]

theorem items?_append {α : Type} (front middle rest : List α) :
    items? (front ++ (middle ++ rest)) front.length (front.length + middle.length) =
      some middle := by
  rw [items?, ← List.append_assoc, ← List.length_append, List.take_left, List.drop_left, if_pos]
  simp

theorem items?_behindFirst {α : Type} (first : α) (rest : List α) :
    items? (first :: rest) 1 (first :: rest).length = some rest := by
  simp [items?]

theorem mapM_some {α β : Type} {f : α → Option β} {g : α → β} (h : ∀ x, f x = some (g x))
    (xs : List α) : xs.mapM f = some (xs.map g) := by
  rw [funext h]
  exact List.mapM_pure

theorem getElem?_behind {α : Type} (front rest : List α) (a : α) :
    (front ++ a :: rest)[front.length]? = some a := by
  simp

/-! ### Words -/

/-- The index behind the word that goes on at the given one. -/
def wordEnd (cs : List Char) (i : Nat) : Option Nat :=
  if i < cs.length then do
    let c ← cs[i]?
    if continuesWord c then wordEnd cs (i + 1) else some i
  else some i
termination_by cs.length - i

def charBefore (cs : List Char) (i : Nat) : Option (Option Char) :=
  if 0 < i then (minus? i 1 >>= (cs[·]?)).map some else some none

def wordsFrom (cs : List Char) (i : Nat) : Option (List Word) :=
  if i < cs.length then do
    let c ← cs[i]?
    if startsWord c then do
      let stop ← wordEnd cs i
      if i < stop then do
        let before ← charBefore cs i
        let later ← wordsFrom cs stop
        return ⟨← items? cs i stop, before, cs[stop]?⟩ :: later
      else none
    else wordsFrom cs (i + 1)
  else some []
termination_by cs.length - i

theorem wordEnd_eq (front rest : List Char) :
    wordEnd (front ++ rest) front.length =
      some (front.length + (rest.takeWhile continuesWord).length) := by
  induction rest generalizing front with
  | nil =>
    rw [wordEnd, if_neg (by simp)]
    rfl
  | cons c rest ih =>
    rw [wordEnd, if_pos (by simp), getElem?_behind, Option.bind_eq_bind, Option.bind_some]
    split
    · rename_i hWord
      have hNext := ih (front ++ [c])
      rw [List.append_assoc, List.length_append] at hNext
      rw [List.takeWhile_cons_of_pos hWord]
      simpa [Nat.add_assoc, Nat.add_comm 1] using hNext
    · rename_i hWord
      rw [List.takeWhile_cons_of_neg hWord]
      rfl

theorem isApart_dropWhile (cs : List Char) : IsApart (cs.dropWhile continuesWord) := by
  intro d hd
  have hNot := List.head?_dropWhile_not continuesWord cs
  rw [hd] at hNot
  simpa using hNot

/-- A run of word characters that a text begins with is a word. -/
theorem words_go_takeWhile {c : Char} (hStart : startsWord c = true) (previous : Option Char)
    (cs : List Char) :
    words.go previous none (c :: cs) =
      ⟨(c :: cs).takeWhile continuesWord, previous, ((c :: cs).dropWhile continuesWord).head?⟩ ::
        words.go none none ((c :: cs).dropWhile continuesWord) := by
  have hRun : IsWordRun ((c :: cs).takeWhile continuesWord) := by
    refine ⟨⟨c, cs.takeWhile continuesWord, ?_, hStart⟩, List.all_eq_true.mp List.all_takeWhile⟩
    exact List.takeWhile_cons_of_pos (continuesWord_of_startsWord hStart)
  have hWords := words_go_append hRun (isApart_dropWhile (c :: cs)) previous
  rwa [List.takeWhile_append_dropWhile] at hWords

theorem charBefore_eq (front rest : List Char) :
    charBefore (front ++ rest) front.length = some front.getLast? := by
  rw [charBefore]
  rcases List.eq_nil_or_concat' front with rfl | ⟨front, last, rfl⟩
  · rfl
  · have hLength : (front ++ [last]).length = front.length + 1 := List.length_append
    rw [if_pos (by omega), minus?_eq (by omega), hLength, Nat.add_sub_cancel, List.append_assoc,
      List.getLast?_concat]
    exact congrArg (Option.map some) (getElem?_behind front rest last)

theorem wordsFrom_eq (front rest : List Char) :
    wordsFrom (front ++ rest) front.length = some (words.go front.getLast? none rest) := by
  induction hLength : rest.length using Nat.strongRecOn generalizing front rest with
  | _ n ih =>
    cases rest with
    | nil =>
      rw [wordsFrom, if_neg (by simp)]
      rfl
    | cons c rest =>
      rw [wordsFrom, if_pos (by simp), getElem?_behind, Option.bind_eq_bind, Option.bind_some]
      cases hStart : startsWord c with
      | false =>
        have hNext := ih rest.length (by rw [← hLength]; exact Nat.lt_succ_self _)
          (front ++ [c]) rest rfl
        rw [List.append_assoc, List.length_append, List.getLast?_concat] at hNext
        rw [if_neg Bool.false_ne_true, words_go_cons hStart]
        exact hNext
      | true =>
        obtain ⟨word, tail, hWord, hTail, hText, hPos⟩ : ∃ word tail,
            (c :: rest).takeWhile continuesWord = word ∧
            (c :: rest).dropWhile continuesWord = tail ∧ c :: rest = word ++ tail ∧
            0 < word.length := by
          refine ⟨_, _, rfl, rfl, List.takeWhile_append_dropWhile.symm, ?_⟩
          rw [List.takeWhile_cons_of_pos (continuesWord_of_startsWord hStart)]
          exact Nat.succ_pos _
        have hApart : IsApart tail := by
          rw [← hTail]
          exact isApart_dropWhile (c :: rest)
        have hShort : tail.length < n := by
          rw [← hLength, hText, List.length_append]
          omega
        have hLater := ih tail.length hShort (front ++ word) tail rfl
        rw [List.append_assoc, List.length_append, words_go_of_isApart hApart _ none] at hLater
        have hHead : (front ++ (word ++ tail))[front.length + word.length]? = tail.head? := by
          rw [← List.append_assoc, ← List.length_append, List.getElem?_append_right (Nat.le_refl _),
            Nat.sub_self, List.head?_eq_getElem?]
        rw [if_pos rfl, wordEnd_eq, words_go_takeWhile hStart, hWord, hTail, hText]
        simp only [Option.bind_some, Option.bind_eq_bind]
        rw [if_pos (by omega), charBefore_eq, hLater, items?_append, hHead]
        rfl

/-! ### Blocks -/

/-- The blocks that the words from the index `i` on open and close, beside those counted before. -/
def countBlocks (code : List Char) (size i opens closes : Nat) : List Word → Option (Nat × Nat)
  | [] => some (opens, closes)
  | word :: later =>
    if word.before == some ':' || word.before == some '.' || word.after == some ':' then
      countBlocks code size (i + 1) opens closes later
    else if word.text == ['f', 'n'] then countBlocks code size (i + 1) (opens + 1) closes later
    else if word.text == ['e', 'n', 'd'] then countBlocks code size (i + 1) opens (closes + 1) later
    else if word.text == ['d', 'o'] then do
      let last ← minus? size 1
      let opensBlock := i == last && Text.endsWith "do" (Text.trimEnd code)
      countBlocks code size (i + 1) (opens + opensBlock.toNat) closes later
    else countBlocks code size (i + 1) opens closes later

def blockCounts (text : List Char) : Option (Nat × Nat) := do
  let code := codeOf text
  let found ← wordsFrom code 0
  countBlocks code found.length 0 0 0 found

/-- The tracker behind a line. Closing more blocks than are open leaves none open. -/
def advance (tracker : BlockTracker) (text : List Char) : Option BlockTracker := do
  let opened := (tracker.opened? text).toList.map fun name => ⟨name, tracker.depth⟩
  let (opens, closes) ← blockCounts text
  let depth ← atLeastZero (tracker.depth + opens) closes
  return { depth, modules := (opened ++ tracker.modules).dropWhile fun m => depth ≤ m.outerDepth }

/-- The last keyword is that of the word with the last index. -/
theorem getLast?_keywords {i size : Nat} {word : Word} {later : List Word}
    (hSize : i + 1 + later.length = size) :
    (((word :: later).map keywordOf).getLast? == some ['d', 'o']) =
      ((i == size - 1 && keywordOf word == ['d', 'o']) ||
        (later.map keywordOf).getLast? == some ['d', 'o']) := by
  cases later with
  | nil =>
    have hHere : i = size - 1 := by simp at hSize; omega
    simp [hHere]
  | cons other later =>
    have hEarlier : (i == size - 1) = false := by simp at hSize ⊢; omega
    rw [hEarlier, Bool.false_and, Bool.false_or]
    rfl

theorem countBlocks_eq (code : List Char) (size i opens closes : Nat) (found : List Word)
    (hSize : i + found.length = size) :
    countBlocks code size i opens closes found =
      some (opens + ((found.map keywordOf).count ['f', 'n'] +
          ((found.map keywordOf).getLast? == some ['d', 'o'] &&
            Text.endsWith "do" (Text.trimEnd code)).toNat),
        closes + (found.map keywordOf).count ['e', 'n', 'd']) := by
  induction found generalizing i opens closes with
  | nil => rfl
  | cons word later ih =>
    have hNext : i + 1 + later.length = size := by
      rw [← hSize, List.length_cons]
      omega
    rw [getLast?_keywords hNext, List.map_cons, List.count_cons, List.count_cons, countBlocks]
    have hIdle (h : IsIdle (keywordOf word)) :
        (keywordOf word == ['d', 'o']) = false ∧ (keywordOf word == ['f', 'n']) = false ∧
          (keywordOf word == ['e', 'n', 'd']) = false :=
      ⟨beq_eq_false_iff_ne.mpr h.1, beq_eq_false_iff_ne.mpr h.2.1, beq_eq_false_iff_ne.mpr h.2.2⟩
    cases hBound : word.before == some ':' || word.before == some '.' || word.after == some ':' with
    | true =>
      have hKeyword : keywordOf word = [] := by rw [keywordOf, hBound]; rfl
      obtain ⟨hDo, hFn, hEnd⟩ := hIdle (by rw [hKeyword]; exact isIdle_nil)
      simp only [hDo, hFn, hEnd, if_true, Bool.and_false, Bool.false_or, if_neg Bool.false_ne_true]
      exact ih _ _ _ hNext
    | false =>
      have hKeyword : keywordOf word = word.text := by rw [keywordOf, hBound]; rfl
      rw [hKeyword] at hIdle ⊢
      rw [if_neg Bool.false_ne_true]
      by_cases hFn : word.text = ['f', 'n']
      · simp [hFn, ih _ _ _ hNext]
        omega
      · by_cases hEnd : word.text = ['e', 'n', 'd']
        · simp [hEnd, ih _ _ _ hNext]
          omega
        · by_cases hDo : word.text = ['d', 'o']
          · have hMinus : minus? size 1 = some (size - 1) := minus?_eq (by omega)
            by_cases hHere : i = size - 1
            · obtain rfl : later = [] := List.eq_nil_of_length_eq_zero (by omega)
              simp [hDo, hMinus, hHere, countBlocks]
            · have hEarlier : (i == size - 1) = false := beq_eq_false_iff_ne.mpr hHere
              simp [hDo, hMinus, hEarlier, ih _ _ _ hNext]
          · obtain ⟨hDo, hFn, hEnd⟩ := hIdle ⟨hDo, hFn, hEnd⟩
            simp [hDo, hFn, hEnd, ih _ _ _ hNext]

@[simp] theorem blockCounts_eq (text : List Char) : blockCounts text = some (blockDelta text) := by
  have hWords := wordsFrom_eq [] (codeOf text)
  rw [List.nil_append, List.length_nil] at hWords
  rw [blockCounts, hWords, Option.bind_eq_bind, Option.bind_some,
    countBlocks_eq _ _ _ _ _ _ (Nat.zero_add _), Nat.zero_add, Nat.zero_add, blockDelta_eq]
  rfl

@[simp] theorem advance_eq (tracker : BlockTracker) (text : List Char) :
    advance tracker text = some (tracker.advance text) := by
  rw [advance, blockCounts_eq, Option.bind_eq_bind, Option.bind_some, BlockTracker.advance]
  simp only [atLeastZero_eq]
  rfl

/-! ### Heredocs -/

/-- The text before the byte offset `limit` ends inside a double-quoted string. -/
def inStringAt (limit pos : Nat) (inside escaped : Bool) : List Char → Bool
  | [] => inside
  | c :: cs =>
    let next := pos + c.utf8Size
    if limit ≤ pos then inside
    else if escaped then inStringAt limit next inside false cs
    else if c == '\\' && inside then inStringAt limit next inside true cs
    else if c == '"' then inStringAt limit next (!inside) false cs
    else if c == '#' && !inside then false
    else inStringAt limit next inside false cs

/-- The offset of the heredoc that opens at the end of a line, and its delimiter. -/
def heredocOpening (line : List Char) : Option (Option (Nat × List Char)) :=
  go heredocDelimiters
where
  /-- Tries the delimiters in turn. -/
  go : List (List Char) → Option (Option (Nat × List Char))
    | [] => some none
    | delimiter :: others =>
      match Text.offsetOf? delimiter 0 line with
      | none => go others
      | some pos => do
        let after ← from? line (pos + 3)
        let opens := Text.allBlank after && !inStringAt pos 0 false false line
        if opens then return some (pos, delimiter) else go others

/-- The offset of the blank that `n` blanks stand before at the beginning of a line. -/
def blankAt? : Nat → Nat → List Char → Option Nat
  | _, _, [] => none
  | pos, 0, c :: _ => if Text.isBlank c then some pos else none
  | pos, n + 1, c :: cs => if Text.isBlank c then blankAt? (pos + c.utf8Size) n cs else none

/-- The line without `n` blanks, or without all that it begins with. -/
def stripIndent (n : Nat) (line : List Char) : Option (List Char) :=
  match blankAt? 0 n line with
  | some pos => from? line pos
  | none => some (Text.trimStart line)

def dedent (lines : List (List Char)) : Option (List Char) := do
  let indents := (lines.filter fun l => !Text.allBlank l).map indentation
  let cut ← lines.mapM (stripIndent (indents.min?.getD 0))
  return Text.trimEnd (Text.join ['\n'] cut)

theorem inStringAt_eq (before rest : List Char) (pos : Nat) (inside escaped : Bool) :
    inStringAt (pos + Text.byteLength before) pos inside escaped (before ++ rest) =
      endsInString.go inside escaped before := by
  induction before generalizing pos inside escaped with
  | nil =>
    cases rest with
    | nil => rfl
    | cons c rest => simp [inStringAt, endsInString.go]
  | cons c before ih =>
    have hSize := c.utf8Size_pos
    have hPos : ¬pos + Text.byteLength (c :: before) ≤ pos := by
      rw [Text.byteLength_cons]
      omega
    have hNext (inside escaped : Bool) : inStringAt (pos + Text.byteLength (c :: before))
        (pos + c.utf8Size) inside escaped (before ++ rest) =
          endsInString.go inside escaped before := by
      rw [Text.byteLength_cons, ← Nat.add_assoc]
      exact ih _ inside escaped
    simp only [List.cons_append, inStringAt, if_neg hPos, hNext, endsInString.go]

/-- The text before a heredoc that opens with the given delimiter, and the delimiter. -/
def openingWith? (line delimiter : List Char) : Option (List Char × List Char) :=
  (Text.cutAt? delimiter line).bind fun cut =>
    if Text.allBlank cut.2 && !endsInString cut.1 then some (cut.1, delimiter) else none

theorem heredocOpening?_eq (line : List Char) :
    heredocOpening? line = heredocDelimiters.findSome? (openingWith? line) := by
  rw [heredocOpening?]
  congr 1
  funext delimiter
  rw [openingWith?]
  cases Text.cutAt? delimiter line <;> rfl

theorem heredocOpening_go_eq (line : List Char) (delimiters : List (List Char))
    (hSize : ∀ d ∈ delimiters, Text.byteLength d = 3) :
    heredocOpening.go line delimiters =
      some ((delimiters.findSome? (openingWith? line)).map fun opening =>
        (Text.byteLength opening.1, opening.2)) := by
  induction delimiters with
  | nil => rfl
  | cons delimiter others ih =>
    obtain ⟨hHere, hOthers⟩ := List.forall_mem_cons.mp hSize
    rw [heredocOpening.go, Text.offsetOf?, List.findSome?_cons, openingWith?]
    cases hCut : Text.cutAt? delimiter line with
    | none => exact ih hOthers
    | some cut =>
      obtain ⟨before, after⟩ := cut
      have hLine := Text.append_of_cutAt? hCut
      have hBehind : from? line (0 + Text.byteLength before + 3) = some after := by
        refine from?_eq ⟨before ++ delimiter, hLine.symm, ?_⟩
        rw [Text.byteLength_append, hHere, Nat.zero_add]
      have hInside : inStringAt (0 + Text.byteLength before) 0 false false line =
          endsInString before := by
        rw [← hLine, List.append_assoc]
        exact inStringAt_eq before _ 0 false false
      simp only [Option.map_some, hBehind, hInside, Option.bind_eq_bind, Option.bind_some]
      split
      · rw [Nat.zero_add]
        rfl
      · exact ih hOthers

theorem heredocOpening_eq (line : List Char) :
    heredocOpening line = some ((heredocOpening? line).map fun opening =>
      (Text.byteLength opening.1, opening.2)) := by
  rw [heredocOpening, heredocOpening_go_eq line _ (by decide), heredocOpening?_eq]

theorem prefix_of_heredocOpening? {line before delimiter : List Char}
    (h : heredocOpening? line = some (before, delimiter)) : before <+: line := by
  rw [heredocOpening?_eq] at h
  obtain ⟨tried, -, hTried⟩ := List.exists_of_findSome?_eq_some h
  obtain ⟨⟨front, after⟩, hCut, hOpening⟩ := Option.bind_eq_some_iff.mp hTried
  split at hOpening
  · cases hOpening
    rw [← Text.append_of_cutAt? hCut, List.append_assoc]
    exact List.prefix_append _ _
  · cases hOpening

theorem blankAt?_eq (pos n : Nat) (line : List Char) :
    blankAt? pos n line =
      if n < indentation line then some (pos + Text.byteLength (line.take n)) else none := by
  induction line generalizing pos n with
  | nil => simp [blankAt?, indentation]
  | cons c line ih =>
    cases hBlank : Text.isBlank c with
    | false => cases n <;> simp [blankAt?, indentation, hBlank]
    | true =>
      cases n with
      | zero => simp [blankAt?, indentation, hBlank]
      | succ n =>
        rw [indentation] at ih
        simp [blankAt?, indentation, hBlank, ih, Text.byteLength_cons, Nat.add_assoc]

theorem stripIndent_eq (n : Nat) (line : List Char) :
    stripIndent n line = some (line.drop (min n (indentation line))) := by
  rw [stripIndent, blankAt?_eq]
  split
  · rename_i pos hAt
    obtain ⟨hFits, rfl⟩ : n < indentation line ∧ 0 + Text.byteLength (line.take n) = pos := by
      simpa using hAt
    rw [Nat.min_eq_left (Nat.le_of_lt hFits)]
    exact from?_eq ⟨line.take n, (List.take_append_drop n line).symm, (Nat.zero_add _).symm⟩
  · rename_i hNone
    have hAll : indentation line ≤ n := by simpa using hNone
    have hDrop : line.drop (line.takeWhile Text.isBlank).length = Text.trimStart line := by
      nth_rewrite 2 [← List.takeWhile_append_dropWhile (p := Text.isBlank) (l := line)]
      exact List.drop_left
    rw [Nat.min_eq_right hAll, indentation, hDrop]

@[simp] theorem dedent_eq (lines : List (List Char)) :
    dedent lines = some (Elixir.dedent lines) := by
  rw [dedent, mapM_some (stripIndent_eq _)]
  rfl

example : dedent [" x".toList, "\u3000\u3000y".toList] = some "x\n\u3000y".toList := by decide

/-! ### Lines -/

/-- What one line, or one that a heredoc opens in, says with the heredoc taken out of it. -/
structure Segment where
  text : List Char
  heredoc : Option (List Char)
  /-- The index of the line behind it. -/
  next : Nat

def Segment.draft (whole : Segment) (line continuations : Nat) : Draft :=
  { line, text := whole.text, heredoc := whole.heredoc, continuations }

/-- The lines of a heredoc from the index `i` on, what follows its closing delimiter, and the index
of the line behind it. -/
def heredocLines (lines : List (List Char)) (delimiter : List Char) (i : Nat)
    (body : List (List Char)) : Option (List (List Char) × List Char × Nat) :=
  if i < lines.length then do
    let line ← lines[i]?
    match delimiter.isPrefixOf? (Text.trimStart line) with
    | some rest => return (body, rest, i + 1)
    | none => heredocLines lines delimiter (i + 1) (body ++ [line])
  else some (body, [], i)
termination_by lines.length - i

def segment (lines : List (List Char)) (i : Nat) : Option Segment := do
  let line ← lines[i]?
  match ← heredocOpening line with
  | none => return ⟨line, none, i + 1⟩
  | some (pos, delimiter) =>
    let (body, rest, next) ← heredocLines lines delimiter (i + 1) []
    let before ← before? line pos
    return ⟨before ++ '"' :: '"' :: rest, some (← dedent body), next⟩

/-- A segment with those that it goes on in, `left` of them at most. -/
def continued (lines : List (List Char)) : Nat → Segment → Option Segment
  | 0, whole => some whole
  | left + 1, whole =>
    if needsContinuation whole.text && whole.next < lines.length then do
      let more ← segment lines whole.next
      continued lines left
        ⟨whole.text ++ ' ' :: Text.trim more.text, whole.heredoc.or more.heredoc, more.next⟩
    else some whole

def logicalLinesFrom (lines : List (List Char)) (i : Nat) : Option (List LogicalLine) :=
  if i < lines.length then do
    let first ← segment lines i
    let whole ← continued lines maxContinuations first
    if i < whole.next then do
      let later ← logicalLinesFrom lines whole.next
      return (whole.draft (i + 1) 0).toLogicalLine :: later
    else none
  else some []
termination_by lines.length - i

def logicalLines (source : List Char) : Option (List LogicalLine) :=
  logicalLinesFrom (Text.lines source) 0

section Lines

variable {lines : List (List Char)}

/-- The logical lines of a draft that has been extended up to the index `next`, and of the lines
from there on. -/
def resume (lines : List (List Char)) (draft : Draft) (next : Nat) : List LogicalLine :=
  (settle draft).2 ++ joinLines (settle draft).1 (next + 1) (lines.drop next)

theorem resume_of_settled {draft : Draft} {next : Nat}
    (h : ¬(needsContinuation draft.text && draft.continuations < maxContinuations)) :
    resume lines draft next =
      draft.toLogicalLine :: joinLines {} (next + 1) (lines.drop next) := by
  rw [resume, settle, if_neg h]
  rfl

theorem resume_of_length_le {next : Nat} (draft : Draft) (h : lines.length ≤ next) :
    resume lines draft next =
      draft.toLogicalLine :: joinLines {} (next + 1) (lines.drop next) := by
  rw [resume, List.drop_eq_nil_of_le h, settle]
  split <;> rfl

theorem heredocLines_eq (lines : List (List Char)) (delimiter : List Char) (i : Nat)
    (body : List (List Char)) :
    ∃ whole rest next, heredocLines lines delimiter i body = some (whole, rest, next) ∧ i ≤ next ∧
      ∀ (draft : Option Draft) (number : Nat) (before : List Char),
        joinLines ⟨draft, some ⟨number, before, delimiter, body.reverse⟩⟩ (i + 1) (lines.drop i) =
          resume lines (extend draft number (before ++ '"' :: '"' :: rest)
            (some (Elixir.dedent whole))) next := by
  fun_induction heredocLines lines delimiter i body with
  | case1 i body hIn ih =>
    rw [List.getElem?_eq_getElem hIn, List.drop_eq_getElem_cons hIn, Option.bind_eq_bind,
      Option.bind_some]
    simp only [joinLines, takeLine]
    cases delimiter.isPrefixOf? (Text.trimStart lines[i]) with
    | some rest =>
      refine ⟨body, rest, i + 1, rfl, Nat.le_succ i, fun draft number before => ?_⟩
      simp [closeHeredoc, resume]
    | none =>
      obtain ⟨whole, rest, next, hLines, hNext, hJoin⟩ := ih lines[i]
      rw [List.reverse_concat] at hJoin
      exact ⟨whole, rest, next, hLines, Nat.le_of_succ_le hNext, hJoin⟩
  | case2 i body hOut =>
    -- a heredoc that is never closed takes all lines
    have hEnd := Nat.le_of_not_lt hOut
    refine ⟨body, [], i, rfl, Nat.le_refl i, fun draft number before => ?_⟩
    rw [resume_of_length_le _ hEnd, List.drop_eq_nil_of_le hEnd]
    simp [joinLines, finish, closeHeredoc]

theorem segment_eq {i : Nat} (h : i < lines.length) :
    ∃ first, segment lines i = some first ∧ i < first.next ∧ ∀ draft : Option Draft,
      joinLines { draft } (i + 1) (lines.drop i) =
        resume lines (extend draft (i + 1) first.text first.heredoc) first.next := by
  rw [segment, List.getElem?_eq_getElem h, List.drop_eq_getElem_cons h, Option.bind_eq_bind,
    Option.bind_some, heredocOpening_eq]
  simp only [joinLines, takeLine]
  cases hOpening : heredocOpening? lines[i] with
  | none => exact ⟨_, rfl, Nat.lt_succ_self i, fun draft => rfl⟩
  | some opening =>
    obtain ⟨before, delimiter⟩ := opening
    obtain ⟨behind, hLine⟩ := prefix_of_heredocOpening? hOpening
    obtain ⟨body, rest, next, hLines, hNext, hJoin⟩ :=
      heredocLines_eq lines delimiter (i + 1) []
    have hBefore : before? lines[i] (Text.byteLength before) = some before := by
      rw [← hLine]
      exact before?_eq before behind
    refine ⟨⟨before ++ '"' :: '"' :: rest, some (Elixir.dedent body), next⟩, ?_, hNext,
      fun draft => hJoin draft (i + 1) before⟩
    simp [hLines, hBefore, dedent_eq]

theorem continued_eq (lines : List (List Char)) (left count number : Nat) (whole : Segment)
    (hLeft : count + left = maxContinuations) :
    ∃ last, continued lines left whole = some last ∧ whole.next ≤ last.next ∧
      resume lines (whole.draft number count) whole.next =
        (last.draft number 0).toLogicalLine ::
          joinLines {} (last.next + 1) (lines.drop last.next) := by
  induction left generalizing count whole with
  | zero =>
    refine ⟨whole, rfl, Nat.le_refl _, resume_of_settled ?_⟩
    simp [Segment.draft, ← hLeft]
  | succ left ih =>
    rw [continued]
    by_cases hMore : needsContinuation whole.text && whole.next < lines.length
    · obtain ⟨hNeeds, hIn⟩ : needsContinuation whole.text = true ∧ whole.next < lines.length := by
        simpa using hMore
      obtain ⟨more, hSegment, hNext, hJoin⟩ := segment_eq hIn
      obtain ⟨last, hLast, hLe, hResume⟩ := ih (count + 1)
        ⟨whole.text ++ ' ' :: Text.trim more.text, whole.heredoc.or more.heredoc, more.next⟩
        (by omega)
      refine ⟨last, ?_, Nat.le_trans (Nat.le_of_lt hNext) hLe, ?_⟩
      · rw [if_pos hMore, hSegment]
        exact hLast
      · have hCount : count < maxContinuations := by omega
        have hSettle : settle (whole.draft number count) =
            ({ draft := some (whole.draft number count) }, []) := by
          rw [settle, if_pos]
          simp [Segment.draft, hNeeds, hCount]
        rw [resume, hSettle, List.nil_append, hJoin]
        exact hResume
    · refine ⟨whole, if_neg hMore, Nat.le_refl _, ?_⟩
      by_cases hNeeds : needsContinuation whole.text
      · exact resume_of_length_le _ (by simpa [hNeeds] using hMore)
      · exact resume_of_settled (by simp [Segment.draft, hNeeds])

theorem logicalLinesFrom_eq (lines : List (List Char)) (i : Nat) :
    logicalLinesFrom lines i = some (joinLines {} (i + 1) (lines.drop i)) := by
  fun_induction logicalLinesFrom lines i with
  | case1 i hIn ih =>
    obtain ⟨first, hFirst, hNext, hJoin⟩ := segment_eq hIn
    obtain ⟨whole, hWhole, hLe, hResume⟩ :=
      continued_eq lines maxContinuations 0 (i + 1) first (Nat.zero_add _)
    have hLater := ih whole (Nat.lt_of_lt_of_le hNext hLe)
    simp only [hFirst, hWhole, Option.bind_eq_bind, Option.bind_some, hLater]
    rw [if_pos (Nat.lt_of_lt_of_le hNext hLe), hJoin none]
    exact congrArg some hResume.symm
  | case2 i hOut =>
    rw [List.drop_eq_nil_of_le (Nat.le_of_not_lt hOut)]
    rfl

end Lines

@[simp] theorem logicalLines_eq (source : List Char) :
    logicalLines source = some (Elixir.logicalLines source) :=
  logicalLinesFrom_eq (Text.lines source) 0

end PhoenixLens.Elixir.InPlace
