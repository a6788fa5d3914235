import PhoenixLens.Proofs.Elixir.ModuleLine
import PhoenixLens.Proofs.Elixir.SourceLines

/-!
# Blocks on one line and on many

A line may open blocks and close all of them again. The tracker of blocks counts a `do` where it
ends a line and an `end` wherever it stands. So the blocks of functions on one line leave it as it
is, and each block with a `do` closes one more block than was opened.

Blocks that are nested in each other are written line by line: a line opens each of them, with a
`do` at its end or with a function, and another line closes it. The tracker of blocks goes through
the tree; after each line it knows how many blocks are open there, and the modules among them.
-/

namespace PhoenixLens.Elixir

/-! ### Blocks within a line -/

/-- Each block that is opened is closed, in any nesting. -/
inductive IsNested : List BlockWord → Prop where
  | nil : IsNested []
  | block {opening : BlockWord} {inner rest : List BlockWord} (hOpening : opening ≠ .closes)
      (hInner : IsNested inner) (hRest : IsNested rest) :
      IsNested (opening :: (inner ++ .closes :: rest))

namespace IsNested

variable {words : List BlockWord}

theorem count (h : IsNested words) :
    words.count .closes = words.count .opensFn + words.count .opensDo := by
  induction h with
  | nil => rfl
  | @block opening inner rest hOpening _ _ hInner hRest =>
    cases opening with
    | closes => exact absurd rfl hOpening
    | opensDo | opensFn =>
      simp only [List.count_cons, List.count_append, beq_iff_eq, reduceCtorEq, if_true, if_false]
      omega

theorem getLast? (h : IsNested words) : words.getLast? ≠ some .opensDo := by
  induction h with
  | nil => nofun
  | @block opening inner rest _ _ _ _ hRest =>
    rw [List.getLast?_cons_of_ne_nil (by simp), List.getLast?_append_of_ne_nil _ (by simp)]
    cases rest with
    | nil => simp
    | cons w rest =>
      rw [List.getLast?_cons_of_ne_nil (by simp)]
      exact hRest

theorem lastBlockWord? {line : CodeLine} (h : IsNested line.blockWords) :
    line.lastBlockWord? ≠ some .opensDo :=
  fun hDo => h.getLast? (line.getLast?_blockWords hDo)

end IsNested

/-! ### Trackers -/

namespace BlockTracker

variable {tracker : BlockTracker} {text : List Char}

/-- The open modules have been opened one within the other, in blocks that are still open. -/
structure WellFormed (tracker : BlockTracker) : Prop where
  isStacked : tracker.IsStacked
  isOrdered : tracker.modules.Pairwise fun inner outer => outer.outerDepth < inner.outerDepth

theorem wellFormed_nil : WellFormed {} := ⟨nofun, .nil⟩

/-- Modules are left from the innermost one on. -/
theorem dropWhile_eq_filter {modules : List OpenModule}
    (h : modules.Pairwise fun inner outer => outer.outerDepth < inner.outerDepth) (depth : Nat) :
    modules.dropWhile (fun m => depth ≤ m.outerDepth) =
      modules.filter fun m => m.outerDepth < depth := by
  induction h with
  | nil => rfl
  | @cons m modules hOuter _ ih =>
    by_cases hLeft : depth ≤ m.outerDepth
    · rw [List.dropWhile_cons_of_pos (by simpa using hLeft),
        List.filter_cons_of_neg (by simpa using hLeft), ih]
    · have hAll : ∀ outer ∈ m :: modules, decide (outer.outerDepth < depth) = true := by
        refine List.forall_mem_cons.mpr ⟨by simpa using hLeft, fun outer hMem => ?_⟩
        have := hOuter outer hMem
        simp only [decide_eq_true_eq]
        omega
      rw [List.dropWhile_cons_of_neg (by simpa using hLeft), List.filter_eq_self.mpr hAll]

theorem WellFormed.advance (h : tracker.WellFormed) (text : List Char) :
    (tracker.advance text).WellFormed := by
  have hOrdered : ((tracker.opened? text).toList.map (OpenModule.mk · tracker.depth) ++
      tracker.modules).Pairwise fun inner outer => outer.outerDepth < inner.outerDepth := by
    cases tracker.opened? text with
    | none => exact h.isOrdered
    | some name => exact .cons h.isStacked h.isOrdered
  refine ⟨fun m hMem => ?_, hOrdered.sublist (List.dropWhile_sublist _)⟩
  simp only [BlockTracker.advance, dropWhile_eq_filter hOrdered, List.mem_filter,
    decide_eq_true_eq] at hMem
  exact hMem.2

theorem WellFormed.foldl (h : tracker.WellFormed) (seen : List (List Char)) :
    (seen.foldl BlockTracker.advance tracker).WellFormed := by
  induction seen generalizing tracker with
  | nil => exact h
  | cons text seen ih => exact ih (h.advance text)

def after (seen : List (List Char)) : BlockTracker := seen.foldl advance {}

theorem wellFormed_after (seen : List (List Char)) : (after seen).WellFormed :=
  wellFormed_nil.foldl seen

theorem opened?_of_none (h : moduleOpening? text = none) (tracker : BlockTracker) :
    tracker.opened? text = none := by
  rw [opened?, h, Option.map_none]

namespace WellFormed

variable {line : CodeLine}

theorem advance_eq_filter (h : tracker.WellFormed) (hLine : IsNested line.blockWords) :
    tracker.advance line.text =
      { depth := tracker.depth - line.blockWords.count .opensDo
        modules := tracker.modules.filter fun m =>
          m.outerDepth < tracker.depth - line.blockWords.count .opensDo } := by
  have hDepth : tracker.depth + (blockDelta line.text).1 - (blockDelta line.text).2 =
      tracker.depth - line.blockWords.count .opensDo := by
    rw [CodeLine.blockDelta_text hLine.lastBlockWord?, hLine.count]
    omega
  rw [← dropWhile_eq_filter h.isOrdered, ← hDepth]
  exact advance_eq (CodeLine.moduleOpening?_eq_none hLine.lastBlockWord?) tracker

theorem advance_eq_self_iff (h : tracker.WellFormed) (hLine : IsNested line.blockWords) :
    tracker.advance line.text = tracker ↔ .opensDo ∉ line.blockWords ∨ tracker.depth = 0 := by
  rw [h.advance_eq_filter hLine, ← List.count_eq_zero]
  constructor
  · intro hSame
    have hKept : tracker.depth - line.blockWords.count .opensDo = tracker.depth :=
      congrArg depth hSame
    omega
  · intro hNone
    have hKept : tracker.depth - line.blockWords.count .opensDo = tracker.depth := by omega
    rw [hKept, List.filter_eq_self.mpr fun m hMem => decide_eq_true (h.isStacked m hMem)]

end WellFormed

/-- A line that closes the blocks it opens begins no module and closes as many more blocks as it has
`do`s. So it leaves the tracker as it is just when it has none or no block is open. -/
theorem advance_nested (seen : List (List Char)) (line : CodeLine) (h : IsNested line.blockWords) :
    let tracker := after seen
    let later := tracker.advance line.text
    tracker.opened? line.text = none ∧
      later.depth = tracker.depth - line.blockWords.count .opensDo ∧
      later.modules = tracker.modules.filter (fun m => m.outerDepth < later.depth) ∧
      (later = tracker ↔ .opensDo ∉ line.blockWords ∨ tracker.depth = 0) := by
  intro tracker later
  have hTracker : tracker.WellFormed := wellFormed_after seen
  have hOpening := CodeLine.moduleOpening?_eq_none h.lastBlockWord?
  have hLater : later = _ := hTracker.advance_eq_filter h
  refine ⟨opened?_of_none hOpening tracker, ?_, ?_, hTracker.advance_eq_self_iff h⟩ <;> rw [hLater]

/-- A function on one line of a module, with a string, keys and atoms that look like keywords. -/
theorem advance_nested_function :
    ∃ line : CodeLine, IsNested line.blockWords ∧
      line.text = "  Enum.map(xs, fn x -> \x7bx, \"do\", end: :do\x7d end) # end".toList ∧
      (after ["defmodule A do".toList]).opened? line.text = none ∧
      (after ["defmodule A do".toList]).advance line.text = after ["defmodule A do".toList] := by
  obtain ⟨line, hText, hWords⟩ :
      ∃ line : CodeLine,
        line.text = "  Enum.map(xs, fn x -> \x7bx, \"do\", end: :do\x7d end) # end".toList ∧
          line.blockWords = [.opensFn, .closes] :=
    CodeLine.exists_blockWords_eq (by decide) (by decide)
  have hNested : IsNested line.blockWords := by
    rw [hWords]
    exact .block (by decide) .nil .nil
  obtain ⟨hOpened, -, -, hSame⟩ := advance_nested ["defmodule A do".toList] line hNested
  exact ⟨line, hNested, hText, hOpened, hSame.mpr (.inl (by simp [hWords]))⟩

/-- A conditional on one line closes the module around it. -/
theorem advance_conditional :
    ∃ line : CodeLine, IsNested line.blockWords ∧ line.text = "  if x do y end".toList ∧
      (after ["defmodule A do".toList]).depth = 1 ∧
      (after ["defmodule A do".toList]).currentModule? = some "A".toList ∧
      ((after ["defmodule A do".toList]).advance line.text).depth = 0 ∧
      ((after ["defmodule A do".toList]).advance line.text).currentModule? = none := by
  obtain ⟨line, hText, hWords⟩ :
      ∃ line : CodeLine, line.text = "  if x do y end".toList ∧
        line.blockWords = [.opensDo, .closes] :=
    CodeLine.exists_blockWords_eq (by decide) (by decide)
  refine ⟨line, ?_, hText, ?_⟩
  · rw [hWords]
    exact .block (by decide) .nil .nil
  · rw [hText]
    decide

end BlockTracker

/-! ### Lines of a tree -/

/-- Blocks of functions, each of them closed. -/
def IsLevel (words : List BlockWord) : Prop := IsNested words ∧ .opensDo ∉ words

namespace CodeLine

variable {line : CodeLine}

/-- The line ends in the `do` of a block and closes its functions. -/
structure OpensDo (line : CodeLine) : Prop where
  ends : line.EndsInDo
  blockWords : ∃ inner, IsLevel inner ∧ line.blockWords = inner ++ [.opensDo]

/-- A line that begins a module with a dotted name is of that kind. -/
theorem OpensDo.of_isModuleLine {name : List Char} (h : IsModuleLine name line.text)
    (hName : IsModule name) : line.OpensDo := by
  obtain ⟨front, c, blanks, hBlank, hBlanks, hCode, hQuiet⟩ := h.exists_codeOf
  have hApart : IsApart (c :: ("do".toList ++ blanks)) := by
    intro d hd
    cases hd
    exact continuesWord_of_isBlank hBlank
  obtain ⟨found, hFound, hWords⟩ := hQuiet hName none _ hApart
  have hLine : line.words = found ++ [⟨"do".toList, some c, blanks.head?⟩] := by
    rw [← line.words_codeOf_text, hCode, Elixir.words, hWords, words_go_do hBlank hBlanks]
  have hDo : Word.blockWord? ⟨"do".toList, some c, blanks.head?⟩ = some .opensDo := by
    rw [Word.blockWord?_eq, keywordOf_do hBlank hBlanks]
    decide
  have hIdle : found.filterMap Word.blockWord? = [] := by
    refine List.filterMap_eq_nil_iff.mpr fun word hMem => ?_
    rw [word.blockWord?_eq, BlockWord.ofText?_eq_none (hFound word hMem)]
  refine ⟨.of_text ?_ ?_, [], ⟨.nil, by simp⟩, ?_⟩
  · rw [lastBlockWord?, hLine, List.getLast?_concat, Option.bind_some, hDo]
  · have hText : front ++ c :: ("do".toList ++ blanks) =
        (front ++ [c]) ++ ("do".toList ++ blanks) := by simp
    rw [hCode, hText]
    exact endsWith_do hBlanks (front ++ [c])
  · rw [CodeLine.blockWords, hLine, List.filterMap_append, hIdle, List.filterMap_cons_some hDo,
      List.filterMap_nil]

theorem exists_opensDo {name text : List Char} (h : ClosesStrings .code text)
    (hName : IsModule name) (hOpening : moduleOpening? text = some name) :
    ∃ line : CodeLine, line.text = text ∧ IsModuleLine name line.text ∧ line.OpensDo := by
  obtain ⟨line, rfl⟩ := exists_text_eq h
  have hForm := moduleOpening?_eq_some_iff.mp hOpening
  exact ⟨line, rfl, hForm, .of_isModuleLine hForm hName⟩

def OpensFunction (line : CodeLine) : Prop :=
  ∃ front back, IsLevel front ∧ IsLevel back ∧ line.blockWords = front ++ .opensFn :: back

/-- The line opens a block, but no module. -/
inductive OpensBlock (line : CodeLine) : Prop where
  | header (opens : line.OpensDo) (noModule : ∀ name, ¬IsModuleLine name line.text)
  | function (opens : line.OpensFunction)

/-- The only block word of the line is an `end`. -/
def Closes (line : CodeLine) : Prop := line.blockWords = [.closes]

theorem last_ne_opensDo (h : .opensDo ∉ line.blockWords) :
    line.lastBlockWord? ≠ some .opensDo :=
  fun hLast => h (List.mem_of_getLast? (line.getLast?_blockWords hLast))

end CodeLine

namespace IsLevel

variable {words : List BlockWord}

theorem count (h : IsLevel words) : words.count .closes = words.count .opensFn := by
  rw [h.1.count, List.count_eq_zero.mpr h.2, Nat.add_zero]

theorem blockDelta {line : CodeLine} (h : IsLevel line.blockWords) :
    (blockDelta line.text).1 = (blockDelta line.text).2 := by
  rw [CodeLine.blockDelta_text (CodeLine.last_ne_opensDo h.2), h.count]

end IsLevel

namespace CodeLine

variable {line : CodeLine}

theorem OpensDo.blockDelta (h : line.OpensDo) :
    (blockDelta line.text).1 = (blockDelta line.text).2 + 1 := by
  obtain ⟨inner, hInner, hWords⟩ := h.blockWords
  rw [h.ends.blockDelta_text, hWords]
  simp [List.count_append, hInner.count]

theorem OpensFunction.not_mem (h : line.OpensFunction) : .opensDo ∉ line.blockWords := by
  obtain ⟨front, back, hFront, hBack, hWords⟩ := h
  simp [hWords, hFront.2, hBack.2]

theorem OpensFunction.blockDelta (h : line.OpensFunction) :
    (blockDelta line.text).1 = (blockDelta line.text).2 + 1 := by
  rw [blockDelta_text (last_ne_opensDo h.not_mem)]
  obtain ⟨front, back, hFront, hBack, hWords⟩ := h
  simp only [hWords, List.count_append, List.count_cons, hFront.count, hBack.count, beq_iff_eq,
    reduceCtorEq, if_true, if_false]
  omega

theorem OpensBlock.blockDelta (h : line.OpensBlock) :
    (blockDelta line.text).1 = (blockDelta line.text).2 + 1 := by
  cases h with
  | header opens noModule => exact opens.blockDelta
  | function opens => exact opens.blockDelta

theorem OpensBlock.moduleOpening? (h : line.OpensBlock) : moduleOpening? line.text = none := by
  cases h with
  | header opens noModule =>
    exact Option.eq_none_iff_forall_ne_some.mpr fun name hName =>
      noModule name (moduleOpening?_eq_some_iff.mp hName)
  | function opens => exact moduleOpening?_eq_none (last_ne_opensDo opens.not_mem)

theorem Closes.not_mem (h : line.Closes) : .opensDo ∉ line.blockWords := by
  rw [h]
  decide

theorem Closes.blockDelta (h : line.Closes) :
    (blockDelta line.text).2 = (blockDelta line.text).1 + 1 := by
  rw [blockDelta_text (last_ne_opensDo h.not_mem), h]
  rfl

end CodeLine

/-! ### Trees -/

/-- What stands in a block or in a file, line by line. -/
inductive BlockTree where
  | done
  | level (line : CodeLine) (isLevel : IsLevel line.blockWords) (next : BlockTree)
  | module (name : List Char) (header : CodeLine) (isModule : IsModuleLine name header.text)
      (opens : header.OpensDo) (body : BlockTree) (closing : CodeLine) (closes : closing.Closes)
      (next : BlockTree)
  | block (header : CodeLine) (opens : header.OpensBlock) (body : BlockTree) (closing : CodeLine)
      (closes : closing.Closes) (next : BlockTree)

/-- What is known after a line: the module that the line has begun, the number of open blocks and
the module around what follows. -/
structure BlockReading where
  opened? : Option (List Char)
  depth : Nat
  currentModule? : Option (List Char)
deriving DecidableEq

/-- The full name of the innermost of nested modules. -/
def fullName? (names : List (List Char)) : Option (List Char) :=
  if names.isEmpty then none else some (Text.join ['.'] names)

namespace BlockTree

def lines : BlockTree → List (List Char)
  | done => []
  | level line _ next => line.text :: next.lines
  | module _ header _ _ body closing _ next =>
    header.text :: (body.lines ++ closing.text :: next.lines)
  | block header _ body closing _ next => header.text :: (body.lines ++ closing.text :: next.lines)

/-- What is to be known after each line of a tree in `depth` blocks and the given modules. -/
def readings (depth : Nat) (names : List (List Char)) : BlockTree → List BlockReading
  | done => []
  | level _ _ next => ⟨none, depth, fullName? names⟩ :: next.readings depth names
  | module name _ _ _ body _ _ next =>
    let inside := names ++ [name]
    ⟨fullName? inside, depth + 1, fullName? inside⟩ ::
      (body.readings (depth + 1) inside ++
        ⟨none, depth, fullName? names⟩ :: next.readings depth names)
  | block _ _ body _ _ next =>
    ⟨none, depth + 1, fullName? names⟩ ::
      (body.readings (depth + 1) names ++
        ⟨none, depth, fullName? names⟩ :: next.readings depth names)

end BlockTree

/-! ### Reading a tree -/

namespace BlockTracker

/-- What a tracker tells after each of the lines. -/
def readings (tracker : BlockTracker) : List (List Char) → List BlockReading
  | [] => []
  | text :: lines =>
    let next := tracker.advance text
    ⟨tracker.opened? text, next.depth, next.currentModule?⟩ :: next.readings lines

variable {tracker : BlockTracker} {names : List (List Char)}

theorem currentModule?_within (tracker : BlockTracker) :
    tracker.within.currentModule? = tracker.currentModule? := rfl

theorem nameWithin_fullName? (names : List (List Char)) (name : List Char) :
    some (nameWithin (fullName? names) name) = fullName? (names ++ [name]) := by
  cases names with
  | nil => simp [fullName?, nameWithin, Text.join_singleton]
  | cons outer names =>
    rw [fullName?, fullName?, if_neg (by simp), if_neg (by simp),
      Text.join_concat _ (List.cons_ne_nil _ _)]
    simp [nameWithin]

/-- The line that closes a block or a module. -/
theorem readings_closing {closing : CodeLine} (hClosing : closing.Closes) (h : tracker.IsStacked)
    {inner : BlockTracker} (hInner : inner = tracker.within ∨ ∃ name, inner = tracker.inside name)
    (more : List (List Char)) :
    inner.readings (closing.text :: more) =
      ⟨none, tracker.depth, tracker.currentModule?⟩ :: tracker.readings more := by
  have hOpening := CodeLine.moduleOpening?_eq_none (CodeLine.last_ne_opensDo hClosing.not_mem)
  obtain ⟨hWithin, hInside⟩ := advance_outside hOpening hClosing.blockDelta h
  have hLater : inner.advance closing.text = tracker := by
    rcases hInner with rfl | ⟨name, rfl⟩
    · exact hWithin
    · exact hInside name
  rw [readings, hLater, opened?_of_none hOpening]

theorem readings_append (tree : BlockTree) (h : tracker.IsStacked)
    (hNames : tracker.currentModule? = fullName? names) (more : List (List Char)) :
    tracker.readings (tree.lines ++ more) =
      tree.readings tracker.depth names ++ tracker.readings more := by
  induction tree generalizing tracker names more with
  | done => rfl
  | level line isLevel next ih =>
    have hOpening := CodeLine.moduleOpening?_eq_none (CodeLine.last_ne_opensDo isLevel.2)
    have hLater := advance_level hOpening isLevel.blockDelta h
    rw [BlockTree.lines, List.cons_append, readings, hLater, opened?_of_none hOpening, hNames,
      ih h hNames, BlockTree.readings, List.cons_append]
  | module name header isModule opens body closing closes next ihBody ihNext =>
    have hOpening := moduleOpening?_eq_some_iff.mpr isModule
    have hInside := advance_inside hOpening opens.blockDelta h
    have hName : some (tracker.fullName name) = fullName? (names ++ [name]) := by
      rw [BlockTracker.fullName, hNames, nameWithin_fullName?]
    have hOpened : tracker.opened? header.text = some (tracker.fullName name) := by
      rw [opened?, hOpening]
      rfl
    rw [BlockTree.lines, List.cons_append, readings, hInside, List.append_assoc, List.cons_append,
      ihBody (h.inside name) hName, readings_closing closes h (.inr ⟨name, rfl⟩), hNames,
      ihNext h hNames, hOpened, currentModule?_inside, hName, BlockTree.readings, List.cons_append,
      List.append_assoc, List.cons_append]
    rfl
  | block header opens body closing closes next ihBody ihNext =>
    have hWithin := advance_within opens.moduleOpening? opens.blockDelta h
    rw [BlockTree.lines, List.cons_append, readings, hWithin, List.append_assoc, List.cons_append,
      ihBody h.within hNames, readings_closing closes h (.inl rfl), currentModule?_within, hNames,
      ihNext h hNames, opened?_of_none opens.moduleOpening?, BlockTree.readings, List.cons_append,
      List.append_assoc, List.cons_append]
    rfl

/-- After each line the tracker knows the number of open blocks and the modules among them, and it
tells a module just when the line begins one. -/
theorem readings_tree (tree : BlockTree) :
    readings {} tree.lines = tree.readings 0 [] := by
  have hNone : currentModule? {} = fullName? [] := rfl
  have hRead := readings_append tree isStacked_nil hNone []
  rwa [List.append_nil, readings, List.append_nil] at hRead

/-- A function with an open end in a module, and a module within that one. -/
theorem readings_tree_module :
    ∃ tree : BlockTree, tree.lines =
        ["defmodule A.B do # do".toList, "  Enum.each(xs, fn x ->".toList,
          "    IO.puts(\"end\", do: :end)".toList, "  end)".toList, "  defmodule C do".toList,
          "  end".toList, "end".toList] ∧
      readings {} tree.lines =
        [⟨some "A.B".toList, 1, some "A.B".toList⟩, ⟨none, 2, some "A.B".toList⟩,
          ⟨none, 2, some "A.B".toList⟩, ⟨none, 1, some "A.B".toList⟩,
          ⟨some "A.B.C".toList, 2, some "A.B.C".toList⟩, ⟨none, 1, some "A.B".toList⟩,
          ⟨none, 0, none⟩] := by
  have hPart {c : Char} (hUpper : Text.isAsciiUpper c = true) (hStart : startsWord c = true) :
      IsModulePart [c] := ⟨⟨c, [], rfl, hUpper⟩, List.forall_mem_singleton.mpr hStart⟩
  have hName : IsModule (['A'] ++ '.' :: ['B']) :=
    .dot (hPart (by decide) (by decide)) (.part (hPart (by decide) (by decide)))
  obtain ⟨outer, hOuter, isOuter, outerOpens⟩ :
      ∃ line : CodeLine, line.text = "defmodule A.B do # do".toList ∧
        IsModuleLine "A.B".toList line.text ∧ line.OpensDo :=
    CodeLine.exists_opensDo (by decide) hName (by decide)
  obtain ⟨inner, hInner, isInner, innerOpens⟩ :
      ∃ line : CodeLine, line.text = "  defmodule C do".toList ∧
        IsModuleLine "C".toList line.text ∧ line.OpensDo :=
    CodeLine.exists_opensDo (by decide +kernel) (.part (hPart (by decide) (by decide)))
      (by decide)
  obtain ⟨each, hEach, eachWords⟩ :
      ∃ line : CodeLine, line.text = "  Enum.each(xs, fn x ->".toList ∧
        line.blockWords = [.opensFn] :=
    CodeLine.exists_blockWords_eq (by decide) (by decide)
  obtain ⟨puts, hPuts, putsWords⟩ :
      ∃ line : CodeLine, line.text = "    IO.puts(\"end\", do: :end)".toList ∧
        line.blockWords = [] :=
    CodeLine.exists_blockWords_eq (by decide) (by decide)
  obtain ⟨eachEnd, hEachEnd, eachCloses⟩ :
      ∃ line : CodeLine, line.text = "  end)".toList ∧ line.blockWords = [.closes] :=
    CodeLine.exists_blockWords_eq (by decide) (by decide)
  obtain ⟨innerEnd, hInnerEnd, innerCloses⟩ :
      ∃ line : CodeLine, line.text = "  end".toList ∧ line.blockWords = [.closes] :=
    CodeLine.exists_blockWords_eq (by decide) (by decide)
  obtain ⟨outerEnd, hOuterEnd, outerCloses⟩ :
      ∃ line : CodeLine, line.text = "end".toList ∧ line.blockWords = [.closes] :=
    CodeLine.exists_blockWords_eq (by decide) (by decide)
  have hLevel : IsLevel [] := ⟨.nil, List.not_mem_nil⟩
  let tree : BlockTree :=
    .module "A.B".toList outer isOuter outerOpens
      (.block each (.function ⟨[], [], hLevel, hLevel, eachWords⟩)
        (.level puts (putsWords ▸ hLevel) .done) eachEnd eachCloses
        (.module "C".toList inner isInner innerOpens .done innerEnd innerCloses .done))
      outerEnd outerCloses .done
  refine ⟨tree, ?_, ?_⟩
  · simp only [tree, BlockTree.lines, hOuter, hInner, hEach, hPuts, hEachEnd, hInnerEnd, hOuterEnd,
      List.cons_append, List.nil_append]
  · rw [readings_tree tree]
    rfl

end BlockTracker

end PhoenixLens.Elixir
