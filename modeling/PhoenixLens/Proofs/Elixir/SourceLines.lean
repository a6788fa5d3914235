import PhoenixLens.Proofs.Elixir.CallLine

/-!
# Sources line by line

A source is written line by line. Most lines stand for themselves; a heredoc takes several physical
lines, which are read as one. The block tracker goes through a block and is back where it was behind
its end.
-/

namespace PhoenixLens.Elixir

/-- Lines that stand for themselves, numbered from `n` on. -/
def numbered : Nat → List (List Char) → List LogicalLine
  | _, [] => []
  | n, line :: lines => { line := n, text := line } :: numbered (n + 1) lines

theorem numbered_append (n : Nat) (lines more : List (List Char)) :
    numbered n (lines ++ more) = numbered n lines ++ numbered (n + lines.length) more := by
  induction lines generalizing n with
  | nil => rfl
  | cons line lines ih =>
    rw [List.cons_append, numbered, ih, numbered, List.cons_append, List.length_cons,
      Nat.add_right_comm, Nat.add_assoc]

/-- The line opens and closes some blocks and stands for itself. -/
def StandsAlone (line : List Char) : Prop := ∃ delta, IsOwnLine line delta

/-! ### Heredocs -/

/-- A line, or a heredoc with the text before it and the blanks before its closing quotes. -/
inductive SourceLine where
  | line (text : List Char)
  | heredoc (before : List Char) (body : List (List Char)) (width : Nat)

/-- What opens and closes a heredoc. -/
def tripleQuote : List Char := ['"', '"', '"']

/-- A line of a heredoc: it neither ends nor closes it. -/
structure IsHeredocLine (line : List Char) : Prop where
  unbroken : '\n' ∉ line
  noReturn : line.getLast? ≠ some '\r'
  noQuotes : tripleQuote.isPrefixOf? (Text.trimStart line) = none

namespace SourceLine

def physical : SourceLine → List (List Char)
  | line text => [text]
  | heredoc before body width =>
    (before ++ tripleQuote) :: (body ++ [List.replicate width ' ' ++ tripleQuote])

/-- The number of physical lines. -/
def height (written : SourceLine) : Nat := written.physical.length

/-- The line that a reader gets. -/
def logical (n : Nat) : SourceLine → LogicalLine
  | line text => { line := n, text }
  | heredoc before body _ =>
    { line := n, text := before ++ ['"', '"'], heredoc := some (dedent body) }

inductive IsSound : SourceLine → Prop where
  | line {text : List Char} (h : StandsAlone text) : IsSound (line text)
  | heredoc {before : List Char} {body : List (List Char)} {width : Nat}
      (hQuote : '"' ∉ before) (hUnbroken : '\n' ∉ before)
      (hFinished : needsContinuation (before ++ ['"', '"']) = false)
      (hBody : ∀ line ∈ body, IsHeredocLine line) : IsSound (heredoc before body width)

/-- The lines that a reader gets, numbered by their first physical lines from `n` on. -/
def read : Nat → List SourceLine → List LogicalLine
  | _, [] => []
  | n, written :: lines => written.logical n :: read (n + written.height) lines

def heights (lines : List SourceLine) : Nat := (lines.flatMap physical).length

theorem heights_cons (written : SourceLine) (lines : List SourceLine) :
    heights (written :: lines) = written.height + heights lines := by
  rw [heights, List.flatMap_cons, List.length_append, height, heights]

theorem heights_append (lines more : List SourceLine) :
    heights (lines ++ more) = heights lines + heights more := by
  rw [heights, List.flatMap_append, List.length_append, heights, heights]

theorem read_append (n : Nat) (lines more : List SourceLine) :
    read n (lines ++ more) = read n lines ++ read (n + heights lines) more := by
  induction lines generalizing n with
  | nil => rfl
  | cons written lines ih =>
    rw [List.cons_append, read, ih, read, heights_cons, List.cons_append, Nat.add_assoc]

section

variable {σ : Type} (take : σ → LogicalLine → σ)

/-- The state after lines that are taken one by one, the first of them numbered `n`. -/
def run (state : σ) (n : Nat) (lines : List SourceLine) : σ := (read n lines).foldl take state

theorem run_append (state : σ) (n : Nat) (lines more : List SourceLine) :
    run take state n (lines ++ more) = run take (run take state n lines) (n + heights lines) more := by
  rw [run, read_append, List.foldl_append]
  rfl

end

end SourceLine

theorem cutAt?_tripleQuote {before : List Char} (h : '"' ∉ before) :
    Text.cutAt? tripleQuote (before ++ tripleQuote) = some (before, []) := by
  induction before with
  | nil => rfl
  | cons c before ih =>
    have hHead : ('"' == c) = false := by simpa using (List.ne_of_not_mem_cons h)
    have hPrefix (rest : List Char) : tripleQuote.isPrefixOf? (c :: rest) = none := by
      simp [tripleQuote, List.isPrefixOf?, hHead]
    rw [List.cons_append, Text.cutAt?, hPrefix, ih (List.not_mem_of_not_mem_cons h)]
    rfl

theorem endsInString_of_not_mem {text : List Char} (h : '"' ∉ text) :
    endsInString text = false := by
  rw [endsInString]
  induction text with
  | nil => rfl
  | cons c text ih =>
    have hQuote : (c == '"') = false := by simpa using (List.ne_of_not_mem_cons h).symm
    rw [endsInString.go]
    simp only [hQuote, Bool.and_false, if_neg Bool.false_ne_true, Bool.not_false, Bool.and_true]
    split
    · rfl
    · exact ih (List.not_mem_of_not_mem_cons h)

theorem heredocOpening?_tripleQuote {before : List Char} (h : '"' ∉ before) :
    heredocOpening? (before ++ tripleQuote) = some (before, tripleQuote) := by
  have hCut : Text.cutAt? ['"', '"', '"'] (before ++ tripleQuote) = some (before, []) :=
    cutAt?_tripleQuote h
  rw [heredocOpening?, heredocDelimiters, List.findSome?_cons, hCut]
  simp [endsInString_of_not_mem h, Text.allBlank, tripleQuote]

theorem takeLine_heredoc {before : List Char} (h : '"' ∉ before) (n : Nat) :
    takeLine {} n (before ++ tripleQuote) =
      ({ heredoc := some { line := n, before, delimiter := tripleQuote } }, []) := by
  simp [takeLine, heredocOpening?_tripleQuote h]

theorem joinLines_body {body : List (List Char)} (h : ∀ line ∈ body, IsHeredocLine line)
    (opened : OpenHeredoc) (hDelimiter : opened.delimiter = tripleQuote) (n : Nat)
    (rest : List (List Char)) :
    joinLines { heredoc := some opened } n (body ++ rest) =
      joinLines { heredoc := some { opened with body := body.reverse ++ opened.body } }
        (n + body.length) rest := by
  induction body generalizing opened n with
  | nil => rfl
  | cons line body ih =>
    have hLine := h line List.mem_cons_self
    have hTaken : takeLine { heredoc := some opened } n line =
        ({ heredoc := some { opened with body := line :: opened.body } }, []) := by
      simp [takeLine, hDelimiter, hLine.noQuotes]
    have hRest := ih (fun other hOther => h other (List.mem_cons_of_mem _ hOther))
      { opened with body := line :: opened.body } hDelimiter (n + 1)
    rw [List.cons_append, joinLines, hTaken]
    simp only [List.nil_append]
    rw [hRest, List.reverse_cons, List.append_assoc, List.length_cons, Nat.add_right_comm,
      Nat.add_assoc]
    rfl

theorem takeLine_close (opened : OpenHeredoc) (hDelimiter : opened.delimiter = tripleQuote)
    (hFinished : needsContinuation (opened.before ++ ['"', '"']) = false) (n width : Nat) :
    takeLine { heredoc := some opened } n (List.replicate width ' ' ++ tripleQuote) =
      ({}, [{ line := opened.line
              text := opened.before ++ ['"', '"']
              heredoc := some (dedent opened.body.reverse) }]) := by
  have hTrimmed : Text.IsTrimmed tripleQuote := by decide
  have hStart : Text.trimStart (List.replicate width ' ' ++ tripleQuote) = tripleQuote :=
    hTrimmed.trimStart_append (Text.isBlank_indentation width)
  have hClose : tripleQuote.isPrefixOf? tripleQuote = some [] := by decide
  simp [takeLine, hDelimiter, hStart, hClose, closeHeredoc, extend, settle, hFinished]

/-- The logical lines of a source that is put together from lines and heredocs. -/
theorem joinLines_physical {lines : List SourceLine} (h : ∀ written ∈ lines, written.IsSound)
    (n : Nat) :
    joinLines {} n (lines.flatMap SourceLine.physical) = SourceLine.read n lines := by
  induction lines generalizing n with
  | nil => rfl
  | cons written lines ih =>
    have hRest := fun n => ih (fun other hOther => h other (List.mem_cons_of_mem _ hOther)) n
    rw [List.flatMap_cons, SourceLine.read, ← hRest]
    cases h written List.mem_cons_self with
    | @line text hLine =>
      obtain ⟨delta, hOwn⟩ := hLine
      have hTaken : takeLine {} n text = ({}, [{ line := n, text }]) := by
        simp [takeLine, hOwn.noHeredoc, extend, settle, hOwn.finished]
      rw [SourceLine.physical, List.singleton_append, joinLines, hTaken]
      rfl
    | @heredoc before body width hQuote hUnbroken hFinished hBody =>
      let opened : OpenHeredoc := { line := n, before, delimiter := tripleQuote }
      have hHeight : (SourceLine.heredoc before body width).height = 1 + (body.length + 1) := by
        simp [SourceLine.height, SourceLine.physical, Nat.add_comm]
      have hClosed := takeLine_close { opened with body := body.reverse ++ [] } rfl hFinished
        (n + 1 + body.length) width
      rw [SourceLine.physical, List.cons_append, joinLines, takeLine_heredoc hQuote]
      simp only [List.nil_append]
      rw [List.append_assoc, joinLines_body hBody opened rfl, List.singleton_append, joinLines, hClosed,
        hHeight]
      simp only [List.append_nil, List.reverse_reverse, List.singleton_append, SourceLine.logical,
        Nat.add_assoc]
      rfl

/-- A source, each line with its terminator. -/
def sourceText (lines : List (List Char)) : List Char := lines.flatMap (· ++ ['\n'])

theorem logicalLines_sourceText {lines : List SourceLine} (h : ∀ written ∈ lines, written.IsSound) :
    logicalLines (sourceText (lines.flatMap SourceLine.physical)) = SourceLine.read 1 lines := by
  have hLines : Text.lines (sourceText (lines.flatMap SourceLine.physical)) =
      lines.flatMap SourceLine.physical := by
    refine Text.lines_terminated fun line hMem => ?_
    obtain ⟨written, hWritten, hLine⟩ := List.mem_flatMap.mp hMem
    have hQuotes (front : List Char) : (front ++ tripleQuote).getLast? ≠ some '\r' := by
      have hLast : front ++ tripleQuote = front ++ ['"', '"'] ++ ['"'] := by simp [tripleQuote]
      rw [hLast, List.getLast?_concat]
      decide
    cases h written hWritten with
    | line hOwn =>
      obtain ⟨delta, hOwn⟩ := hOwn
      rw [SourceLine.physical, List.mem_singleton] at hLine
      rw [hLine]
      exact ⟨hOwn.unbroken, hOwn.noReturn⟩
    | @heredoc before body width hQuote hUnbroken hFinished hBody =>
      rw [SourceLine.physical, List.mem_cons, List.mem_append, List.mem_singleton] at hLine
      rcases hLine with rfl | hMem | rfl
      · refine ⟨?_, hQuotes _⟩
        rw [List.mem_append, not_or]
        exact ⟨hUnbroken, by decide⟩
      · exact ⟨(hBody line hMem).unbroken, (hBody line hMem).noReturn⟩
      · refine ⟨?_, hQuotes _⟩
        rw [List.mem_append, not_or]
        refine ⟨fun hBreak => ?_, by decide⟩
        cases List.eq_of_mem_replicate hBreak
  rw [logicalLines, hLines, joinLines_physical h]

theorem read_map_line (n : Nat) (lines : List (List Char)) :
    SourceLine.read n (lines.map SourceLine.line) = numbered n lines := by
  induction lines generalizing n with
  | nil => rfl
  | cons line lines ih => rw [List.map_cons, SourceLine.read, numbered, ← ih]; rfl

theorem logicalLines_eq {lines : List (List Char)} (h : ∀ line ∈ lines, StandsAlone line) :
    logicalLines (lines.flatMap (· ++ ['\n'])) = numbered 1 lines := by
  have hPhysical : (lines.map SourceLine.line).flatMap SourceLine.physical = lines := by
    rw [List.flatMap_map]
    exact List.flatMap_singleton' lines
  have hSound : ∀ written ∈ lines.map SourceLine.line, written.IsSound :=
    List.forall_mem_map.mpr fun line hLine => .line (h line hLine)
  have hRead := logicalLines_sourceText hSound
  rwa [hPhysical, read_map_line] at hRead

/-- A line that stands in the given number of blocks, each indented by `width` blanks. -/
def indented (width depth : Nat) (text : List Char) : SourceLine :=
  .line (List.replicate (width * depth) ' ' ++ text)

theorem height_indented (width depth : Nat) (text : List Char) :
    (indented width depth text).height = 1 := rfl

theorem isSound_call {line : CallLine} (h : line.WellFormed) (width depth : Nat) :
    (indented width depth line.text).IsSound := .line ⟨_, h.isOwnLine (width * depth)⟩

theorem isSound_end (width depth : Nat) : (indented width depth "end".toList).IsSound :=
  .line ⟨_, .of_end (width * depth)⟩

theorem trim_end (width : Nat) :
    Text.trim (List.replicate width ' ' ++ "end".toList) = "end".toList := by
  have hEnd : Text.IsTrimmed "end".toList := by decide
  exact hEnd.trim_indented width

theorem isSound_blank : (SourceLine.line []).IsSound := by
  refine .line ⟨(0, 0), by decide, by decide, by decide, by decide, by decide⟩

/-! ### Blocks -/

/-- The full name of a module that stands within another one, if there is one. -/
def nameWithin (outer? : Option (List Char)) (name : List Char) : List Char :=
  match outer? with
  | some outer => outer ++ '.' :: name
  | none => name

namespace BlockTracker

/-- Every open module has been opened in fewer blocks than are open now. -/
def IsStacked (tracker : BlockTracker) : Prop := ∀ m ∈ tracker.modules, m.outerDepth < tracker.depth

/-- One more block is open. -/
def within (tracker : BlockTracker) : BlockTracker := { tracker with depth := tracker.depth + 1 }

/-- The full name of a module that begins here. -/
def fullName (tracker : BlockTracker) (name : List Char) : List Char :=
  nameWithin tracker.currentModule? name

/-- A module has begun. -/
def inside (tracker : BlockTracker) (name : List Char) : BlockTracker :=
  { depth := tracker.depth + 1, modules := ⟨tracker.fullName name, tracker.depth⟩ :: tracker.modules }

variable {tracker : BlockTracker} {text : List Char}

theorem isStacked_nil : IsStacked {} := nofun

theorem IsStacked.within (h : tracker.IsStacked) : tracker.within.IsStacked :=
  fun m hm => Nat.lt_succ_of_lt (h m hm)

theorem IsStacked.inside (h : tracker.IsStacked) (name : List Char) :
    (tracker.inside name).IsStacked := by
  rw [IsStacked, BlockTracker.inside, List.forall_mem_cons]
  exact ⟨Nat.lt_succ_self _, fun m hm => Nat.lt_succ_of_lt (h m hm)⟩

theorem currentModule?_inside (tracker : BlockTracker) (name : List Char) :
    (tracker.inside name).currentModule? = some (tracker.fullName name) := rfl

theorem advance_eq (hOpening : moduleOpening? text = none) (tracker : BlockTracker) :
    tracker.advance text =
      { depth := tracker.depth + (blockDelta text).1 - (blockDelta text).2
        modules := tracker.modules.dropWhile fun m =>
          tracker.depth + (blockDelta text).1 - (blockDelta text).2 ≤ m.outerDepth } := by
  simp [advance, opened?, hOpening]

theorem dropWhile_modules {modules : List OpenModule} {depth : Nat}
    (h : ∀ m ∈ modules, m.outerDepth < depth) :
    modules.dropWhile (fun m => decide (depth ≤ m.outerDepth)) = modules := by
  cases modules with
  | nil => rfl
  | cons m modules =>
    rw [List.dropWhile_cons_of_neg (by simpa using h m List.mem_cons_self)]

/-- A line that closes the blocks that it opens. -/
theorem advance_level (hOpening : moduleOpening? text = none)
    (hBlocks : (blockDelta text).1 = (blockDelta text).2) (h : tracker.IsStacked) :
    tracker.advance text = tracker := by
  rw [advance_eq hOpening, hBlocks, Nat.add_sub_cancel, dropWhile_modules h]

/-- A line that opens one block more than it closes. -/
theorem advance_within (hOpening : moduleOpening? text = none)
    (hBlocks : (blockDelta text).1 = (blockDelta text).2 + 1) (h : tracker.IsStacked) :
    tracker.advance text = tracker.within := by
  have hDepth : tracker.depth + ((blockDelta text).2 + 1) - (blockDelta text).2 =
      tracker.depth + 1 := by omega
  have hStacked := dropWhile_modules h.within
  rw [within] at hStacked ⊢
  rw [advance_eq hOpening, hBlocks, hDepth]
  exact congrArg (BlockTracker.mk _) hStacked

theorem advance_inside {name : List Char} (hOpening : moduleOpening? text = some name)
    (hBlocks : (blockDelta text).1 = (blockDelta text).2 + 1) (h : tracker.IsStacked) :
    tracker.advance text = tracker.inside name := by
  have hDepth : tracker.depth + ((blockDelta text).2 + 1) - (blockDelta text).2 =
      tracker.depth + 1 := by omega
  have hStacked := dropWhile_modules (h.inside name)
  simp only [inside] at hStacked
  simp only [advance, opened?, hOpening, hBlocks, hDepth, Option.map_some, Option.toList_some,
    inside, List.map_cons, List.map_nil, List.singleton_append]
  exact congrArg (BlockTracker.mk _) hStacked

/-- A line that closes one block more than it opens. -/
theorem advance_outside (hOpening : moduleOpening? text = none)
    (hBlocks : (blockDelta text).2 = (blockDelta text).1 + 1) (h : tracker.IsStacked) :
    tracker.within.advance text = tracker ∧
      ∀ name, (tracker.inside name).advance text = tracker := by
  have hDepth : tracker.depth + 1 + (blockDelta text).1 - ((blockDelta text).1 + 1) =
      tracker.depth := by omega
  constructor
  · rw [advance_eq hOpening, hBlocks]
    simp only [within, hDepth]
    rw [dropWhile_modules h]
  · intro name
    rw [advance_eq hOpening, hBlocks]
    simp only [inside, hDepth]
    rw [List.dropWhile_cons_of_pos (by simp), dropWhile_modules h]

theorem moduleOpening?_end (width : Nat) :
    moduleOpening? (List.replicate width ' ' ++ "end".toList) = none := by
  have hEnd : Text.IsTrimmed "end".toList := by decide
  rw [moduleOpening?, hEnd.trimStart_append (Text.isBlank_indentation width)]
  decide

theorem advance_end (h : tracker.IsStacked) (width : Nat) :
    tracker.within.advance (List.replicate width ' ' ++ "end".toList) = tracker :=
  (advance_outside (moduleOpening?_end width) (by rw [(IsOwnLine.of_end width).blocks]) h).1

theorem advance_end_inside (h : tracker.IsStacked) (name : List Char) (width : Nat) :
    (tracker.inside name).advance (List.replicate width ' ' ++ "end".toList) = tracker :=
  (advance_outside (moduleOpening?_end width) (by rw [(IsOwnLine.of_end width).blocks]) h).2 name

theorem advance_call {line : CallLine} (hLine : line.WellFormed) (hName : line.name ≠ "defmodule")
    (h : tracker.IsStacked) (width : Nat) :
    tracker.advance (List.replicate width ' ' ++ line.text) =
      if line.opens then tracker.within else tracker := by
  have hOpening := hLine.moduleOpening?_text hName (Text.isBlank_indentation width)
  have hBlocks := (hLine.isOwnLine width).blocks
  cases hOpens : line.opens with
  | true =>
    rw [hOpens] at hBlocks
    exact advance_within hOpening (by rw [hBlocks]; rfl) h
  | false =>
    rw [hOpens] at hBlocks
    exact advance_level hOpening (by rw [hBlocks]; rfl) h

theorem advance_module (name : ModuleAlias) (h : tracker.IsStacked) (width : Nat) :
    tracker.advance (List.replicate width ' ' ++ (moduleCall name).text) = tracker.inside name.1 :=
  advance_inside (moduleOpening?_moduleCall name (Text.isBlank_indentation _))
    (by rw [((moduleCall_wellFormed name).isOwnLine width).blocks]; rfl) h

end BlockTracker

end PhoenixLens.Elixir
