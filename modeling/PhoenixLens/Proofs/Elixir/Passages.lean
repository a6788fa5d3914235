import PhoenixLens.Elixir.LogicalLine
import Mathlib.Data.List.Basic

/-!
# Passages

The physical lines of a source fall apart into passages, one for each logical line. A passage is a
stretch, or several of them that are joined; a stretch is a line, or a heredoc with the lines that
open and close it. Between two lines a reader knows what is unfinished of the passage that it is in.
-/

namespace PhoenixLens.Elixir

/-! ### Stretches -/

/-- A heredoc as far as it is read. -/
structure HeredocLines where
  opening : List Char
  /-- The text before it in that line, and the quotes that it stands between. -/
  before : List Char
  delimiter : List Char
  body : List (List Char) := []

/-- The lines neither end the heredoc nor go beyond it. -/
structure HeredocLines.IsSound (h : HeredocLines) : Prop where
  opens : heredocOpening? h.opening = some (h.before, h.delimiter)
  body : ∀ line ∈ h.body, h.delimiter.isPrefixOf? (Text.trimStart line) = none

def HeredocLines.physical (h : HeredocLines) : List (List Char) := h.opening :: h.body

/-- A line that opens no heredoc, or a heredoc with the line that closes it and what follows the
quotes there. -/
inductive Stretch where
  | line (text : List Char)
  | heredoc (lines : HeredocLines) (closing : Option (List Char × List Char))

namespace Stretch

def physical : Stretch → List (List Char)
  | line text => [text]
  | heredoc lines closing => lines.physical ++ (closing.map Prod.fst).toList

/-- An empty string takes the place of a heredoc. -/
def text : Stretch → List Char
  | line text => text
  | heredoc lines closing => lines.before ++ '"' :: '"' :: (closing.map Prod.snd).getD []

def heredoc? : Stretch → Option (List Char)
  | line _ => none
  | heredoc lines _ => some (dedent lines.body)

inductive IsSound : Stretch → Prop where
  | line {text : List Char} (h : heredocOpening? text = none) : IsSound (line text)
  | heredoc {lines : HeredocLines} {closing : Option (List Char × List Char)}
      (hLines : lines.IsSound)
      (hClosing : ∀ last ∈ closing,
        lines.delimiter.isPrefixOf? (Text.trimStart last.1) = some last.2) :
      IsSound (heredoc lines closing)

/-- Only the end of a source leaves a heredoc open. -/
def IsClosed : Stretch → Prop
  | line _ => True
  | heredoc _ closing => closing.isSome = true

theorem physical_ne_nil (stretch : Stretch) : stretch.physical ≠ [] := by
  cases stretch <;> exact List.cons_ne_nil _ _

end Stretch

/-! ### Passages -/

structure Passage where
  first : Stretch
  more : List Stretch := []

namespace Passage

def stretches (passage : Passage) : List Stretch := passage.first :: passage.more

def physical (passage : Passage) : List (List Char) := passage.stretches.flatMap Stretch.physical

/-- What is joined is trimmed and stands behind a blank. -/
def text (passage : Passage) : List Char :=
  passage.first.text ++ passage.more.flatMap fun stretch => ' ' :: Text.trim stretch.text

/-- The body of the first heredoc. -/
def heredoc? (passage : Passage) : Option (List Char) :=
  passage.stretches.findSome? Stretch.heredoc?

/-- The line that a reader gets. -/
def logical (n : Nat) (passage : Passage) : LogicalLine :=
  { line := n, text := passage.text, heredoc := passage.heredoc? }

/-- The number of physical lines. -/
def height (passage : Passage) : Nat := passage.physical.length

def heights (passages : List Passage) : Nat := (passages.flatMap physical).length

/-- The lines that a reader gets, numbered by their first physical lines from `n` on. -/
def read : Nat → List Passage → List LogicalLine
  | _, [] => []
  | n, passage :: passages => passage.logical n :: read (n + passage.height) passages

/-- The next stretch belongs to the passage. -/
def GoesOn (passage : Passage) : Prop :=
  needsContinuation passage.text = true ∧ passage.more.length < maxContinuations

instance (passage : Passage) : Decidable passage.GoesOn := inferInstanceAs (Decidable (_ ∧ _))

/-- The stretches stand for themselves, and each but the first one is needed by those before it. -/
structure IsSound (passage : Passage) : Prop where
  stretches : ∀ stretch ∈ passage.stretches, stretch.IsSound
  closed : ∀ stretch ∈ passage.stretches.dropLast, stretch.IsClosed
  joined : ∀ front stretch back, passage.more = front ++ stretch :: back →
    GoesOn { passage with more := front }

/-- Nothing is missing at the end. -/
structure IsComplete (passage : Passage) : Prop where
  closed : ∀ stretch ∈ passage.stretches, stretch.IsClosed
  ends : ¬passage.GoesOn

def append (passage : Passage) (stretch : Stretch) : Passage :=
  { passage with more := passage.more ++ [stretch] }

variable {passage : Passage} {passages more : List Passage} {stretch : Stretch} {n : Nat}

theorem height_pos (passage : Passage) : 0 < passage.height := by
  have hFirst : 0 < passage.first.physical.length :=
    List.length_pos_iff.mpr passage.first.physical_ne_nil
  rw [height, physical, stretches, List.flatMap_cons, List.length_append]
  omega

theorem stretches_append (passage : Passage) (stretch : Stretch) :
    (passage.append stretch).stretches = passage.stretches ++ [stretch] := rfl

theorem physical_append (passage : Passage) (stretch : Stretch) :
    (passage.append stretch).physical = passage.physical ++ stretch.physical := by
  rw [physical, stretches_append, List.flatMap_append, List.flatMap_singleton, physical]

theorem text_append (passage : Passage) (stretch : Stretch) :
    (passage.append stretch).text = passage.text ++ ' ' :: Text.trim stretch.text := by
  rw [text, append, List.flatMap_append, List.flatMap_singleton, text, List.append_assoc]

theorem heredoc?_append (passage : Passage) (stretch : Stretch) :
    (passage.append stretch).heredoc? = passage.heredoc?.or stretch.heredoc? := by
  have hLast : [stretch].findSome? Stretch.heredoc? = stretch.heredoc? := by
    rw [List.findSome?_cons]
    cases stretch.heredoc? <;> rfl
  rw [heredoc?, stretches_append, List.findSome?_append, hLast, heredoc?]

namespace IsSound

theorem singleton (h : stretch.IsSound) : IsSound { first := stretch } where
  stretches := List.forall_mem_singleton.mpr h
  closed := List.forall_mem_nil _
  joined front other back hMore := absurd hMore (by simp)

theorem append (h : passage.IsSound) (hClosed : ∀ other ∈ passage.stretches, other.IsClosed)
    (hGoesOn : passage.GoesOn) (hStretch : stretch.IsSound) : (passage.append stretch).IsSound where
  stretches := by
    rw [stretches_append, List.forall_mem_append, List.forall_mem_singleton]
    exact ⟨h.stretches, hStretch⟩
  closed := by
    rw [stretches_append, List.dropLast_concat]
    exact hClosed
  joined front other back hMore := by
    rcases List.append_eq_append_iff.mp hMore with ⟨rest, hFront, hRest⟩ | ⟨rest, hOwn, hRest⟩
    · cases rest with
      | nil =>
        rw [List.append_nil] at hFront
        rw [hFront]
        exact hGoesOn
      | cons other rest => simp at hRest
    · cases rest with
      | nil =>
        rw [List.append_nil] at hOwn
        rw [← hOwn]
        exact hGoesOn
      | cons other rest =>
        cases hRest
        exact h.joined front other rest hOwn

/-- No passage is longer than the limit allows. -/
theorem length_more_le (h : passage.IsSound) : passage.more.length ≤ maxContinuations := by
  rcases List.eq_nil_or_concat' passage.more with hNil | ⟨front, last, hMore⟩
  · rw [hNil]
    exact Nat.zero_le _
  · have hBound := (h.joined front last [] hMore).2
    rw [hMore, List.length_append]
    exact hBound

/-- A line that opens no heredoc and needs no other one is a passage of its own. -/
theorem eq_line (h : passage.IsSound) {line : List Char} (hLine : line ∈ passage.physical.head?)
    (hOpening : heredocOpening? line = none) (hEnds : needsContinuation line = false) :
    passage = { first := .line line } := by
  obtain ⟨first, more⟩ := passage
  have hFirst : first = .line line := by
    cases h.stretches first List.mem_cons_self with
    | line _ =>
      cases hLine
      rfl
    | heredoc hLines _ =>
      cases hLine
      have hOpens := hLines.opens
      rw [hOpening] at hOpens
      cases hOpens
  have hMore : more = [] := by
    cases more with
    | nil => rfl
    | cons stretch more =>
      have hNeeds := (h.joined [] stretch more rfl).1
      have hText : text { first, more := [] } = line := by
        rw [hFirst]
        exact List.append_nil line
      rw [hText, hEnds] at hNeeds
      cases hNeeds
  rw [hFirst, hMore]

end IsSound

/-! #### Numbers of lines -/

theorem heights_cons (passage : Passage) (passages : List Passage) :
    heights (passage :: passages) = passage.height + heights passages := by
  rw [heights, List.flatMap_cons, List.length_append, height, heights]

theorem read_append (n : Nat) (passages more : List Passage) :
    read n (passages ++ more) = read n passages ++ read (n + heights passages) more := by
  induction passages generalizing n with
  | nil => rfl
  | cons passage passages ih =>
    rw [List.cons_append, read, ih, read, heights_cons, List.cons_append, Nat.add_assoc]

theorem line_of_mem_read {line : LogicalLine} (h : line ∈ read n passages) :
    n ≤ line.line ∧ line.line < n + heights passages := by
  induction passages generalizing n with
  | nil => cases h
  | cons passage passages ih =>
    have hHeight := passage.height_pos
    rw [heights_cons]
    rcases List.mem_cons.mp h with rfl | hRest
    · exact ⟨Nat.le_refl n, show n < _ by omega⟩
    · have hBounds := ih hRest
      omega

theorem head?_read (n : Nat) (passages : List Passage) :
    (read n passages).head?.map LogicalLine.line =
      (passages.flatMap physical).head?.map (fun _ => n) := by
  cases passages with
  | nil => rfl
  | cons passage passages =>
    obtain ⟨line, lines, hPhysical⟩ :=
      List.exists_cons_of_ne_nil (List.length_pos_iff.mp passage.height_pos)
    rw [read, List.flatMap_cons, hPhysical]
    rfl

theorem pairwise_read (n : Nat) (passages : List Passage) :
    (read n passages).Pairwise fun line later => line.line < later.line := by
  induction passages generalizing n with
  | nil => exact .nil
  | cons passage passages ih =>
    refine .cons (fun later hLater => ?_) (ih _)
    have hBounds := line_of_mem_read hLater
    have hHeight := passage.height_pos
    change n < later.line
    omega

end Passage

/-! ### Reading -/

/-- What is unfinished between two lines: a passage that goes on, and a heredoc that is open. -/
structure Gathering where
  passage : Option Passage := none
  heredoc : Option HeredocLines := none

namespace Gathering

def add (gathering : Gathering) (stretch : Stretch) : Passage :=
  match gathering.passage with
  | none => { first := stretch }
  | some passage => passage.append stretch

/-- Keeps a passage that goes on. -/
def settle (passage : Passage) : Gathering × List Passage :=
  if passage.GoesOn then ({ passage := some passage }, []) else ({}, [passage])

/-- Takes up a line, and gives the passage that it completes. -/
def takeLine (gathering : Gathering) (line : List Char) : Gathering × List Passage :=
  match gathering.heredoc with
  | some h =>
    match h.delimiter.isPrefixOf? (Text.trimStart line) with
    | some rest => settle (gathering.add (.heredoc h (some (line, rest))))
    | none => ({ gathering with heredoc := some { h with body := h.body ++ [line] } }, [])
  | none =>
    match heredocOpening? line with
    | some (before, delimiter) =>
      ({ gathering with heredoc := some { opening := line, before, delimiter } }, [])
    | none => settle (gathering.add (.line line))

/-- What is left when the lines end. -/
def finish (gathering : Gathering) : List Passage :=
  match gathering.heredoc with
  | some h => [gathering.add (.heredoc h none)]
  | none => gathering.passage.toList

/-- The passages of lines that follow what is unfinished. -/
def passages (gathering : Gathering) : List (List Char) → List Passage
  | [] => gathering.finish
  | line :: lines => (gathering.takeLine line).2 ++ (gathering.takeLine line).1.passages lines

/-! #### Lines are kept -/

/-- The lines of the unfinished passage before the heredoc. -/
def begun (gathering : Gathering) : List (List Char) :=
  (gathering.passage.map Passage.physical).getD []

def physical (gathering : Gathering) : List (List Char) :=
  gathering.begun ++ (gathering.heredoc.map HeredocLines.physical).getD []

theorem physical_add (gathering : Gathering) (stretch : Stretch) :
    (gathering.add stretch).physical = gathering.begun ++ stretch.physical := by
  rw [add, begun]
  cases gathering.passage with
  | none => exact List.flatMap_singleton _ _
  | some passage => exact passage.physical_append stretch

theorem physical_settle (passage : Passage) :
    (settle passage).2.flatMap Passage.physical ++ (settle passage).1.physical =
      passage.physical := by
  rw [settle]
  split
  · exact List.append_nil _
  · simp [physical, begun]

theorem physical_takeLine (gathering : Gathering) (line : List Char) :
    (gathering.takeLine line).2.flatMap Passage.physical ++ (gathering.takeLine line).1.physical =
      gathering.physical ++ [line] := by
  rw [takeLine]
  cases hHeredoc : gathering.heredoc with
  | some h =>
    simp only
    split
    · rw [physical_settle, physical_add]
      simp [physical, hHeredoc, Stretch.physical]
    · simp [physical, begun, hHeredoc, HeredocLines.physical]
  | none =>
    simp only
    split
    · simp [physical, begun, hHeredoc, HeredocLines.physical]
    · rw [physical_settle, physical_add]
      simp [physical, hHeredoc, Stretch.physical]

theorem physical_finish (gathering : Gathering) :
    gathering.finish.flatMap Passage.physical = gathering.physical := by
  rw [finish, physical]
  cases gathering.heredoc with
  | some h =>
    rw [List.flatMap_singleton, physical_add, Stretch.physical]
    simp
  | none =>
    rw [begun]
    cases gathering.passage <;> simp

theorem physical_passages (gathering : Gathering) (lines : List (List Char)) :
    (gathering.passages lines).flatMap Passage.physical = gathering.physical ++ lines := by
  induction lines generalizing gathering with
  | nil => rw [passages, physical_finish, List.append_nil]
  | cons line lines ih =>
    rw [passages, List.flatMap_append, ih, ← List.append_assoc, physical_takeLine,
      List.append_assoc, List.singleton_append]

/-! #### What a reader knows -/

/-- What is unfinished for a reader, where the first line of it has the given number. -/
def joining (gathering : Gathering) (start : Nat) : Joining where
  draft := gathering.passage.map fun passage =>
    { passage.logical start with continuations := passage.more.length }
  heredoc := gathering.heredoc.map fun h =>
    { line := start + gathering.begun.length
      before := h.before
      delimiter := h.delimiter
      body := h.body.reverse }

theorem extend_joining (gathering : Gathering) (start : Nat) (stretch : Stretch) :
    extend (gathering.joining start).draft (start + gathering.begun.length) stretch.text
        stretch.heredoc? =
      { (gathering.add stretch).logical start with
        continuations := (gathering.add stretch).more.length } := by
  rw [joining, add, begun]
  cases gathering.passage with
  | none =>
    have hHeredoc : Passage.heredoc? { first := stretch } = stretch.heredoc? := by
      rw [Passage.heredoc?, Passage.stretches, List.findSome?_cons]
      cases stretch.heredoc? <;> rfl
    simp [extend, Passage.logical, Passage.text, hHeredoc]
  | some passage =>
    simp only [Option.map_some, extend, Passage.logical, passage.text_append,
      passage.heredoc?_append]
    simp [Passage.append]

theorem settle_joining (passage : Passage) (start : Nat) :
    Elixir.settle { passage.logical start with continuations := passage.more.length } =
      ((settle passage).1.joining (start + Passage.heights (settle passage).2),
        Passage.read start (settle passage).2) := by
  have hGoesOn : (needsContinuation passage.text &&
      decide (passage.more.length < maxContinuations)) = decide passage.GoesOn := by
    rw [Bool.eq_iff_iff, Bool.and_eq_true, decide_eq_true_iff, decide_eq_true_iff]
    rfl
  rw [Elixir.settle, settle, Passage.logical, hGoesOn]
  by_cases h : passage.GoesOn
  · rw [if_pos h, decide_eq_true h, if_pos rfl]
    rfl
  · rw [if_neg h, decide_eq_false h, if_neg Bool.false_ne_true]
    rfl

theorem takeLine_joining (gathering : Gathering) (start : Nat) (line : List Char) :
    Elixir.takeLine (gathering.joining start) (start + gathering.physical.length) line =
      ((gathering.takeLine line).1.joining
          (start + Passage.heights (gathering.takeLine line).2),
        Passage.read start (gathering.takeLine line).2) := by
  rw [Elixir.takeLine, takeLine]
  cases hHeredoc : gathering.heredoc with
  | some h =>
    have hOpen : (gathering.joining start).heredoc = some
        { line := start + gathering.begun.length, before := h.before, delimiter := h.delimiter,
          body := h.body.reverse } := by
      rw [joining, hHeredoc]
      rfl
    simp only [hOpen]
    cases h.delimiter.isPrefixOf? (Text.trimStart line) with
    | some rest =>
      simp only
      rw [← settle_joining, closeHeredoc, List.reverse_reverse, ← extend_joining]
      rfl
    | none => simp [joining, begun, Passage.heights, Passage.read]
  | none =>
    have hNone : (gathering.joining start).heredoc = none := by
      rw [joining, hHeredoc]
      rfl
    have hHeight : gathering.physical.length = gathering.begun.length := by
      rw [physical, hHeredoc]
      simp
    simp only [hNone]
    cases heredocOpening? line with
    | some opening => simp [joining, hHeight, begun, Passage.heights, Passage.read]
    | none =>
      simp only
      rw [← settle_joining, ← extend_joining, hHeight]
      rfl

theorem finish_joining (gathering : Gathering) (start : Nat) :
    Elixir.finish (gathering.joining start) = Passage.read start gathering.finish := by
  rw [Elixir.finish, finish]
  cases hHeredoc : gathering.heredoc with
  | some h =>
    have hOpen : (gathering.joining start).heredoc = some
        { line := start + gathering.begun.length, before := h.before, delimiter := h.delimiter,
          body := h.body.reverse } := by
      rw [joining, hHeredoc]
      rfl
    have hDraft := gathering.extend_joining start (.heredoc h none)
    simp only [hOpen]
    rw [closeHeredoc, List.reverse_reverse]
    exact congrArg (fun draft : Draft => [draft.toLogicalLine]) hDraft
  | none =>
    rw [joining, hHeredoc]
    cases gathering.passage <;> rfl

/-- A reader gets a line for each passage. -/
theorem joinLines_joining (gathering : Gathering) (start : Nat) (lines : List (List Char)) :
    joinLines (gathering.joining start) (start + gathering.physical.length) lines =
      Passage.read start (gathering.passages lines) := by
  induction lines generalizing gathering start with
  | nil => rw [joinLines, passages, finish_joining]
  | cons line lines ih =>
    have hLengths := congrArg List.length (gathering.physical_takeLine line)
    rw [List.length_append, List.length_append, List.length_singleton] at hLengths
    have hNext : start + gathering.physical.length + 1 =
        start + Passage.heights (gathering.takeLine line).2 +
          (gathering.takeLine line).1.physical.length := by
      rw [Passage.heights]
      omega
    rw [joinLines, takeLine_joining, passages, Passage.read_append, hNext]
    exact congrArg _ (ih _ _)

/-! #### Passages are sound -/

structure IsSound (gathering : Gathering) : Prop where
  passage : ∀ passage ∈ gathering.passage, passage.IsSound ∧
    (∀ stretch ∈ passage.stretches, stretch.IsClosed) ∧ passage.GoesOn
  heredoc : ∀ h ∈ gathering.heredoc, h.IsSound

variable {gathering : Gathering} {passage : Passage} {stretch : Stretch}

theorem dropLast_finish (gathering : Gathering) : gathering.finish.dropLast = [] := by
  rw [finish]
  cases gathering.heredoc with
  | some h => rfl
  | none => cases gathering.passage <;> rfl

theorem isSound_start : IsSound {} := ⟨nofun, nofun⟩

namespace IsSound

theorem add (h : gathering.IsSound) (hStretch : stretch.IsSound) :
    (gathering.add stretch).IsSound ∧
      (stretch.IsClosed → ∀ other ∈ (gathering.add stretch).stretches, other.IsClosed) := by
  rw [Gathering.add]
  cases hPassage : gathering.passage with
  | none => exact ⟨.singleton hStretch, fun hClosed => List.forall_mem_singleton.mpr hClosed⟩
  | some passage =>
    obtain ⟨hSound, hAll, hGoesOn⟩ := h.passage passage hPassage
    refine ⟨hSound.append hAll hGoesOn hStretch, fun hClosed => ?_⟩
    rw [Passage.stretches_append, List.forall_mem_append, List.forall_mem_singleton]
    exact ⟨hAll, hClosed⟩

end IsSound

theorem isSound_settle (h : passage.IsSound)
    (hClosed : ∀ stretch ∈ passage.stretches, stretch.IsClosed) :
    (settle passage).1.IsSound ∧
      ∀ other ∈ (settle passage).2, other.IsSound ∧ other.IsComplete := by
  rw [settle]
  split
  · rename_i hGoesOn
    refine ⟨⟨fun other hOther => ?_, nofun⟩, List.forall_mem_nil _⟩
    cases hOther
    exact ⟨h, hClosed, hGoesOn⟩
  · rename_i hEnds
    exact ⟨isSound_start, List.forall_mem_singleton.mpr ⟨h, hClosed, hEnds⟩⟩

namespace IsSound

theorem takeLine (h : gathering.IsSound) (line : List Char) :
    (gathering.takeLine line).1.IsSound ∧
      ∀ passage ∈ (gathering.takeLine line).2, passage.IsSound ∧ passage.IsComplete := by
  rw [Gathering.takeLine]
  cases hHeredoc : gathering.heredoc with
  | some lines =>
    have hLines := h.heredoc lines hHeredoc
    simp only
    split
    · rename_i rest hRest
      have hStretch : (Stretch.heredoc lines (some (line, rest))).IsSound :=
        .heredoc hLines fun last hLast => by cases hLast; exact hRest
      exact isSound_settle (h.add hStretch).1 ((h.add hStretch).2 rfl)
    · rename_i hBody
      refine ⟨⟨h.passage, fun other hOther => ?_⟩, List.forall_mem_nil _⟩
      cases hOther
      refine ⟨hLines.opens, ?_⟩
      rw [List.forall_mem_append, List.forall_mem_singleton]
      exact ⟨hLines.body, hBody⟩
  | none =>
    simp only
    split
    · rename_i before delimiter hOpening
      refine ⟨⟨h.passage, fun other hOther => ?_⟩, List.forall_mem_nil _⟩
      cases hOther
      exact ⟨hOpening, List.forall_mem_nil _⟩
    · rename_i hOpening
      have hStretch := h.add (Stretch.IsSound.line hOpening)
      exact isSound_settle hStretch.1 (hStretch.2 trivial)

theorem finish (h : gathering.IsSound) : ∀ passage ∈ gathering.finish, passage.IsSound := by
  rw [Gathering.finish]
  cases hHeredoc : gathering.heredoc with
  | some lines =>
    have hStretch : (Stretch.heredoc lines none).IsSound :=
      .heredoc (h.heredoc lines hHeredoc) (by rintro _ ⟨⟩)
    exact List.forall_mem_singleton.mpr (h.add hStretch).1
  | none =>
    intro passage hPassage
    exact (h.passage passage (Option.mem_toList.mp hPassage)).1

theorem passages (h : gathering.IsSound) (lines : List (List Char)) :
    (∀ passage ∈ gathering.passages lines, passage.IsSound) ∧
      ∀ passage ∈ (gathering.passages lines).dropLast, passage.IsComplete := by
  induction lines generalizing gathering with
  | nil =>
    refine ⟨h.finish, ?_⟩
    rw [Gathering.passages, dropLast_finish]
    exact List.forall_mem_nil _
  | cons line lines ih =>
    obtain ⟨hNext, hTaken⟩ := h.takeLine line
    obtain ⟨hRest, hBefore⟩ := ih hNext
    rw [Gathering.passages, List.forall_mem_append]
    refine ⟨⟨fun passage hPassage => (hTaken passage hPassage).1, hRest⟩, ?_⟩
    rw [List.dropLast_append]
    split
    · exact fun passage hPassage => (hTaken passage (List.dropLast_subset _ hPassage)).2
    · rw [List.forall_mem_append]
      exact ⟨fun passage hPassage => (hTaken passage hPassage).2, hBefore⟩

end IsSound

end Gathering

/-! ### Sources -/

/-- The lines fall apart into the passages. -/
structure Passage.Divide (lines : List (List Char)) (passages : List Passage) : Prop where
  physical : passages.flatMap Passage.physical = lines
  isSound : ∀ passage ∈ passages, passage.IsSound
  isComplete : ∀ passage ∈ passages.dropLast, passage.IsComplete

/-- Every source falls apart into passages, of which each is read as one line with the number of its
first physical line. -/
theorem logicalLines_divide (source : List Char) :
    ∃ passages, Passage.Divide (Text.lines source) passages ∧
      logicalLines source = Passage.read 1 passages := by
  let start : Gathering := {}
  obtain ⟨hSound, hComplete⟩ := Gathering.isSound_start.passages (Text.lines source)
  exact ⟨_, ⟨start.physical_passages _, hSound, hComplete⟩, start.joinLines_joining 1 _⟩

example : logicalLines "x = f(1,\n  \"\"\"\n  two\n  \"\"\"\n)\ny".toList =
    [{ line := 1, text := "x = f(1, \"\" )".toList, heredoc := some "two".toList },
      { line := 6, text := "y".toList }] := by decide

end PhoenixLens.Elixir
