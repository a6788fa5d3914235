import PhoenixLens.Elixir.Scan
import PhoenixLens.Proofs.Elixir.ComponentReading
import PhoenixLens.Proofs.Model.Clauses

/-!
# Scanning function components

The scan takes line after line. Every line that a tree is written in does to the state what it stands
for, so that the scan of a tree finds the clauses in it, one after the other.
-/

namespace PhoenixLens.Elixir

namespace ComponentState

/-! ### Steps -/

section

variable {state : ComponentState} {tracker other : BlockTracker} {attributes : List Attribute}
  {slots : List Slot} {found : List Component} {file : Path} {n width depth : Nat}

theorem tracker_define (state : ComponentState) (file : Path) (n : Nat) (name : List Char)
    (isComponent : Bool) : (state.define file n name isComponent).tracker = state.tracker := by
  rw [define]
  split
  · split <;> rfl
  · rfl

theorem tracker_apply (state : ComponentState) (file : Path) (n : Nat) (line : ComponentLine) :
    (state.apply file n line).tracker = state.tracker := by
  cases line with
  | nothing => rfl
  | declaresAttribute declared =>
    cases declared with
    | none => rfl
    | some declared =>
      rw [apply]
      split <;> rfl
  | declaresSlot declared opensBlock =>
    cases declared with
    | none => rfl
    | some slot =>
      rw [apply]
      split <;> rfl
  | defines name isComponent => exact tracker_define _ _ _ _ _

/-- What a line does that is no documentation. -/
theorem takeLine_eq {line : LogicalLine} {content : ComponentLine} (hDoc : docOf? line = none)
    (hRead : readComponentLine line = content) (hBlocks : state.tracker.advance line.text = tracker) :
    state.takeLine file line =
      ({ state.apply file line.line content with tracker } : ComponentState).closeSlot := by
  rw [takeLine, hDoc, Option.isSome_none, if_neg Bool.false_ne_true, hRead, settle, tracker_apply,
    hBlocks]

theorem takeLine_attr {declared : AttributeDeclaration} (h : declared.IsPlain)
    (hStacked : tracker.IsStacked) :
    takeLine { tracker, attributes, slots, found } file
        ((indented width depth declared.line.text).logical n) =
      { tracker, attributes := attributes ++ [declared.declared], slots, found } := by
  have hWell := AttributeDeclaration.wellFormed h
  have hBlanks := Text.isBlank_indentation (width * depth)
  exact takeLine_eq (hWell.docOf?_text hBlanks n none) (readComponentLine_attr h)
    (BlockTracker.advance_call hWell (show "attr" ≠ "defmodule" by decide) hStacked (width * depth))

theorem closeSlot_within (slot : Slot) :
    closeSlot
        { tracker := tracker.within, attributes, slots, openSlot := some ⟨slot, tracker.depth⟩
          found } =
      { tracker := tracker.within, attributes, slots, openSlot := some ⟨slot, tracker.depth⟩, found } :=
  if_neg (Nat.not_succ_le_self tracker.depth)

theorem closeSlot_end (slot : Slot) :
    closeSlot { tracker, attributes, slots, openSlot := some ⟨slot, tracker.depth⟩, found } =
      { tracker, attributes, slots := slots ++ [slot], found } := if_pos (Nat.le_refl tracker.depth)

/-- In the block of a slot, an attribute belongs to the slot. -/
theorem takeLine_slotAttr {declared : AttributeDeclaration} (h : declared.IsPlain)
    (hStacked : tracker.IsStacked) (slot : Slot) :
    takeLine
        { tracker := tracker.within, attributes, slots, openSlot := some ⟨slot, tracker.depth⟩
          found }
        file ((indented width depth declared.line.text).logical n) =
      { tracker := tracker.within
        attributes
        slots
        openSlot := some
          ⟨{ slot with attributes := slot.attributes ++ [declared.declared] }, tracker.depth⟩
        found } := by
  have hWell := AttributeDeclaration.wellFormed h
  have hBlanks := Text.isBlank_indentation (width * depth)
  have hBlocks : tracker.within.advance (List.replicate (width * depth) ' ' ++ declared.line.text) =
      tracker.within :=
    BlockTracker.advance_call hWell (show "attr" ≠ "defmodule" by decide) hStacked.within _
  exact (takeLine_eq (hWell.docOf?_text hBlanks n none) (readComponentLine_attr h) hBlocks).trans
    (closeSlot_within _)

theorem takeLine_slot (declared : SlotDeclaration) (hStacked : tracker.IsStacked) :
    takeLine { tracker, attributes, slots, found } file
        ((indented width depth (declared.line false).text).logical n) =
      { tracker, attributes, slots := slots ++ [declared.declared []], found } := by
  have hWell := declared.wellFormed false
  have hBlanks := Text.isBlank_indentation (width * depth)
  exact takeLine_eq (hWell.docOf?_text hBlanks n none) (readComponentLine_slot declared false)
    (BlockTracker.advance_call hWell (show "slot" ≠ "defmodule" by decide) hStacked (width * depth))

theorem takeLine_slotBlock (declared : SlotDeclaration) (hStacked : tracker.IsStacked) :
    takeLine { tracker, attributes, slots, found } file
        ((indented width depth (declared.line true).text).logical n) =
      { tracker := tracker.within
        attributes
        slots
        openSlot := some ⟨declared.declared [], tracker.depth⟩
        found } := by
  have hWell := declared.wellFormed true
  have hBlanks := Text.isBlank_indentation (width * depth)
  have hBlocks := BlockTracker.advance_call hWell (show "slot" ≠ "defmodule" by decide) hStacked
    (width * depth)
  exact (takeLine_eq (hWell.docOf?_text hBlanks n none) (readComponentLine_slot declared true)
    hBlocks).trans (closeSlot_within _)

/-- A line that declares nothing. -/
theorem takeLine_nothing {line : LogicalLine} (hDoc : docOf? line = none)
    (hRead : readComponentLine line = .nothing) (hBlocks : tracker.advance line.text = other) :
    takeLine { tracker, attributes, slots, found } file line =
      { tracker := other, attributes, slots, found } := takeLine_eq hDoc hRead hBlocks

theorem takeLine_blank (hStacked : tracker.IsStacked) :
    takeLine { tracker, attributes, slots, found } file ((SourceLine.line []).logical n) =
      { tracker, attributes, slots, found } := by
  exact takeLine_nothing rfl (readComponentLine_nothing rfl rfl rfl)
    (BlockTracker.advance_level rfl rfl hStacked)

theorem takeLine_end (hBlocks : other.advance (List.replicate (width * depth) ' ' ++ "end".toList) =
    tracker) :
    takeLine { tracker := other, attributes, slots, found } file
        ((indented width depth "end".toList).logical n) =
      { tracker, attributes, slots, found } :=
  takeLine_nothing docOf?_end readComponentLine_end hBlocks

theorem takeLine_template (hStacked : tracker.IsStacked) (heredoc : Option (List Char)) :
    takeLine { tracker, attributes, slots, found } file
        { line := n, text := templateText width, heredoc } =
      { tracker, attributes, slots, found } := by
  refine takeLine_nothing (docOf?_template heredoc) (readComponentLine_template heredoc) ?_
  refine BlockTracker.advance_level (moduleOpening?_template width) ?_ hStacked
  rw [(isOwnLine_template width).blocks]

theorem takeLine_module (name : ModuleAlias) (hStacked : tracker.IsStacked) :
    takeLine { tracker, attributes, slots, found } file
        ((indented width depth (moduleCall name).text).logical n) =
      { tracker := tracker.inside name.1, attributes, slots, found } :=
  takeLine_nothing (docOf?_module name) (readComponentLine_module name)
    (BlockTracker.advance_module name hStacked (width * depth))

theorem takeLine_slotEnd (hStacked : tracker.IsStacked) (slot : Slot) :
    takeLine
        { tracker := tracker.within, attributes, slots, openSlot := some ⟨slot, tracker.depth⟩
          found }
        file ((indented width depth "end".toList).logical n) =
      { tracker, attributes, slots := slots ++ [slot], found } :=
  (takeLine_eq docOf?_end readComponentLine_end
    (BlockTracker.advance_end hStacked (width * depth))).trans (closeSlot_end slot)

/-- A definition takes what is declared before it. -/
theorem takeLine_defines {clause : FunctionClause} {line : LogicalLine} (hDoc : docOf? line = none)
    (hRead : readComponentLine line = .defines clause.name.text clause.isComponent)
    (hBlocks : tracker.advance line.text = other) :
    takeLine { tracker, attributes, slots, found } file line =
      { tracker := other
        found := (clause.component? file tracker.currentModule? line.line attributes slots).toList.foldl
          addClause found } := by
  refine (takeLine_eq hDoc hRead hBlocks).trans ?_
  simp only [apply, define, FunctionClause.component?]
  cases tracker.currentModule? with
  | none => rfl
  | some moduleName => cases clause.isComponent <;> rfl

end

/-! ### Runs -/

/-- The state after lines, the first of them numbered `n`. -/
def scanned (file : Path) (state : ComponentState) (n : Nat) (lines : List SourceLine) :
    ComponentState :=
  SourceLine.run (fun state line => takeLine state file line) state n lines

section

variable {state : ComponentState} {tracker : BlockTracker} {attributes : List Attribute}
  {slots : List Slot} {found : List Component} {file : Path} {n width depth : Nat}

theorem scanned_append (state : ComponentState) (n : Nat) (lines more : List SourceLine) :
    scanned file state n (lines ++ more) =
      scanned file (scanned file state n lines) (n + SourceLine.heights lines) more :=
  SourceLine.run_append _ state n lines more

theorem scanned_cons (state : ComponentState) (n : Nat) (written : SourceLine)
    (lines : List SourceLine) :
    scanned file state n (written :: lines) =
      scanned file (state.takeLine file (written.logical n)) (n + written.height) lines := rfl

theorem scanned_slotAttributes {declared : List AttributeDeclaration}
    (h : ∀ a ∈ declared, a.IsPlain) (hStacked : tracker.IsStacked) (slot : Slot) :
    scanned file
        { tracker := tracker.within, attributes, slots, openSlot := some ⟨slot, tracker.depth⟩, found } n
        (declared.map fun a => indented width depth a.line.text) =
      { tracker := tracker.within
        attributes
        slots
        openSlot := some
          ⟨{ slot with attributes := slot.attributes ++ declared.map AttributeDeclaration.declared },
            tracker.depth⟩
        found } := by
  induction declared generalizing slot n with
  | nil =>
    rw [List.map_nil, List.map_nil, List.append_nil]
    rfl
  | cons a declared ih =>
    obtain ⟨hFirst, hRest⟩ := List.forall_mem_cons.mp h
    rw [List.map_cons, scanned_cons, takeLine_slotAttr hFirst hStacked, ih hRest, List.map_cons]
    simp

/-- What is declared waits for a definition. -/
theorem scanned_declaration {declared : ComponentDeclaration} (h : declared.IsPlain)
    (hStacked : tracker.IsStacked) :
    scanned file { tracker, attributes, slots, found } n (declared.lines width depth) =
      { tracker
        attributes := attributes ++ declared.attribute?.toList
        slots := slots ++ declared.slot?.toList
        found } := by
  cases declared with
  | blank =>
    refine (takeLine_blank hStacked).trans ?_
    simp [ComponentDeclaration.attribute?, ComponentDeclaration.slot?]
  | attr declared =>
    refine (takeLine_attr h hStacked).trans ?_
    simp [ComponentDeclaration.attribute?, ComponentDeclaration.slot?]
  | slot declared =>
    refine (takeLine_slot declared hStacked).trans ?_
    simp [ComponentDeclaration.attribute?, ComponentDeclaration.slot?]
  | slotBlock declared inner =>
    rw [ComponentDeclaration.lines, scanned_cons, takeLine_slotBlock declared hStacked, scanned_append,
      scanned_slotAttributes h hStacked]
    refine (takeLine_slotEnd hStacked _).trans ?_
    simp [ComponentDeclaration.attribute?, ComponentDeclaration.slot?, SlotDeclaration.declared]

theorem heights_declaration (width depth : Nat) (declared : ComponentDeclaration)
    (declarations : List ComponentDeclaration) :
    heightOf (declared :: declarations) =
      SourceLine.heights (declared.lines width depth) + heightOf declarations := by
  cases declared with
  | slotBlock declared inner =>
    have hInner : SourceLine.heights (inner.map fun a => indented width (depth + 1) a.line.text) =
        inner.length := by
      induction inner with
      | nil => rfl
      | cons a inner ih =>
        rw [List.map_cons, SourceLine.heights_cons, ih, List.length_cons, Nat.add_comm]
        rfl
    rw [heightOf, ComponentDeclaration.lines, SourceLine.heights_cons, SourceLine.heights_append, hInner]
    simp only [Nat.add_assoc]
    rfl
  | _ => rfl

theorem heights_declarations (width depth : Nat) (declarations : List ComponentDeclaration) :
    SourceLine.heights (declarations.flatMap (ComponentDeclaration.lines width depth)) =
      heightOf declarations := by
  induction declarations with
  | nil => rfl
  | cons declared declarations ih =>
    rw [List.flatMap_cons, SourceLine.heights_append, ih, heights_declaration width depth]

theorem scanned_declarations {declarations : List ComponentDeclaration}
    (h : ∀ declared ∈ declarations, declared.IsPlain) (hStacked : tracker.IsStacked) :
    scanned file { tracker, attributes, slots, found } n
        (declarations.flatMap (ComponentDeclaration.lines width depth)) =
      { tracker
        attributes := attributes ++ declarations.filterMap ComponentDeclaration.attribute?
        slots := slots ++ declarations.filterMap ComponentDeclaration.slot?
        found } := by
  induction declarations generalizing attributes slots n with
  | nil => simp [scanned, SourceLine.run, SourceLine.read]
  | cons declared declarations ih =>
    obtain ⟨hFirst, hRest⟩ := List.forall_mem_cons.mp h
    have hAttributes : (declared :: declarations).filterMap ComponentDeclaration.attribute? =
        declared.attribute?.toList ++ declarations.filterMap ComponentDeclaration.attribute? := by
      rw [List.filterMap_cons]
      cases declared.attribute? <;> rfl
    have hSlots : (declared :: declarations).filterMap ComponentDeclaration.slot? =
        declared.slot?.toList ++ declarations.filterMap ComponentDeclaration.slot? := by
      rw [List.filterMap_cons]
      cases declared.slot? <;> rfl
    rw [List.flatMap_cons, scanned_append, scanned_declaration hFirst hStacked, ih hRest, hAttributes,
      hSlots, List.append_assoc, List.append_assoc]

end

section

variable {tracker : BlockTracker} {attributes : List Attribute} {slots : List Slot}
  {found : List Component} {file : Path} {n width depth : Nat}

theorem heights_function (width depth : Nat) (function : FunctionClause) :
    SourceLine.heights (function.lines width depth) = function.height := by
  rw [FunctionClause.lines, FunctionClause.height]
  cases function.body with
  | template lines =>
    simp [SourceLine.heights, SourceLine.physical, indented]
  | expression text => rfl

theorem scanned_function {function : FunctionClause} (h : function.IsPlain)
    (hStacked : tracker.IsStacked) :
    scanned file { tracker, attributes, slots, found } n (function.lines width depth) =
      { tracker
        found := (function.component? file tracker.currentModule? n attributes slots).toList.foldl
          addClause found } := by
  have hBlanks := Text.isBlank_indentation (width * depth)
  have hBody := h.body
  rw [FunctionClause.lines]
  cases hCase : function.body with
  | template lines =>
    have hDelta := (FunctionClause.isOwnLine_do h.arguments (width * depth)).blocks
    have hBlocks := BlockTracker.advance_within (function.moduleOpening?_head hBlanks " do".toList)
      (by rw [hDelta]) hStacked
    refine (congrArg (scanned file · (n + 1) _) (takeLine_defines (function.docOf?_head hBlanks _ n)
      (FunctionClause.readComponentLine_head hBlanks h.arguments
        (FunctionClause.isTrimmed_do h.arguments) n) hBlocks)).trans ?_
    have hText : List.replicate (width * (depth + 1)) ' ' ++ "~H".toList ++ ['"', '"'] =
        templateText (width * (depth + 1)) := List.append_assoc _ _ _
    rw [scanned_cons, SourceLine.logical, hText, takeLine_template hStacked.within, scanned_cons,
      takeLine_end (BlockTracker.advance_end hStacked _)]
    rfl
  | expression text =>
    rw [hCase] at hBody
    obtain ⟨hText, hLevel⟩ := hBody
    obtain ⟨hLine, hDelta⟩ := FunctionClause.isExpression_line h.arguments hText
    have hBlocks := (hLine.isOwnLine (width * depth)).blocks
    have hOpening := function.moduleOpening?_head hBlanks (", do: ".toList ++ text)
    have hAdvance := BlockTracker.advance_level hOpening (by rw [hBlocks, hDelta, hLevel]) hStacked
    exact takeLine_defines (function.docOf?_head hBlanks _ n)
      (FunctionClause.readComponentLine_head hBlanks h.arguments hLine.trimmed n) hAdvance

theorem heights_tree (width depth : Nat) (tree : ComponentTree) :
    SourceLine.heights (tree.lines width depth) = tree.height := by
  induction tree generalizing depth with
  | done => rfl
  | blank next ih =>
    rw [ComponentTree.lines, SourceLine.heights_cons, ih]
    rfl
  | clause declarations function next ih =>
    rw [ComponentTree.lines, SourceLine.heights_append, SourceLine.heights_append,
      heights_declarations, heights_function, ih, Nat.add_assoc]
    rfl
  | module name body next ihBody ihNext =>
    rw [ComponentTree.lines, SourceLine.heights_cons, SourceLine.heights_append, ihBody,
      SourceLine.heights_cons, ihNext]
    rfl

/-- The scan of a tree finds its clauses, and is back where it was behind it. -/
theorem scanned_tree {tree : ComponentTree} (h : tree.IsPlain) (hStacked : tracker.IsStacked) :
    scanned file { tracker, found } n (tree.lines width depth) =
      { tracker
        found := (tree.clauses file tracker.currentModule? n).foldl addClause found } := by
  induction tree generalizing tracker found n depth with
  | done => rfl
  | blank next ih =>
    rw [ComponentTree.lines, scanned_cons, takeLine_blank hStacked]
    exact ih h hStacked
  | clause declarations function next ih =>
    obtain ⟨hDeclarations, hFunction, hNext⟩ := h
    rw [ComponentTree.lines, scanned_append, scanned_append, scanned_declarations hDeclarations hStacked,
      scanned_function hFunction hStacked, ih hNext hStacked, SourceLine.heights_append,
      heights_declarations, heights_function, ComponentTree.clauses, List.foldl_append,
      List.nil_append, List.nil_append, Nat.add_assoc]
  | module name body next ihBody ihNext =>
    obtain ⟨hBody, hNext⟩ := h
    have hInside := hStacked.inside name.1
    rw [ComponentTree.lines, scanned_cons, takeLine_module name hStacked, scanned_append,
      ihBody hBody hInside, scanned_cons,
      takeLine_end (BlockTracker.advance_end_inside hStacked name.1 _), ihNext hNext hStacked,
      heights_tree, ComponentTree.clauses, List.foldl_append, BlockTracker.currentModule?_inside,
      BlockTracker.fullName]
    simp only [height_indented, Nat.add_assoc]

end

end ComponentState

/-! ### Sources -/

namespace ComponentTree

theorem isSound_declaration {declared : ComponentDeclaration} (h : declared.IsPlain)
    (width depth : Nat) : ∀ written ∈ declared.lines width depth, written.IsSound := by
  cases declared with
  | blank => exact List.forall_mem_singleton.mpr isSound_blank
  | attr declared =>
    exact List.forall_mem_singleton.mpr (isSound_call (AttributeDeclaration.wellFormed h) _ _)
  | slot declared => exact List.forall_mem_singleton.mpr (isSound_call (declared.wellFormed false) _ _)
  | slotBlock declared attributes =>
    rw [ComponentDeclaration.lines, List.forall_mem_cons, List.forall_mem_append, List.forall_mem_map,
      List.forall_mem_singleton]
    exact ⟨isSound_call (declared.wellFormed true) _ _,
      fun a ha => isSound_call (AttributeDeclaration.wellFormed (h a ha)) _ _, isSound_end _ _⟩

theorem isSound_function {function : FunctionClause} (h : function.IsPlain) (width depth : Nat) :
    ∀ written ∈ function.lines width depth, written.IsSound := by
  have hBody := h.body
  rw [FunctionClause.lines]
  cases hCase : function.body with
  | template lines =>
    have hLines : ∀ line ∈ lines.map (·.1), IsHeredocLine line :=
      List.forall_mem_map.mpr fun line _ => line.2
    simp only [List.forall_mem_cons]
    exact ⟨.line ⟨_, FunctionClause.isOwnLine_do h.arguments _⟩, isSound_template hLines _ _,
      isSound_end _ _, List.forall_mem_nil _⟩
  | expression text =>
    rw [hCase] at hBody
    obtain ⟨hLine, -⟩ := FunctionClause.isExpression_line h.arguments hBody.1
    exact List.forall_mem_singleton.mpr (.line ⟨_, hLine.isOwnLine _⟩)

theorem isSound_lines {tree : ComponentTree} (h : tree.IsPlain) (width depth : Nat) :
    ∀ written ∈ tree.lines width depth, written.IsSound := by
  induction tree generalizing depth with
  | done => exact List.forall_mem_nil _
  | blank next ih =>
    rw [lines, List.forall_mem_cons]
    exact ⟨isSound_blank, ih h depth⟩
  | clause declarations function next ih =>
    obtain ⟨hDeclarations, hFunction, hNext⟩ := h
    rw [lines, List.forall_mem_append, List.forall_mem_append, List.forall_mem_flatMap]
    exact ⟨⟨fun declared hMem => isSound_declaration (hDeclarations declared hMem) width depth,
      isSound_function hFunction width depth⟩, ih hNext depth⟩
  | module name body next ihBody ihNext =>
    obtain ⟨hBody, hNext⟩ := h
    rw [lines, List.forall_mem_cons, List.forall_mem_append, List.forall_mem_cons]
    exact ⟨isSound_call (moduleCall_wellFormed name) _ _, ihBody hBody _, isSound_end _ _,
      ihNext hNext depth⟩

/-- The components of a source are those that the clauses in its tree make up, in the order of the
first ones: each takes what is declared before its clauses, and nothing else. -/
theorem scan_components_source (disk : Disk) (file : Path) (width : Nat) (tree : ComponentTree)
    (h : tree.IsPlain) :
    EntityKind.components.scan disk file (tree.source width) =
      Component.merged (tree.clauses file none 1) := by
  have hLines := logicalLines_sourceText (isSound_lines h width 0)
  have hRun : ComponentState.scanned file {} 1 (tree.lines width 0) =
      { found := (tree.clauses file none 1).foldl addClause [] } :=
    ComponentState.scanned_tree h BlockTracker.isStacked_nil
  rw [EntityKind.scan, componentsOf, source, hLines]
  refine (congrArg ComponentState.found hRun).trans ?_
  exact foldl_addClause _

/-- A module with one component, which takes an alignment with the given values. -/
def box (values : NameList) : ComponentTree :=
  .module ⟨"Core".toList, .part ⟨⟨'C', "ore".toList, rfl, rfl⟩, by decide⟩, by decide⟩
    (.clause
      [.attr
        { name := ⟨"align".toList, .inl (by decide)⟩
          type := .atom ⟨"string".toList, .inl (by decide)⟩
          options := [.values values] }]
      { isPrivate := false
        name :=
          { stem := ⟨"box".toList, ⟨'b', "ox".toList, rfl, rfl⟩, by decide⟩
            mark := ⟨[], by decide⟩
            isIdle := by decide }
        arguments := ["assigns".toList]
        body := .template [⟨"<p></p>".toList, by decide, by decide, by decide⟩] }
      .done)
    .done

/-- Words between parentheses. -/
def wordList (content : List { word : List Char // word ≠ [] ∧ ∀ c ∈ word, Text.isBlank c = false }) :
    NameList := .words .parenthesis content none

theorem scan_components_source_box :
    EntityKind.components.scan {} ⟨"/app/core.ex"⟩
        ((box (wordList [⟨"left".toList, by decide⟩, ⟨"right".toList, by decide⟩])).source 2) =
      [{ name := "box"
         moduleName := "Core"
         filePath := ⟨"/app/core.ex"⟩
         line := 3
         attributes := [{ name := "align", type := "string", values := some ["left", "right"] }] }] := by
  have hPlain : (wordList [⟨"left".toList, by decide⟩, ⟨"right".toList, by decide⟩]).IsPlain := by
    change IsArgument "~w(left right)".toList
    decide
  refine (scan_components_source {} ⟨"/app/core.ex"⟩ 2 (box _) ?_).trans (by decide)
  have hArgument : IsArgument "assigns".toList := by decide
  refine ⟨⟨?_, ⟨List.forall_mem_singleton.mpr hArgument, trivial⟩, trivial⟩, trivial⟩
  exact List.forall_mem_singleton.mpr (List.forall_mem_singleton.mpr hPlain)

/-- The word `end` in a list of words counts as the end of a block: the module is over before its
component, which is lost. -/
theorem end_in_words_closes_module :
    EntityKind.components.scan {} ⟨"/app/core.ex"⟩
        ((box (wordList [⟨"start".toList, by decide⟩, ⟨"end".toList, by decide⟩])).source 2) = [] ∧
      Component.merged
          ((box (wordList [⟨"start".toList, by decide⟩, ⟨"end".toList, by decide⟩])).clauses
            ⟨"/app/core.ex"⟩ none 1) =
        [{ name := "box"
           moduleName := "Core"
           filePath := ⟨"/app/core.ex"⟩
           line := 3
           attributes := [{ name := "align", type := "string", values := some ["start", "end"] }] }] := by
  constructor
  all_goals decide

end ComponentTree

end PhoenixLens.Elixir
