import PhoenixLens.Elixir.Scan
import PhoenixLens.Proofs.Elixir.SchemaReading

/-!
# Scanning schemas

The scan takes line after line and keeps the open schemas on a stack. Behind the lines of a block it is
back where it was before them, with the schemas in the block among the finished ones; these are in the
order of their ends, which the last step puts right.
-/

namespace PhoenixLens.Elixir

namespace SchemaState

variable {state : SchemaState} {tracker : BlockTracker} {aliases : AliasTable}
  {schema : SchemaInfo} {inner : OpenSchema} {outer : List OpenSchema} {finished : List SchemaInfo}
  {file : Path} {module owner text : List Char} {n width depth d : Nat}

/-! ### Steps -/

theorem takeLine_eq {line : LogicalLine} (hModule : state.tracker.currentModule? = some module) :
    state.takeLine file line =
      (state.takeCode file line.line module (Text.trim line.text)).settle line.text := by
  rw [takeLine, hModule]

/-- A line that closes no schema. -/
theorem settle_open (hAdvance : state.tracker.advance text = tracker)
    (hOpen : ∀ o ∈ state.openSchemas.head?, o.outerDepth < tracker.depth) :
    state.settle text = { state with tracker } := by
  rw [settle, hAdvance]
  cases hSchemas : state.openSchemas with
  | nil => simp
  | cons o more =>
    rw [hSchemas] at hOpen
    have hClosed : decide (tracker.depth ≤ o.outerDepth) = false :=
      decide_eq_false (Nat.not_le.mpr (hOpen o rfl))
    simp [hClosed]

theorem settle_close (hAdvance : state.tracker.advance text = tracker)
    (hSchemas : state.openSchemas = ⟨schema, tracker.depth⟩ :: outer)
    (hOuter : ∀ o ∈ outer.head?, o.outerDepth < tracker.depth) :
    state.settle text =
      { state with tracker, openSchemas := outer, finished := state.finished ++ [schema] } := by
  rw [settle, hAdvance, hSchemas]
  cases outer with
  | nil => simp
  | cons o more =>
    have hClosed : decide (tracker.depth ≤ o.outerDepth) = false :=
      decide_eq_false (Nat.not_le.mpr (hOuter o rfl))
    simp [hClosed]

section

variable {addition : SchemaAddition} (hAlias : callArguments? text "alias" = none)
  (hSchema : callArguments? text "schema" = none)
  (hEmbedded : (Text.startsWith "embedded_schema" text && opensDoBlock text) = false)
  (hState : state.openSchemas = inner :: outer)
  (hAddition : schemaAddition? inner.schema.moduleName.toList (state.aliases.expand module) text =
    some addition)

include hAlias hSchema hEmbedded hState hAddition

/-- What a line adds to the schema around it. -/
theorem takeCode_addition (hNone : addition.embedded = none) :
    state.takeCode file n module text = state.extend addition := by
  rw [takeCode, hAlias, hSchema, Option.filter_none, hEmbedded]
  simp only [hState, hAddition, hNone, if_neg Bool.false_ne_true]

/-- The schema that a line embeds is open behind it. -/
theorem takeCode_embed {target : List Char} (hTarget : addition.embedded = some target) :
    state.takeCode file n module text = (state.extend addition).openSchema file n target none := by
  rw [takeCode, hAlias, hSchema, Option.filter_none, hEmbedded]
  simp only [hState, hAddition, hTarget, if_neg Bool.false_ne_true]

end

/-- A line that adds nothing to the schema around it. -/
theorem takeCode_nothing (hAlias : callArguments? text "alias" = none)
    (hSchema : callArguments? text "schema" = none)
    (hEmbedded : (Text.startsWith "embedded_schema" text && opensDoBlock text) = false)
    (hAddition : ∀ inner ∈ state.openSchemas.head?,
      schemaAddition? inner.schema.moduleName.toList (state.aliases.expand module) text = none) :
    state.takeCode file n module text = state := by
  rw [takeCode, hAlias, hSchema, Option.filter_none, hEmbedded]
  simp only [if_neg Bool.false_ne_true]
  cases hState : state.openSchemas with
  | nil => rfl
  | cons inner outer =>
    rw [hState] at hAddition
    simp only [hAddition inner rfl]

/-! ### Lines of schemas -/

def added (schema : SchemaInfo) (fields : List SchemaField) (associations : List Association) :
    SchemaInfo :=
  { schema with fields := schema.fields ++ fields, associations := schema.associations ++ associations }

/-- The blocks around a line of a schema: those of its module and its own, which is open. -/
structure IsInside (tracker : BlockTracker) (module owner : List Char) (schema : SchemaInfo) (d : Nat) :
    Prop where
  stacked : tracker.IsStacked
  current : tracker.currentModule? = some module
  opened : d < tracker.depth
  owner : schema.moduleName.toList = owner

theorem names_ne {name : String} (h : name ∉ ["defmodule", "alias", "schema"]) :
    name ≠ "defmodule" ∧ name.toList ≠ "alias".toList ∧ name.toList ≠ "schema".toList := by
  simp only [List.mem_cons, List.not_mem_nil, or_false, not_or] at h
  exact ⟨h.1, fun hSame => h.2.1 (String.toList_inj.mp hSame),
    fun hSame => h.2.2 (String.toList_inj.mp hSame)⟩

section

variable (h : IsInside tracker module owner schema d)

include h

theorem IsInside.added (fields : List SchemaField) (associations : List Association) :
    IsInside tracker module owner (added schema fields associations) d :=
  ⟨h.stacked, h.current, h.opened, h.owner⟩

theorem takeLine_nothing (hDepth : tracker.advance text = tracker)
    (hCode : takeCode { tracker, aliases, openSchemas := ⟨schema, d⟩ :: outer, finished } file n module
      (Text.trim text) = { tracker, aliases, openSchemas := ⟨schema, d⟩ :: outer, finished }) :
    takeLine { tracker, aliases, openSchemas := ⟨schema, d⟩ :: outer, finished } file
        { line := n, text } =
      { tracker, aliases, openSchemas := ⟨schema, d⟩ :: outer, finished } := by
  rw [takeLine_eq h.current, hCode]
  refine settle_open hDepth ?_
  rintro o ⟨⟩
  exact h.opened

theorem takeLine_addition {line : CallLine} (hLine : line.WellFormed)
    (hName : line.name ∉ ["defmodule", "alias", "schema"]) (hOpens : line.opens = false)
    {addition : SchemaAddition}
    (hAddition : schemaAddition? owner (aliases.expand module) line.text = some addition)
    (hNone : addition.embedded = none) :
    takeLine { tracker, aliases, openSchemas := ⟨schema, d⟩ :: outer, finished } file
        ((indented width depth line.text).logical n) =
      { tracker
        aliases
        openSchemas := ⟨added schema addition.fields addition.associations, d⟩ :: outer
        finished } := by
  obtain ⟨hModule, hAlias, hSchema⟩ := names_ne hName
  have hTrim : Text.trim ((indented width depth line.text).logical n).text = line.text :=
    hLine.isTrimmed.trim_indented _
  have hDo : opensDoBlock line.text = false := hLine.opensDoBlock_text.trans hOpens
  have hAdvance := BlockTracker.advance_call hLine hModule h.stacked (width * depth)
  rw [hOpens, if_neg Bool.false_ne_true] at hAdvance
  rw [← h.owner] at hAddition
  have hCode : takeCode { tracker, aliases, openSchemas := ⟨schema, d⟩ :: outer, finished } file n module
      line.text =
        { tracker
          aliases
          openSchemas := ⟨added schema addition.fields addition.associations, d⟩ :: outer
          finished } :=
    takeCode_addition (hLine.callArguments?_other (by decide) hAlias)
      (hLine.callArguments?_other (by decide) hSchema) (by rw [hDo, Bool.and_false]) rfl hAddition hNone
  rw [takeLine_eq h.current, hTrim]
  refine (congrArg (settle · _) hCode).trans (settle_open hAdvance ?_)
  intro o ho
  cases ho
  exact h.opened

theorem takeLine_embed {line : CallLine} (hLine : line.WellFormed)
    (hName : line.name ∉ ["defmodule", "alias", "schema"]) (hOpens : line.opens = true)
    (hEmbedded : Text.startsWith "embedded_schema" line.text = false) {addition : SchemaAddition}
    (hAddition : schemaAddition? owner (aliases.expand module) line.text = some addition)
    {target : List Char} (hTarget : addition.embedded = some target) :
    takeLine { tracker, aliases, openSchemas := ⟨schema, d⟩ :: outer, finished } file
        ((indented width depth line.text).logical n) =
      { tracker := tracker.within
        aliases
        openSchemas :=
          ⟨{ moduleName := String.ofList target, filePath := file, line := n }, tracker.depth⟩ ::
            ⟨added schema addition.fields addition.associations, d⟩ :: outer
        finished } := by
  obtain ⟨hModule, hAlias, hSchema⟩ := names_ne hName
  have hTrim : Text.trim ((indented width depth line.text).logical n).text = line.text :=
    hLine.isTrimmed.trim_indented _
  have hAdvance := BlockTracker.advance_call hLine hModule h.stacked (width * depth)
  rw [hOpens, if_pos rfl] at hAdvance
  rw [← h.owner] at hAddition
  have hNone : (Text.startsWith "embedded_schema" line.text && opensDoBlock line.text) = false := by
    rw [hEmbedded, Bool.false_and]
  have hState : openSchemas { tracker, aliases, openSchemas := ⟨schema, d⟩ :: outer, finished } =
      ⟨schema, d⟩ :: outer := rfl
  have hCode : takeCode { tracker, aliases, openSchemas := ⟨schema, d⟩ :: outer, finished } file n module
      line.text =
        { tracker
          aliases
          openSchemas :=
            ⟨{ moduleName := String.ofList target, filePath := file, line := n }, tracker.depth⟩ ::
              ⟨added schema addition.fields addition.associations, d⟩ :: outer
          finished } :=
    takeCode_embed (hLine.callArguments?_other (by decide) hAlias)
      (hLine.callArguments?_other (by decide) hSchema) hNone hState hAddition hTarget
  rw [takeLine_eq h.current, hTrim]
  refine (congrArg (settle · _) hCode).trans (settle_open hAdvance ?_)
  intro o ho
  cases ho
  exact Nat.lt_succ_self tracker.depth

theorem takeLine_blank :
    takeLine { tracker, aliases, openSchemas := ⟨schema, d⟩ :: outer, finished } file
        ((SourceLine.line []).logical n) =
      { tracker, aliases, openSchemas := ⟨schema, d⟩ :: outer, finished } := by
  refine takeLine_nothing h (BlockTracker.advance_level rfl rfl h.stacked) ?_
  exact takeCode_nothing rfl rfl rfl fun inner _ => rfl

end

theorem takeLine_end (hOuter : ∀ o ∈ outer.head?, o.outerDepth < tracker.depth)
    (hStacked : tracker.IsStacked) (hModule : tracker.currentModule? = some module) :
    takeLine
        { tracker := tracker.within, aliases, openSchemas := ⟨schema, tracker.depth⟩ :: outer, finished }
        file ((indented width depth "end".toList).logical n) =
      { tracker, aliases, openSchemas := outer, finished := finished ++ [schema] } := by
  have hTrim : Text.trim ((indented width depth "end".toList).logical n).text = "end".toList :=
    trim_end _
  have hCode : takeCode
      { tracker := tracker.within, aliases, openSchemas := ⟨schema, tracker.depth⟩ :: outer, finished }
      file n module "end".toList =
        { tracker := tracker.within, aliases, openSchemas := ⟨schema, tracker.depth⟩ :: outer, finished } :=
    takeCode_nothing (by decide) (by decide) (by decide) fun inner _ => rfl
  have hCurrent : tracker.within.currentModule? = some module := hModule
  rw [takeLine_eq hCurrent, hTrim]
  exact (congrArg (settle · _) hCode).trans
    (settle_close (BlockTracker.advance_end hStacked (width * depth)) rfl hOuter)

/-! ### Blocks -/

theorem added_nil (schema : SchemaInfo) : added schema [] [] = schema := by
  rw [added, List.append_nil, List.append_nil]

theorem added_added (schema : SchemaInfo) (fields more : List SchemaField)
    (associations others : List Association) :
    added (added schema fields associations) more others =
      added schema (fields ++ more) (associations ++ others) := by
  simp [added]

theorem head?_lt (h : d < n) : ∀ o ∈ (OpenSchema.mk schema d :: outer).head?, o.outerDepth < n := by
  rintro o ⟨⟩
  exact h

theorem tag_not_mem (type : AssociationType) : type.tag ∉ ["defmodule", "alias", "schema"] := by
  cases type <;> decide

theorem startsWith_embed (many : Bool) (declared : AssociationDeclaration) :
    Text.startsWith "embedded_schema" (declared.line (embedType many) true).text = false := by
  have hName : ∃ rest, (embedType many).tag.toList = "embeds_".toList ++ rest := by
    cases many with
    | false => exact ⟨"one".toList, by decide⟩
    | true => exact ⟨"many".toList, by decide⟩
  obtain ⟨rest, hName⟩ := hName
  rw [CallLine.text_eq, show (declared.line (embedType many) true).name.toList = _ from hName]
  rfl

/-- The state after lines, the first of them numbered `n`. -/
def scanned (file : Path) (state : SchemaState) (n : Nat) (lines : List SourceLine) : SchemaState :=
  SourceLine.run (fun state line => takeLine state file line) state n lines

theorem scanned_append (state : SchemaState) (n : Nat) (lines more : List SourceLine) :
    scanned file state n (lines ++ more) =
      scanned file (scanned file state n lines) (n + SourceLine.heights lines) more :=
  SourceLine.run_append _ state n lines more

theorem scanned_cons (state : SchemaState) (n : Nat) (written : SourceLine)
    (lines : List SourceLine) :
    scanned file state n (written :: lines) =
      scanned file (state.takeLine file (written.logical n)) (n + written.height) lines := rfl

theorem heights_block (width depth : Nat) (block : SchemaBlock) :
    SourceLine.heights (block.lines width depth) = block.height := by
  induction block generalizing depth with
  | done => rfl
  | embed many declared body next ihBody ihNext =>
    rw [SchemaBlock.lines, SourceLine.heights_cons, SourceLine.heights_append, ihBody,
      SourceLine.heights_cons, ihNext]
    rfl
  | _ =>
    rename_i ih
    rw [SchemaBlock.lines, SourceLine.heights_cons, ih]
    rfl

/-- Behind the lines of a block its schema has what they declare, and the schemas embedded in it are
finished. -/
theorem scanned_block {block : SchemaBlock} (hPlain : block.IsPlain)
    (h : IsInside tracker module owner schema d) :
    ∃ schemas, schemas.Perm (block.embedded aliases module file owner n) ∧
      scanned file { tracker, aliases, openSchemas := ⟨schema, d⟩ :: outer, finished } n
          (block.lines width depth) =
        { tracker
          aliases
          openSchemas :=
            ⟨added schema block.fields (block.associations aliases module owner), d⟩ :: outer
          finished := finished ++ schemas } := by
  induction block generalizing tracker schema owner d outer finished n depth with
  | done =>
    refine ⟨[], .nil, ?_⟩
    rw [SchemaBlock.fields, SchemaBlock.associations, added_nil, List.append_nil]
    rfl
  | blank next ih =>
    rw [SchemaBlock.lines, scanned_cons, takeLine_blank h]
    exact ih hPlain h
  | field declared next ih =>
    obtain ⟨hOptions, hNext⟩ := hPlain
    obtain ⟨schemas, hSchemas, hRun⟩ := ih hNext (h.added [declared.declared] [])
    have hAddition : schemaAddition? owner (aliases.expand module) declared.line.text = _ :=
      schemaAddition?_field hOptions
    refine ⟨schemas, hSchemas, ?_⟩
    rw [SchemaBlock.lines, scanned_cons, takeLine_addition h (FieldDeclaration.wellFormed hOptions)
      (show "field" ∉ _ by decide) rfl hAddition rfl]
    refine hRun.trans ?_
    rw [added_added]
    rfl
  | timestamps options parens next ih =>
    obtain ⟨hOptions, hNext⟩ := hPlain
    obtain ⟨schemas, hSchemas, hRun⟩ := ih hNext (h.added (timestampsDeclared options) [])
    have hAddition :
        schemaAddition? owner (aliases.expand module) (timestampsLine options parens).text = _ :=
      schemaAddition?_timestamps hOptions parens
    refine ⟨schemas, hSchemas, ?_⟩
    rw [SchemaBlock.lines, scanned_cons, takeLine_addition h (timestampsLine_wellFormed hOptions parens)
      (show "timestamps" ∉ _ by decide) rfl hAddition rfl]
    refine hRun.trans ?_
    rw [added_added]
    rfl
  | association type declared next ih =>
    obtain ⟨hOptions, hNext⟩ := hPlain
    have hAddition :
        schemaAddition? owner (aliases.expand module) (declared.line type false).text = _ :=
      schemaAddition?_association hOptions aliases module type false
    obtain ⟨schemas, hSchemas, hRun⟩ := ih hNext (h.added
      (if type = .belongsTo then [declared.foreignKey] else [])
      [declared.associationTo type (declared.target aliases module owner)])
    refine ⟨schemas, hSchemas, ?_⟩
    rw [SchemaBlock.lines, scanned_cons, takeLine_addition h
      (AssociationDeclaration.wellFormed hOptions type false) (tag_not_mem type) rfl hAddition rfl]
    refine hRun.trans ?_
    rw [added_added, SchemaBlock.fields, SchemaBlock.associations]
    split <;> rfl
  | embed many declared body next ihBody ihNext =>
    obtain ⟨hOptions, hBody, hNext⟩ := hPlain
    have hAddition : schemaAddition? owner (aliases.expand module)
        (declared.line (embedType many) true).text = _ :=
      schemaAddition?_association hOptions aliases module (embedType many) true
    have hFields : (if embedType many = .belongsTo then [declared.foreignKey] else []) = [] := by
      cases many <;> rfl
    simp only [hFields, if_true] at hAddition
    have hAdded := h.added [] [declared.associationTo (embedType many) (declared.blockTarget owner)]
    have hInner : IsInside tracker.within module (declared.blockTarget owner)
        { moduleName := String.ofList (declared.blockTarget owner), filePath := file, line := n }
        tracker.depth :=
      ⟨h.stacked.within, h.current, Nat.lt_succ_self _, String.toList_ofList⟩
    obtain ⟨bodySchemas, hBodySchemas, hBodyRun⟩ := ihBody hBody hInner
    obtain ⟨schemas, hSchemas, hRun⟩ := ihNext hNext hAdded
    refine ⟨bodySchemas ++ [body.info aliases module file (declared.blockTarget owner) none n] ++ schemas,
      ?_, ?_⟩
    -- the run says in which lines the body and what follows it stand
    rotate_left
    · rw [SchemaBlock.lines, scanned_cons, takeLine_embed h
        (AssociationDeclaration.wellFormed hOptions (embedType many) true) (tag_not_mem _) rfl
        (startsWith_embed many declared) hAddition rfl, scanned_append, hBodyRun, scanned_cons,
        takeLine_end (head?_lt h.opened) h.stacked h.current, hRun]
      simp only [added_added, List.append_assoc]
      rfl
    · simp only [height_indented, heights_block, Nat.add_assoc] at hBodySchemas hSchemas
      rw [SchemaBlock.embedded, List.append_assoc]
      exact List.perm_middle.trans ((hBodySchemas.append hSchemas).cons _)

/-! ### Lines of modules -/

section

variable {other : BlockTracker}

/-- A line that stands in no schema and opens none. -/
theorem takeLine_outside {line : LogicalLine} (hModule : tracker.currentModule? = some module)
    (hCode : takeCode { tracker, aliases, finished } file line.line module (Text.trim line.text) =
      { tracker, aliases, finished })
    (hAdvance : tracker.advance line.text = other) :
    takeLine { tracker, aliases, finished } file line = { tracker := other, aliases, finished } := by
  rw [takeLine_eq hModule, hCode]
  exact settle_open hAdvance nofun

theorem takeLine_outsideBlank (hStacked : tracker.IsStacked)
    (hModule : tracker.currentModule? = some module) :
    takeLine { tracker, aliases, finished } file ((SourceLine.line []).logical n) =
      { tracker, aliases, finished } :=
  takeLine_outside hModule (takeCode_nothing rfl rfl rfl nofun)
    (BlockTracker.advance_level rfl rfl hStacked)

theorem usesLine_wellFormed (target : ModuleName) : (usesLine target).WellFormed := by
  have hWord : IsWordRun "use".toList ∧ IsIdle "use".toList := by decide
  refine ⟨hWord.1, hWord.2, List.forall_mem_singleton.mpr (.module target.2), ?_⟩
  rintro - t ⟨⟩
  obtain ⟨c, rest, hName, hUpper⟩ := target.2.first
  rw [hName]
  rintro ⟨⟩
  cases hUpper

theorem takeLine_uses (target : ModuleName) (hStacked : tracker.IsStacked)
    (hModule : tracker.currentModule? = some module) :
    takeLine { tracker, aliases, finished } file
        ((indented width depth (usesLine target).text).logical n) =
      { tracker, aliases, finished } := by
  have hWell := usesLine_wellFormed target
  have hTrim : Text.trim ((indented width depth (usesLine target).text).logical n).text =
      (usesLine target).text :=
    hWell.isTrimmed.trim_indented _
  have hDo : opensDoBlock (usesLine target).text = false := hWell.opensDoBlock_text
  refine takeLine_outside hModule ?_
    (BlockTracker.advance_call hWell (show "use" ≠ "defmodule" by decide) hStacked (width * depth))
  rw [hTrim]
  exact takeCode_nothing
    (hWell.callArguments?_other (by decide) (show "use".toList ≠ "alias".toList by decide))
    (hWell.callArguments?_other (by decide) (show "use".toList ≠ "schema".toList by decide))
    (by rw [hDo, Bool.and_false]) nofun

theorem takeLine_alias (declared : AliasDeclaration) (parens : Bool) (hStacked : tracker.IsStacked)
    (hModule : tracker.currentModule? = some module) :
    takeLine { tracker, aliases, finished } file
        ((indented width depth (declared.line parens).text).logical n) =
      { tracker, aliases := declared.added module aliases, finished } := by
  have hWell := declared.wellFormed parens
  have hTrim : Text.trim ((indented width depth (declared.line parens).text).logical n).text =
      (declared.line parens).text :=
    hWell.isTrimmed.trim_indented _
  have hCall : callArguments? (declared.line parens).text "alias" = some (declared.line parens).body :=
    hWell.callArguments?_text
  have hAdvance :=
    BlockTracker.advance_call hWell (show "alias" ≠ "defmodule" by decide) hStacked (width * depth)
  have hCode : takeCode { tracker, aliases, finished } file n module (declared.line parens).text =
      { tracker, aliases := declared.added module aliases, finished } := by
    rw [takeCode, hCall]
    simp only [declared.record_body]
  rw [takeLine_eq hModule, hTrim]
  exact (congrArg (settle · _) hCode).trans (settle_open hAdvance nofun)

theorem takeLine_module (name : ModuleAlias) (hStacked : tracker.IsStacked) :
    takeLine { tracker, aliases, finished } file
        ((indented width depth (moduleCall name).text).logical n) =
      { tracker := tracker.inside name.1, aliases, finished } := by
  have hWell := moduleCall_wellFormed name
  have hAdvance := BlockTracker.advance_module name hStacked (width * depth)
  cases hModule : tracker.currentModule? with
  | none =>
    rw [takeLine]
    simp only [hModule]
    exact settle_open hAdvance nofun
  | some module =>
    have hTrim : Text.trim ((indented width depth (moduleCall name).text).logical n).text =
        (moduleCall name).text :=
      hWell.isTrimmed.trim_indented _
    refine takeLine_outside hModule ?_ hAdvance
    rw [hTrim]
    exact takeCode_nothing
      (hWell.callArguments?_other (by decide) (show "defmodule".toList ≠ "alias".toList by decide))
      (hWell.callArguments?_other (by decide) (show "defmodule".toList ≠ "schema".toList by decide))
      (by rw [moduleCall_text]; rfl) nofun

theorem takeLine_moduleEnd (hStacked : tracker.IsStacked) (name : List Char) :
    takeLine { tracker := tracker.inside name, aliases, finished } file
        ((indented width depth "end".toList).logical n) =
      { tracker, aliases, finished } := by
  have hTrim : Text.trim ((indented width depth "end".toList).logical n).text = "end".toList :=
    trim_end _
  refine takeLine_outside (tracker.currentModule?_inside name) ?_
    (BlockTracker.advance_end_inside hStacked name (width * depth))
  rw [hTrim]
  exact takeCode_nothing (by decide) (by decide) (by decide) nofun

theorem schemaLine_wellFormed (table? : Option StringLiteral) (parens : Bool) :
    (schemaLine table? parens).WellFormed := by
  cases table? with
  | none =>
    have hWord : IsWordRun "embedded_schema".toList ∧ IsIdle "embedded_schema".toList := by decide
    exact ⟨hWord.1, hWord.2, List.forall_mem_nil _, nofun⟩
  | some table =>
    have hWord : IsWordRun "schema".toList ∧ IsIdle "schema".toList := by decide
    refine ⟨hWord.1, hWord.2, List.forall_mem_singleton.mpr table.isArgument, ?_⟩
    rintro - t ⟨⟩
    rintro ⟨⟩

theorem takeCode_schema (table? : Option StringLiteral) (parens : Bool) :
    takeCode { tracker, aliases, finished } file n module (schemaLine table? parens).text =
      { tracker
        aliases
        openSchemas :=
          [⟨{ moduleName := String.ofList module
              tableName := (table?.map StringLiteral.value).map String.ofList
              filePath := file
              line := n }, tracker.depth⟩]
        finished } := by
  have hWell := schemaLine_wellFormed table? parens
  have hOpens := hWell.opensDoBlock_text
  have hSchema := hWell.callArguments?_text
  have hSplit := hWell.splitArguments_body
  rw [takeCode]
  cases table? with
  | none =>
    have hAlias : callArguments? (schemaLine none parens).text "alias" = none :=
      hWell.callArguments?_other (by decide) (show "embedded_schema".toList ≠ "alias".toList by decide)
    have hNone : callArguments? (schemaLine none parens).text "schema" = none :=
      hWell.callArguments?_other (by decide) (show "embedded_schema".toList ≠ "schema".toList by decide)
    have hText : (schemaLine none parens).text = "embedded_schema".toList ++ [] ++ " do".toList := rfl
    have hStart : (Text.startsWith "embedded_schema" (schemaLine none parens).text &&
        opensDoBlock (schemaLine none parens).text) = true := by
      rw [hText]
      decide
    rw [hAlias, hNone, Option.filter_none]
    simp only [hStart, if_true]
    rfl
  | some table =>
    have hAlias : callArguments? (schemaLine (some table) parens).text "alias" = none :=
      hWell.callArguments?_other (by decide) (show "schema".toList ≠ "alias".toList by decide)
    have hTable : ((splitArguments (schemaLine (some table) parens).body).head? >>= parseString?) =
        some table.value := by
      rw [hSplit]
      exact table.parseString?_written
    rw [hAlias, show callArguments? (schemaLine (some table) parens).text "schema" = _ from hSchema,
      Option.filter_some, hOpens, show (schemaLine (some table) parens).opens = true from rfl, if_pos rfl]
    simp only [hTable]
    rfl

theorem takeLine_schema (table? : Option StringLiteral) (parens : Bool) (hStacked : tracker.IsStacked)
    (hModule : tracker.currentModule? = some module) :
    takeLine { tracker, aliases, finished } file
        ((indented width depth (schemaLine table? parens).text).logical n) =
      { tracker := tracker.within
        aliases
        openSchemas :=
          [⟨{ moduleName := String.ofList module
              tableName := (table?.map StringLiteral.value).map String.ofList
              filePath := file
              line := n }, tracker.depth⟩]
        finished } := by
  have hWell := schemaLine_wellFormed table? parens
  have hTrim : Text.trim ((indented width depth (schemaLine table? parens).text).logical n).text =
      (schemaLine table? parens).text :=
    hWell.isTrimmed.trim_indented _
  have hAdvance : tracker.advance
      (List.replicate (width * depth) ' ' ++ (schemaLine table? parens).text) = tracker.within := by
    cases table? with
    | none =>
      exact BlockTracker.advance_call hWell (show "embedded_schema" ≠ "defmodule" by decide) hStacked _
    | some table =>
      exact BlockTracker.advance_call hWell (show "schema" ≠ "defmodule" by decide) hStacked _
  rw [takeLine_eq hModule, hTrim]
  exact (congrArg (settle · _) (takeCode_schema table? parens)).trans
    (settle_open hAdvance (head?_lt (Nat.lt_succ_self _)))

theorem heights_tree (width depth : Nat) (tree : SchemaTree) :
    SourceLine.heights (tree.lines width depth) = tree.height := by
  induction tree generalizing depth with
  | done => rfl
  | schema table? parens body next ih =>
    rw [SchemaTree.lines, SourceLine.heights_cons, SourceLine.heights_append, heights_block,
      SourceLine.heights_cons, ih]
    rfl
  | module name body next ihBody ihNext =>
    rw [SchemaTree.lines, SourceLine.heights_cons, SourceLine.heights_append, ihBody,
      SourceLine.heights_cons, ihNext]
    rfl
  | _ =>
    rename_i ih
    rw [SchemaTree.lines, SourceLine.heights_cons, ih]
    rfl

/-- Behind the lines of a module its schemas are finished and its aliases are known. -/
theorem scanned_tree {tree : SchemaTree} (hPlain : tree.IsPlain) (hStacked : tracker.IsStacked)
    (hModule : tracker.currentModule? = some module) :
    ∃ schemas, schemas.Perm (tree.schemas file module aliases n) ∧
      scanned file { tracker, aliases, finished } n (tree.lines width depth) =
        { tracker, aliases := tree.aliases module aliases, finished := finished ++ schemas } := by
  induction tree generalizing tracker module aliases finished n depth with
  | done =>
    refine ⟨[], .nil, ?_⟩
    rw [List.append_nil]
    rfl
  | blank next ih =>
    rw [SchemaTree.lines, scanned_cons, takeLine_outsideBlank hStacked hModule]
    exact ih hPlain hStacked hModule
  | uses target next ih =>
    rw [SchemaTree.lines, scanned_cons, takeLine_uses target hStacked hModule]
    exact ih hPlain hStacked hModule
  | aliasLine declared parens next ih =>
    rw [SchemaTree.lines, scanned_cons, takeLine_alias declared parens hStacked hModule]
    exact ih hPlain hStacked hModule
  | schema table? parens body next ih =>
    obtain ⟨hBody, hNext⟩ := hPlain
    have hInside : IsInside tracker.within module module
        { moduleName := String.ofList module
          tableName := (table?.map StringLiteral.value).map String.ofList
          filePath := file
          line := n } tracker.depth :=
      ⟨hStacked.within, hModule, Nat.lt_succ_self _, String.toList_ofList⟩
    have hOuter : ∀ o ∈ ([] : List OpenSchema).head?, o.outerDepth < tracker.depth := by rintro o ⟨⟩
    obtain ⟨embedded, hEmbedded, hBodyRun⟩ := scanned_block hBody hInside
    obtain ⟨schemas, hSchemas, hRun⟩ := ih hNext hStacked hModule
    refine ⟨embedded ++
      [body.info aliases module file module (table?.map StringLiteral.value) n] ++ schemas, ?_, ?_⟩
    rotate_left
    · rw [SchemaTree.lines, scanned_cons, takeLine_schema table? parens hStacked hModule,
        scanned_append, hBodyRun, scanned_cons, takeLine_end hOuter hStacked hModule, hRun]
      simp only [List.append_assoc]
      rfl
    · simp only [height_indented, heights_block, Nat.add_assoc] at hEmbedded hSchemas
      rw [SchemaTree.schemas, List.append_assoc]
      exact List.perm_middle.trans ((hEmbedded.append hSchemas).cons _)
  | module name body next ihBody ihNext =>
    obtain ⟨hBody, hNext⟩ := hPlain
    have hInner : (tracker.inside name.1).currentModule? = some (module ++ '.' :: name.1) := by
      rw [tracker.currentModule?_inside, BlockTracker.fullName, hModule]
      rfl
    obtain ⟨bodySchemas, hBodySchemas, hBodyRun⟩ := ihBody hBody (hStacked.inside name.1) hInner
    obtain ⟨schemas, hSchemas, hRun⟩ := ihNext hNext hStacked hModule
    refine ⟨bodySchemas ++ schemas, ?_, ?_⟩
    rotate_left
    · rw [SchemaTree.lines, scanned_cons, takeLine_module name hStacked, scanned_append, hBodyRun,
        scanned_cons, takeLine_moduleEnd hStacked, hRun, List.append_assoc]
      rfl
    · simp only [height_indented, heights_tree, Nat.add_assoc] at hBodySchemas hSchemas
      exact hBodySchemas.append hSchemas

/-- Behind the lines of a file all its schemas are finished. -/
theorem scanned_modules {modules : SchemaFile} (hPlain : ∀ m ∈ modules, m.2.IsPlain) :
    ∃ schemas, schemas.Perm (modules.schemas file aliases n) ∧
      (scanned file { aliases, finished } n (modules.lines width)).openSchemas = [] ∧
      (scanned file { aliases, finished } n (modules.lines width)).finished = finished ++ schemas := by
  induction modules generalizing aliases finished n with
  | nil => exact ⟨[], .nil, rfl, (List.append_nil finished).symm⟩
  | cons module modules ih =>
    obtain ⟨name, body⟩ := module
    obtain ⟨hBody, hModules⟩ := List.forall_mem_cons.mp hPlain
    have hStacked := BlockTracker.isStacked_nil
    obtain ⟨bodySchemas, hBodySchemas, hBodyRun⟩ :=
      scanned_tree hBody (hStacked.inside name.1) (BlockTracker.currentModule?_inside {} name.1)
    obtain ⟨schemas, hSchemas, hOpen, hFinished⟩ := ih hModules
    refine ⟨bodySchemas ++ schemas, ?_, ?_⟩
    rotate_left
    · rw [SchemaFile.lines, scanned_cons, takeLine_module name hStacked, scanned_append, hBodyRun,
        scanned_cons, takeLine_moduleEnd hStacked, ← List.append_assoc]
      exact ⟨hOpen, hFinished⟩
    · simp only [height_indented, heights_tree, Nat.add_assoc] at hBodySchemas hSchemas
      exact hBodySchemas.append hSchemas

end

end SchemaState

end PhoenixLens.Elixir
