import PhoenixLens.Elixir.Scan
import PhoenixLens.Proofs.Elixir.BlockTree
import PhoenixLens.Proofs.Elixir.ByteArguments

/-!
# Scanners in place

The second account of the scanners themselves, put together from the readers that work in place.
Every scanner comes to its end on every text: none looks behind an end or cuts a character apart,
and each finds what its counterpart finds. The number of open blocks is that of the lines since some
line, so an `end` too many never brings it below zero.
-/

namespace PhoenixLens.Elixir.InPlace

theorem optionMapM_some {α β : Type} {f : α → Option β} {g : α → β} (h : ∀ x, f x = some (g x))
    (x : Option α) : x.mapM f = some (x.map g) := by
  cases x with
  | none => rfl
  | some a =>
    rw [Option.mapM_some, h]
    rfl

theorem foldlM_some {σ α : Type} {f : σ → α → Option σ} {g : σ → α → σ}
    (h : ∀ state x, f state x = some (g state x)) (state : σ) (xs : List α) :
    xs.foldlM f state = some (xs.foldl g state) := by
  rw [funext fun state => funext (h state)]
  exact List.foldlM_pure

/-! ### Components -/

def attributeOf (arguments : List (List Char)) (heredoc : Option (List Char)) :
    Option (Option Attribute) :=
  match arguments.head? >>= parseAtom? with
  | none => some none
  | some name => do
    let keywords ← keywordArguments (arguments.drop 2)
    let values ← (keyword? keywords "values").mapM parseNames
    return some
      { name := String.ofList name
        type := attributeType arguments[1]?
        required := requiredAmong keywords
        default := (keyword? keywords "default").map String.ofList
        values := values.map fun names => names.map String.ofList
        doc := docAmong? keywords heredoc }

def slotOf (arguments : List (List Char)) (heredoc : Option (List Char)) : Option (Option Slot) :=
  match arguments.head? >>= parseAtom? with
  | none => some none
  | some name => do
    let keywords ← keywordArguments (arguments.drop 1)
    return some
      { name := String.ofList name
        required := requiredAmong keywords
        doc := docAmong? keywords heredoc }

def takesAssigns (found : DefinitionHead) : Option Bool := do
  match ← headArguments found with
  | some [argument] => return Text.contains "assigns" argument
  | _ => return false

def readComponentLine (line : LogicalLine) : Option ComponentLine := do
  let text := Text.trim line.text
  match ← callArguments text "attr" with
  | some written => return .declaresAttribute (← attributeOf (splitArguments written) line.heredoc)
  | none =>
    match ← callArguments text "slot" with
    | some written =>
      return .declaresSlot (← slotOf (splitArguments written) line.heredoc) (opensDoBlock text)
    | none =>
      match ← head text with
      | some found => return .defines found.name (← takesAssigns found)
      | none => return .nothing

def takeComponentLine (file : Path) (state : ComponentState) (line : LogicalLine) :
    Option ComponentState :=
  if (docOf? line).isSome then do
    return { state with tracker := ← advance state.tracker line.text }
  else do
    let taken := state.apply file line.line (← readComponentLine line)
    return ComponentState.closeSlot { taken with tracker := ← advance taken.tracker line.text }

def componentsOf (file : Path) (source : List Char) : Option (List Component) := do
  return (← (← logicalLines source).foldlM (takeComponentLine file) {}).found

@[simp] theorem attributeOf_eq (arguments : List (List Char)) (heredoc : Option (List Char)) :
    attributeOf arguments heredoc = some (attributeOf? arguments heredoc) := by
  rw [attributeOf, attributeOf?]
  cases arguments.head? >>= parseAtom? with
  | none => rfl
  | some name =>
    simp [optionMapM_some parseNames_eq, Function.comp_def]

@[simp] theorem slotOf_eq (arguments : List (List Char)) (heredoc : Option (List Char)) :
    slotOf arguments heredoc = some (slotOf? arguments heredoc) := by
  rw [slotOf, slotOf?]
  cases arguments.head? >>= parseAtom? with
  | none => rfl
  | some name => simp

@[simp] theorem takesAssigns_eq (found : DefinitionHead) :
    takesAssigns found = some (Elixir.takesAssigns found) := by
  rw [takesAssigns, headArguments_eq, Elixir.takesAssigns]
  rcases found.arguments? with _ | _ | ⟨argument, _ | ⟨another, later⟩⟩ <;> rfl

@[simp] theorem readComponentLine_eq (line : LogicalLine) :
    readComponentLine line = some (Elixir.readComponentLine line) := by
  simp only [readComponentLine, Elixir.readComponentLine, callArguments_eq, head_eq,
    Option.bind_eq_bind, Option.bind_some]
  cases callArguments? (Text.trim line.text) "attr" with
  | some written => simp
  | none =>
    cases callArguments? (Text.trim line.text) "slot" with
    | some written => simp
    | none => cases definitionHead? (Text.trim line.text) <;> simp

theorem takeComponentLine_eq (file : Path) (state : ComponentState) (line : LogicalLine) :
    takeComponentLine file state line = some (state.takeLine file line) := by
  rw [takeComponentLine, ComponentState.takeLine]
  split
  · simp [ComponentState.settle]
  · simp [ComponentState.settle]

@[simp] theorem componentsOf_eq (file : Path) (source : List Char) :
    componentsOf file source = some (Elixir.componentsOf file source) := by
  simp [componentsOf, Elixir.componentsOf, foldlM_some (takeComponentLine_eq file)]

/-! ### Event handlers -/

def handlerHead (text : List Char) : Option (Option (EventKind × DefinitionHead)) := do
  match ← head text with
  | none => return none
  | some found =>
    return if found.isPrivate then none
      else (EventKind.ofTag? (String.ofList found.name)).map fun kind => (kind, found)

def readEventLine (text : List Char) : Option EventLine := do
  match ← handlerHead text with
  | some (kind, found) => do
    let arguments := (← headArguments found).getD []
    return .handles kind
      (match kind with
        | .handleEvent => pageEventHead? arguments
        | .handleInfo => messageHead? arguments)
  | none =>
    return if Text.startsWith "def " text || Text.startsWith "defp " text then .defines
      else .nothing

def takeEventLine (file : Path) (state : EventState) (line : LogicalLine) : Option EventState := do
  let tracker ← advance state.tracker line.text
  match state.pending.observe? line with
  | some pending => return { state with pending, tracker }
  | none =>
    let taken := state.apply file line.line (← readEventLine (Text.trim line.text))
    return { taken with tracker }

def eventsOf (file : Path) (source : List Char) : Option (List Event) := do
  return (← (← logicalLines source).foldlM (takeEventLine file) {}).found

@[simp] theorem handlerHead_eq (text : List Char) :
    handlerHead text = some (handlerHead? text) := by
  rw [handlerHead, head_eq, handlerHead?]
  cases definitionHead? text with
  | none => rfl
  | some found =>
    dsimp only [Option.bind_eq_bind, Option.bind_some]
    cases found.isPrivate with
    | true => rfl
    | false => cases EventKind.ofTag? (String.ofList found.name) <;> rfl

@[simp] theorem readEventLine_eq (text : List Char) :
    readEventLine text = some (Elixir.readEventLine text) := by
  rw [readEventLine, handlerHead_eq, Elixir.readEventLine]
  cases handlerHead? text with
  | none => simp
  | some handler =>
    obtain ⟨kind, found⟩ := handler
    cases kind <;> simp

theorem takeEventLine_eq (file : Path) (state : EventState) (line : LogicalLine) :
    takeEventLine file state line = some (state.takeLine file line) := by
  rw [takeEventLine, EventState.takeLine]
  cases state.pending.observe? line <;> simp

@[simp] theorem eventsOf_eq (file : Path) (source : List Char) :
    eventsOf file source = some (Elixir.eventsOf file source) := by
  simp [eventsOf, Elixir.eventsOf, foldlM_some (takeEventLine_eq file)]

/-! ### Schemas -/

def recordAlias (table : AliasTable) (moduleName written : List Char) : Option AliasTable :=
  let arguments := splitArguments written
  match arguments.head? with
  | none => some table
  | some target => do
    let keywords ← keywordArguments (← items? arguments 1 arguments.length)
    match Text.cutAt? ['.', '{'] target with
    | some (base, names) =>
      let names := splitArguments (Text.dropEndWhile (· == '}') names)
      return (names.filter isModuleName).foldl
        (fun table name => table.add moduleName (AliasTable.shortName name) (base ++ '.' :: name))
        table
    | none =>
      let given := (keyword? keywords "as").filter isModuleName
      return if isModuleName target then
        table.add moduleName (given.getD (AliasTable.shortName target)) (Text.trim target)
      else table

/-- The argument at the place of a type, unless it is a keyword. -/
def typeArgument : Option (List Char) → Option (Option (List Char))
  | none => some none
  | some argument => do
    return if (← parseKeyword argument).isNone then some argument else none

def fieldOf (arguments : List (List Char)) : Option (Option SchemaField) :=
  match arguments.head? >>= parseAtom? with
  | none => some none
  | some name => do
    let type := (← typeArgument arguments[1]?).map fun a => (parseAtom? a).getD (Text.trim a)
    let keywords ← keywordArguments arguments
    return some
      { name := String.ofList name
        type := String.ofList (type.getD "string".toList)
        default := (keyword? keywords "default").map String.ofList }

def timestampFields (arguments : List (List Char)) : Option (List SchemaField) := do
  let type := keyword? (← keywordArguments arguments) "type" >>= parseAtom?
  return ["inserted_at", "updated_at"].map fun name =>
    { name, type := String.ofList (type.getD "naive_datetime".toList) }

def associationAddition (owner : List Char) (expand : List Char → List Char)
    (type : AssociationType) (hasBlock : Bool) (arguments : List (List Char)) :
    Option (Option SchemaAddition) :=
  match arguments.head? >>= parseAtom? with
  | none => some none
  | some name => do
    let keywords ← keywordArguments arguments
    let target := associationTarget owner expand hasBlock name arguments[1]?
    return some
      { fields := if type == .belongsTo then [foreignKeyField name keywords] else []
        associations :=
          [{ fieldName := String.ofList name, targetModule := String.ofList target, type }]
        embedded := if hasBlock then some target else none }

def schemaAddition (owner : List Char) (expand : List Char → List Char) (text : List Char) :
    Option (Option SchemaAddition) := do
  let macroName := String.ofList (text.takeWhile fun c => c != ' ' && c != '(')
  let arguments := (← callArguments text macroName).map splitArguments
  match macroName with
  | "field" =>
    match arguments with
    | none => return none
    | some arguments => return (← fieldOf arguments).map fun field => { fields := [field] }
  | "timestamps" => return some { fields := ← timestampFields (arguments.getD []) }
  | _ =>
    match AssociationType.ofTag? macroName, arguments with
    | some type, some arguments =>
      associationAddition owner expand type (opensDoBlock text) arguments
    | _, _ => return none

def takeSchemaCode (file : Path) (line : Nat) (moduleName text : List Char) (state : SchemaState) :
    Option SchemaState := do
  match ← callArguments text "alias" with
  | some written => return { state with aliases := ← recordAlias state.aliases moduleName written }
  | none =>
    match (← callArguments text "schema").filter fun _ => opensDoBlock text with
    | some written =>
      return state.openSchema file line moduleName
        ((splitArguments written).head? >>= parseString?)
    | none =>
      if Text.startsWith "embedded_schema" text && opensDoBlock text then
        return state.openSchema file line moduleName none
      else
        match state.openSchemas with
        | [] => return state
        | inner :: _ =>
          let owner := inner.schema.moduleName.toList
          match ← schemaAddition owner (state.aliases.expand moduleName) text with
          | none => return state
          | some addition =>
            match addition.embedded with
            | some target => return (state.extend addition).openSchema file line target none
            | none => return state.extend addition

def takeSchemaLine (file : Path) (state : SchemaState) (line : LogicalLine) :
    Option SchemaState := do
  let taken ← match state.tracker.currentModule? with
    | some moduleName => takeSchemaCode file line.line moduleName (Text.trim line.text) state
    | none => some state
  let tracker ← advance taken.tracker line.text
  let isClosed := fun o : OpenSchema => tracker.depth ≤ o.outerDepth
  return { taken with
    tracker
    openSchemas := taken.openSchemas.dropWhile isClosed
    finished := taken.finished ++ (taken.openSchemas.takeWhile isClosed).map OpenSchema.schema }

def schemasOf (file : Path) (source : List Char) : Option (List SchemaInfo) := do
  let state ← (← logicalLines source).foldlM (takeSchemaLine file) {}
  let all := state.finished ++ (state.openSchemas.map OpenSchema.schema).reverse
  return all.mergeSort fun a b => a.line ≤ b.line

@[simp] theorem recordAlias_eq (table : AliasTable) (moduleName written : List Char) :
    recordAlias table moduleName written = some (table.record moduleName written) := by
  rw [recordAlias, AliasTable.record]
  cases splitArguments written with
  | nil => rfl
  | cons target rest =>
    simp only [List.head?_cons, items?_behindFirst, keywordArguments_eq, Option.bind_eq_bind,
      Option.bind_some]
    cases Text.cutAt? ['.', '{'] target with
    | some cut => rfl
    | none => rfl

@[simp] theorem typeArgument_eq (argument : Option (List Char)) :
    typeArgument argument = some (argument.filter fun a => (parseKeyword? a).isNone) := by
  cases argument with
  | none => rfl
  | some argument => simp [typeArgument, Option.filter]

@[simp] theorem fieldOf_eq (arguments : List (List Char)) :
    fieldOf arguments = some (fieldOf? arguments) := by
  rw [fieldOf, fieldOf?]
  cases arguments.head? >>= parseAtom? with
  | none => rfl
  | some name => simp

@[simp] theorem timestampFields_eq (arguments : List (List Char)) :
    timestampFields arguments = some (Elixir.timestampFields arguments) := by
  simp [timestampFields, Elixir.timestampFields]

@[simp] theorem associationAddition_eq (owner : List Char) (expand : List Char → List Char)
    (type : AssociationType) (hasBlock : Bool) (arguments : List (List Char)) :
    associationAddition owner expand type hasBlock arguments =
      some (associationAddition? owner expand type hasBlock arguments) := by
  rw [associationAddition, associationAddition?]
  cases arguments.head? >>= parseAtom? with
  | none => rfl
  | some name => simp

@[simp] theorem schemaAddition_eq (owner : List Char) (expand : List Char → List Char)
    (text : List Char) :
    schemaAddition owner expand text = some (schemaAddition? owner expand text) := by
  rw [schemaAddition, schemaAddition?]
  generalize String.ofList (text.takeWhile fun c => c != ' ' && c != '(') = macroName
  simp only [callArguments_eq, Option.bind_eq_bind, Option.bind_some]
  generalize (callArguments? text macroName).map splitArguments = arguments
  -- the name alone decides what is made of the arguments
  by_cases hField : macroName = "field"
  · subst hField
    cases arguments <;> simp
  · by_cases hTimestamps : macroName = "timestamps"
    · subst hTimestamps
      simp
    · cases AssociationType.ofTag? macroName <;> cases arguments <;> simp

theorem takeSchemaCode_eq (file : Path) (line : Nat) (moduleName text : List Char)
    (state : SchemaState) :
    takeSchemaCode file line moduleName text state =
      some (state.takeCode file line moduleName text) := by
  rw [takeSchemaCode, SchemaState.takeCode, callArguments_eq, callArguments_eq]
  dsimp only [Option.bind_eq_bind, Option.bind_some]
  cases callArguments? text "alias" with
  | some written => simp
  | none =>
    cases (callArguments? text "schema").filter fun _ => opensDoBlock text with
    | some written => rfl
    | none =>
      dsimp only
      split
      · rfl
      · cases state.openSchemas with
        | nil => rfl
        | cons inner outer =>
          simp only [schemaAddition_eq]
          cases schemaAddition? inner.schema.moduleName.toList (state.aliases.expand moduleName)
            text with
          | none => rfl
          | some addition =>
            dsimp only [Option.bind_eq_bind, Option.bind_some]
            cases addition.embedded <;> rfl

theorem takeSchemaLine_eq (file : Path) (state : SchemaState) (line : LogicalLine) :
    takeSchemaLine file state line = some (state.takeLine file line) := by
  rw [takeSchemaLine, SchemaState.takeLine]
  cases state.tracker.currentModule? <;> simp [takeSchemaCode_eq, SchemaState.settle]

@[simp] theorem schemasOf_eq (file : Path) (source : List Char) :
    schemasOf file source = some (Elixir.schemasOf file source) := by
  simp [schemasOf, Elixir.schemasOf, foldlM_some (takeSchemaLine_eq file)]

/-! ### Controllers -/

def assignsOfCall (arguments : List (List Char)) :
    Option (List (List Char × Option (List Char))) :=
  let rest := behindConn arguments
  match rest.head? >>= parseAtom? with
  | some name => some [(name, rest[1]?.map Text.trim)]
  | none => do return (← keywordArguments rest).map fun (key, value) => (key, some value)

def assignCalls (text : List Char) : Option (List (List Char × Option (List Char))) := do
  return (← (← calls "assign" text).mapM assignsOfCall).flatten

def viewOfCall (arguments : List (List Char)) : Option (Option (List Char)) :=
  let rest := behindConn arguments
  match rest.head? with
  | none => some none
  | some first =>
    if isModuleName first then some (some (Text.trim first))
    else do
      let keywords ← keywordArguments rest
      return if (← parseKeyword first).isSome then (keyword? keywords "html").filter isModuleName
        else none

def chosenView (text : List Char) : Option (Option (List Char)) := do
  return (← (← calls "put_view" text).mapM viewOfCall).findSome? id

def renderOfCall (arguments : List (List Char)) :
    Option (Option (List Char × List (List Char × List Char))) :=
  let rest := behindConn arguments
  match rest.head? >>= parseName? with
  | none => some none
  | some template => do
    let keywords ← keywordArguments (← items? rest 1 rest.length)
    return some (template.takeWhile (· != '.'), keywords)

def renderCalls (text : List Char) : Option (List (List Char × List (List Char × List Char))) := do
  return (← (← calls "render" text).mapM renderOfCall).filterMap id

def actionName (text : List Char) : Option (Option (List Char)) := do
  match ← head text with
  | none => return none
  | some found =>
    let arguments := (← headArguments found).getD []
    return if !found.isPrivate && arguments.head?.any mentionsConn then some found.name else none

def takeActionLine (action : OpenAction) (line : Nat) (text : List Char) :
    Option (OpenAction × List RenderInfo) := do
  let bound := action.bind text
  let given := (← assignCalls text).map fun (name, value) => bound.assign name value
  let assigned := { bound with assigns := addAssigns bound.assigns given }
  let chosen := { assigned with view := (← chosenView text).or assigned.view }
  return (chosen, (← renderCalls text).map fun (template, keywords) =>
    chosen.render line template keywords)

def takeControllerCode (moduleName : String) (line : Nat) (text : List Char)
    (state : ControllerState) : Option ControllerState := do
  let begun := match ← actionName text with
    | some name => state.begin moduleName line name
    | none => state
  match begun.action with
  | none => return begun
  | some action => do
    let (action, renders) ← takeActionLine action line text
    let add := fun c : ControllerInfo => { c with renders := c.renders ++ renders }
    return { begun with
      action := some action
      controllers := updateController moduleName add begun.controllers }

def takeControllerLine (file : Path) (state : ControllerState) (line : LogicalLine) :
    Option ControllerState := do
  let taken ← match state.tracker.currentModule?.map String.ofList with
    | some moduleName =>
      if state.controllers.any (·.moduleName == moduleName) then
        takeControllerCode moduleName line.line (Text.trim line.text) state
      else some state
    | none => some state
  let opened := (state.tracker.opened? line.text).toList.map fun name =>
    ({ moduleName := String.ofList name, filePath := file, line := line.line } : ControllerInfo)
  let tracker ← advance state.tracker line.text
  return {
    tracker
    controllers := opened ++ taken.controllers
    action := taken.action.filter fun a => a.outerDepth < tracker.depth }

def controllersOf (file : Path) (source : List Char) : Option (List ControllerInfo) := do
  let state ← (← logicalLines source).foldlM (takeControllerLine file) {}
  return state.controllers.reverse.filter fun c => !c.actions.isEmpty || !c.renders.isEmpty

theorem assignsOfCall_eq (arguments : List (List Char)) :
    assignsOfCall arguments = some
      (match (behindConn arguments).head? >>= parseAtom? with
        | some name => [(name, (behindConn arguments)[1]?.map Text.trim)]
        | none => (Elixir.keywordArguments (behindConn arguments)).map fun (key, value) =>
          (key, some value)) := by
  rw [assignsOfCall]
  cases (behindConn arguments).head? >>= parseAtom? <;> simp

theorem viewOfCall_eq (arguments : List (List Char)) :
    viewOfCall arguments = some ((behindConn arguments).head?.bind fun first =>
      if isModuleName first then some (Text.trim first)
      else if (parseKeyword? first).isSome then
        (keyword? (Elixir.keywordArguments (behindConn arguments)) "html").filter isModuleName
      else none) := by
  rw [viewOfCall]
  cases (behindConn arguments).head? with
  | none => rfl
  | some first =>
    dsimp only
    split <;> simp [*]

theorem renderOfCall_eq (arguments : List (List Char)) :
    renderOfCall arguments = some
      (match behindConn arguments with
        | [] => none
        | first :: rest => (parseName? first).map fun template =>
          (template.takeWhile (· != '.'), Elixir.keywordArguments rest)) := by
  rw [renderOfCall]
  cases behindConn arguments with
  | nil => rfl
  | cons first rest =>
    simp only [List.head?_cons, Option.bind_eq_bind, Option.bind_some, items?_behindFirst]
    cases parseName? first <;> simp

@[simp] theorem assignCalls_eq (text : List Char) :
    assignCalls text = some (Elixir.assignCalls text) := by
  simp only [assignCalls, calls_eq, mapM_some assignsOfCall_eq, Option.bind_eq_bind,
    Option.bind_some]
  rfl

@[simp] theorem chosenView_eq (text : List Char) :
    chosenView text = some (chosenView? text) := by
  simp only [chosenView, calls_eq, mapM_some viewOfCall_eq, Option.bind_eq_bind, Option.bind_some,
    List.findSome?_map, Function.id_comp]
  rfl

@[simp] theorem renderCalls_eq (text : List Char) :
    renderCalls text = some (Elixir.renderCalls text) := by
  simp only [renderCalls, calls_eq, mapM_some renderOfCall_eq, Option.bind_eq_bind,
    Option.bind_some, List.filterMap_map, Function.id_comp]
  rfl

@[simp] theorem actionName_eq (text : List Char) : actionName text = some (actionName? text) := by
  rw [actionName, head_eq, actionName?]
  cases definitionHead? text with
  | none => rfl
  | some found =>
    simp only [headArguments_eq, Option.bind_eq_bind, Option.bind_some]
    cases found.isPrivate with
    | true => rfl
    | false =>
      cases found.arguments? with
      | none => rfl
      | some arguments =>
        cases hConn : arguments.head?.any mentionsConn <;>
          simp only [Option.getD_some, Option.bind_some, hConn] <;> rfl

@[simp] theorem takeActionLine_eq (action : OpenAction) (line : Nat) (text : List Char) :
    takeActionLine action line text = some (action.takeLine line text) := by
  simp [takeActionLine, OpenAction.takeLine, OpenAction.collect, OpenAction.choose]

theorem takeControllerCode_eq (moduleName : String) (line : Nat) (text : List Char)
    (state : ControllerState) :
    takeControllerCode moduleName line text state = some (state.takeCode moduleName line text) := by
  rw [takeControllerCode, actionName_eq, ControllerState.takeCode]
  simp only [takeActionLine_eq, Option.bind_eq_bind, Option.bind_some]
  cases actionName? text <;> dsimp only <;> split <;> simp [*]

theorem takeControllerLine_eq (file : Path) (state : ControllerState) (line : LogicalLine) :
    takeControllerLine file state line = some (state.takeLine file line) := by
  rw [takeControllerLine, ControllerState.takeLine]
  cases state.tracker.currentModule?.map String.ofList with
  | none => simp
  | some moduleName =>
    dsimp only
    split <;> simp [takeControllerCode_eq]

@[simp] theorem controllersOf_eq (file : Path) (source : List Char) :
    controllersOf file source = some (Elixir.controllersOf file source) := by
  simp [controllersOf, Elixir.controllersOf, foldlM_some (takeControllerLine_eq file)]

/-! ### Templates -/

def templateFunction (text : List Char) : Option (Option (List Char)) := do
  match ← head text with
  | none => return none
  | some found =>
    match ← headArguments found with
    | some [argument] =>
      let isAssigns := Text.trim argument == "assigns".toList
      return if !found.isPrivate && found.name.all Text.isAsciiWord && isAssigns then
        some found.name
      else none
    | _ => return none

def templatesOfLine (disk : Disk) (file : Path) (tracker : BlockTracker) (moduleName : List Char)
    (line : Nat) (text : List Char) : Option (List TemplateInfo) := do
  match ← callArguments text "embed_templates" with
  | some written => return embeddedTemplates disk file moduleName line (splitArguments written)
  | none =>
    if (file.fileName?.any fun n => Text.endsWith "_html.ex" n.toList) && tracker.depth == 1 then
      return (← templateFunction text).toList.map fun name =>
        { name := String.ofList name
          moduleName := String.ofList moduleName
          filePath := file
          moduleFile := file
          line
          kind := .function }
    else return []

def takeTemplateLine (disk : Disk) (file : Path) (state : TemplateState) (line : LogicalLine) :
    Option (TemplateState × List TemplateInfo) := do
  let templates ← match state.tracker.currentModule? with
    | some moduleName =>
      templatesOfLine disk file state.tracker moduleName line.line (Text.trim line.text)
    | none => some []
  let opened := (state.tracker.opened? line.text).map fun name => (name, line.line)
  return ({ tracker := ← advance state.tracker line.text, first := state.first.or opened },
    templates)

def templatesOfLines (disk : Disk) (file : Path) (state : TemplateState) :
    List LogicalLine → Option (List TemplateInfo)
  | [] => some (state.colocated disk file)
  | line :: lines => do
    let (state, templates) ← takeTemplateLine disk file state line
    return templates ++ (← templatesOfLines disk file state lines)

def templatesOf (disk : Disk) (file : Path) (source : List Char) : Option (List TemplateInfo) := do
  templatesOfLines disk file {} (← logicalLines source)

@[simp] theorem templateFunction_eq (text : List Char) :
    templateFunction text = some (templateFunction? text) := by
  rw [templateFunction, head_eq, templateFunction?]
  cases definitionHead? text with
  | none => rfl
  | some found =>
    simp only [headArguments_eq, Option.bind_eq_bind, Option.bind_some]
    generalize hPlain : found.name.all Text.isAsciiWord = isPlain
    rcases found.arguments? with _ | _ | ⟨argument, _ | ⟨another, later⟩⟩
    · cases found.isPrivate <;> cases isPlain <;> rfl
    · cases found.isPrivate <;> cases isPlain <;> rfl
    · dsimp only [Option.bind_some]
      generalize (Text.trim argument == "assigns".toList) = isAssigns
      cases found.isPrivate <;> cases isPlain <;> cases isAssigns <;> rfl
    · cases found.isPrivate <;> cases isPlain <;> rfl

@[simp] theorem templatesOfLine_eq (disk : Disk) (file : Path) (tracker : BlockTracker)
    (moduleName : List Char) (line : Nat) (text : List Char) :
    templatesOfLine disk file tracker moduleName line text =
      some (Elixir.templatesOfLine disk file tracker moduleName line text) := by
  rw [templatesOfLine, callArguments_eq, Elixir.templatesOfLine]
  cases callArguments? text "embed_templates" with
  | some written => rfl
  | none =>
    simp only [templateFunction_eq, Option.bind_eq_bind, Option.bind_some]
    split <;> rfl

@[simp] theorem takeTemplateLine_eq (disk : Disk) (file : Path) (state : TemplateState)
    (line : LogicalLine) :
    takeTemplateLine disk file state line = some (state.takeLine disk file line) := by
  rw [takeTemplateLine, TemplateState.takeLine]
  cases state.tracker.currentModule? <;> simp

@[simp] theorem templatesOfLines_eq (disk : Disk) (file : Path) (state : TemplateState)
    (lines : List LogicalLine) :
    templatesOfLines disk file state lines =
      some (Elixir.templatesOfLines disk file state lines) := by
  induction lines generalizing state with
  | nil => rfl
  | cons line lines ih => simp [templatesOfLines, Elixir.templatesOfLines, ih]

@[simp] theorem templatesOf_eq (disk : Disk) (file : Path) (source : List Char) :
    templatesOf disk file source = some (Elixir.templatesOf disk file source) := by
  simp [templatesOf, Elixir.templatesOf]

/-! ### Routers -/

def argumentsOf (arguments : List (List Char)) : Option Arguments := do
  return ⟨← positionalArguments arguments, ← keywordArguments arguments⟩

def fixedHelper (path : List Char) : Option (Option (List Char)) :=
  match (fixedSegments path).map (underscore fun c => c == '-' || c == '.') with
  | [] => some none
  | first :: rest => do return some (Text.join ['_'] ((← singular first) :: rest))

def moduleHelper (moduleName : List Char) (ending : String) : Option (List Char) :=
  let last := Text.lastSegment moduleName
  snakeCase ((Text.stripSuffix? ending last).getD last)

/-- The helper name of a route to a module, as it is given or made up. -/
def ownHelper (arguments : Arguments) (own : List Char) (target : Option (List Char))
    (ending : String) : Option (List Char) := do
  let fixed ← fixedHelper own
  let named ← target.mapM (moduleHelper · ending)
  return ((arguments.helper?.or fixed).or named).getD []

def verbRoute (context : RouterContext) (file : Path) (line : Nat) (verb : List Char)
    (arguments : Arguments) : Option (Option Route) :=
  match arguments.path? with
  | none => some none
  | some own => do
    let rest := arguments.positional.tail
    let controller := (rest.find? isModuleName).map Text.trim
    let helper ← ownHelper arguments own controller "Controller"
    return some { context.route file line verb own (context.fullHelper helper) with
      controller := controller.map fun c => String.ofList (context.qualify c)
      action := (rest.findSome? parseAtom?).map String.ofList }

def matchRoutes (context : RouterContext) (file : Path) (line : Nat)
    (arguments : List (List Char)) : Option (List Route) :=
  match arguments with
  | [] => some []
  | verbs :: rest => do
    let given ← argumentsOf rest
    let routes ← (← parseNames verbs).mapM fun verb =>
      verbRoute context file line (Text.asciiUppercase verb) given
    return routes.filterMap id

def liveRoute (context : RouterContext) (file : Path) (line : Nat) (arguments : Arguments) :
    Option (Option Route) :=
  match arguments.path? with
  | none => some none
  | some own => do
    let view := arguments.moduleAt? 1
    let helper ← ownHelper arguments own view "Live"
    return some { context.route file line "GET".toList own (context.fullHelper helper) with
      liveModule := view.map fun m => String.ofList (context.qualify m)
      liveAction := (arguments.positional[2]? >>= parseAtom?).map String.ofList }

def forwardRoute (context : RouterContext) (file : Path) (line : Nat) (arguments : Arguments) :
    Option (Option Route) :=
  match arguments.path? with
  | none => some none
  | some own => do
    let helper := context.fullHelper ((← fixedHelper own).getD [])
    return some { context.route file line ['*'] own helper with
      forwardTo := (arguments.moduleAt? 1).map fun m => String.ofList (context.qualify m) }

def resourcesOf (arguments : Arguments) : Option (Option Resources) :=
  match arguments.path? with
  | none => some none
  | some path => do
    return some
      { path
        controller := arguments.moduleAt? 1
        only := ← (arguments.keyword? "only").mapM parseNames
        except := ← (arguments.keyword? "except").mapM parseNames
        singleton := arguments.keyword? "singleton" == some "true".toList
        param? := arguments.keyword? "param" >>= parseString?
        helper? := arguments.helper? }

def itemName (r : Resources) : Option (List Char) :=
  singular (underscore (· == '-') ((fixedSegments r.path).getLast?.getD []))

def resourceRoutes (r : Resources) (context : RouterContext) (file : Path) (line : Nat) :
    Option (List Route) := do
  let helper := context.fullHelper (r.helper?.getD (← itemName r))
  return (r.allActions.filter fun a => r.allows a.action).map fun a =>
    { context.route file line a.verb.toList (r.base ++ a.ending) helper with
      controller := r.controller.map fun c => String.ofList (context.qualify c)
      action := some a.action
      isResource := true
      resourceOptions := some r.options }

def resourceFrame (r : Resources) : Option RouterFrame := do
  let item ← itemName r
  return .resources
    (if r.singleton then r.path else r.base ++ '/' :: ':' :: item ++ '_' :: r.param)
    (r.helper?.getD item)

def readRouterLine (context : RouterContext) (file : Path) (line : Nat) (text : List Char) :
    Option RouterLine :=
  match macroName? text with
  | none => some .nothing
  | some name => do
    let macroName := String.ofList name
    match ← callArguments text macroName with
    | none => return .nothing
    | some written => do
      let split := splitArguments written
      let arguments ← argumentsOf split
      let opensBlock := opensDoBlock text
      match macroName with
      | "scope" => return if opensBlock then .opens (scopeFrame arguments) else .nothing
      | "pipeline" => return if opensBlock then .opens .pipeline else .nothing
      | "live_session" => return if opensBlock then .opens .liveSession else .nothing
      | "pipe_through" => return .pipesThrough (← parseNames written)
      | "resources" =>
        return match ← resourcesOf arguments with
          | some resources => .expands resources opensBlock
          | none => .nothing
      | "live" => return .declares (← liveRoute context file line arguments).toList
      | "forward" => return .declares (← forwardRoute context file line arguments).toList
      | "match" => return .declares (← matchRoutes context file line split)
      | _ =>
        let route ← verbRoute context file line (Text.asciiUppercase name) arguments
        return if routeVerbs.contains macroName then .declares route.toList else .nothing

/-- Does what a line of a router says; resources are expanded only now. -/
def applyRouterLine (state : RouterState) (file : Path) (line : Nat) :
    RouterLine → Option (RouterState × List Route)
  | .expands resources opensBlock => do
    let routes ← resourceRoutes resources state.context file line
    let frame ← resourceFrame resources
    return (if opensBlock then state.push frame else state, routes)
  | other => some (state.apply file line other)

def takeRouterLine (file : Path) (state : RouterState) (line : LogicalLine) :
    Option (RouterState × List Route) := do
  let action ←
    if state.inPipeline then some .nothing
    else readRouterLine state.context file line.line (Text.trim line.text)
  let (taken, routes) ← applyRouterLine state file line.line action
  let tracker ← advance taken.tracker line.text
  let frames := taken.frames.dropWhile fun f => tracker.depth ≤ f.outerDepth
  return ({ taken with tracker, frames }, routes)

def routesOfLines (file : Path) (state : RouterState) : List LogicalLine → Option (List Route)
  | [] => some []
  | line :: lines => do
    let (state, routes) ← takeRouterLine file state line
    return routes ++ (← routesOfLines file state lines)

def routesOf (file : Path) (source : List Char) : Option (List Route) := do
  routesOfLines file {} (← logicalLines source)

section Routers

variable (context : RouterContext) (file : Path) (line : Nat)

@[simp] theorem argumentsOf_eq (arguments : List (List Char)) :
    argumentsOf arguments = some (.ofList arguments) := by
  simp [argumentsOf, Arguments.ofList]

@[simp] theorem fixedHelper_eq (path : List Char) :
    fixedHelper path = some (fixedHelper? path) := by
  rw [fixedHelper, fixedHelper?]
  cases (fixedSegments path).map (underscore fun c => c == '-' || c == '.') <;> simp

@[simp] theorem moduleHelper_eq (moduleName : List Char) (ending : String) :
    moduleHelper moduleName ending = some (Elixir.moduleHelper moduleName ending) := by
  simp [moduleHelper, Elixir.moduleHelper]

theorem ownHelper_eq (arguments : Arguments) (own : List Char) (target : Option (List Char))
    (ending : String) :
    ownHelper arguments own target ending = some (((arguments.helper?.or (fixedHelper? own)).or
      (target.map (Elixir.moduleHelper · ending))).getD []) := by
  rw [ownHelper, fixedHelper_eq, optionMapM_some fun name => moduleHelper_eq name ending]
  rfl

@[simp] theorem verbRoute_eq (verb : List Char) (arguments : Arguments) :
    verbRoute context file line verb arguments =
      some (verbRoute? context file line verb arguments) := by
  rw [verbRoute, verbRoute?]
  cases arguments.path? with
  | none => rfl
  | some own => simp [ownHelper_eq]

@[simp] theorem matchRoutes_eq (arguments : List (List Char)) :
    matchRoutes context file line arguments =
      some (Elixir.matchRoutes context file line arguments) := by
  cases arguments with
  | nil => rfl
  | cons verbs rest =>
    have hRoutes := mapM_some (fun verb =>
      verbRoute_eq context file line (Text.asciiUppercase verb) (.ofList rest))
    simp only [matchRoutes, argumentsOf_eq, parseNames_eq, hRoutes, Option.bind_eq_bind,
      Option.bind_some, Elixir.matchRoutes, List.filterMap_map, Function.id_comp]
    rfl

@[simp] theorem liveRoute_eq (arguments : Arguments) :
    liveRoute context file line arguments =
      some (liveRoute? context file line arguments) := by
  rw [liveRoute, liveRoute?]
  cases arguments.path? with
  | none => rfl
  | some own => simp [ownHelper_eq]

@[simp] theorem forwardRoute_eq (arguments : Arguments) :
    forwardRoute context file line arguments =
      some (forwardRoute? context file line arguments) := by
  rw [forwardRoute, forwardRoute?]
  cases arguments.path? <;> simp

@[simp] theorem resourcesOf_eq (arguments : Arguments) :
    resourcesOf arguments = some (Resources.ofArguments? arguments) := by
  rw [resourcesOf, Resources.ofArguments?]
  cases arguments.path? with
  | none => rfl
  | some path => simp [optionMapM_some parseNames_eq]

@[simp] theorem itemName_eq (r : Resources) : itemName r = some r.itemName := singular_eq _

@[simp] theorem resourceRoutes_eq (r : Resources) :
    resourceRoutes r context file line = some (r.routes context file line) := by
  simp [resourceRoutes, Resources.routes, Resources.helper]

@[simp] theorem resourceFrame_eq (r : Resources) : resourceFrame r = some r.frame := by
  simp [resourceFrame, Resources.frame, Resources.helper]

@[simp] theorem readRouterLine_eq (text : List Char) :
    readRouterLine context file line text =
      some (Elixir.readRouterLine context file line text) := by
  rw [readRouterLine, Elixir.readRouterLine]
  cases macroName? text with
  | none => rfl
  | some name =>
    simp only [callArguments_eq, Option.bind_eq_bind, Option.bind_some]
    cases callArguments? text (String.ofList name) with
    | none => rfl
    | some written =>
      simp only [argumentsOf_eq, parseNames_eq, resourcesOf_eq, liveRoute_eq, forwardRoute_eq,
        matchRoutes_eq, verbRoute_eq, Option.bind_some]
      cases Resources.ofArguments? (.ofList (splitArguments written)) with
      | none => split <;> simp [*]
      | some resources => split <;> simp [*]

@[simp] theorem applyRouterLine_eq (state : RouterState) (read : RouterLine) :
    applyRouterLine state file line read = some (state.apply file line read) := by
  cases read with
  | expands resources opensBlock => simp [applyRouterLine, RouterState.apply]
  | _ => rfl

end Routers

theorem takeRouterLine_eq (file : Path) (state : RouterState) (line : LogicalLine) :
    takeRouterLine file state line = some (state.takeLine file line) := by
  rw [takeRouterLine, RouterState.takeLine]
  split <;> simp [RouterState.settle]

@[simp] theorem routesOfLines_eq (file : Path) (state : RouterState) (lines : List LogicalLine) :
    routesOfLines file state lines = some (Elixir.routesOfLines file state lines) := by
  induction lines generalizing state with
  | nil => rfl
  | cons line lines ih =>
    simp [routesOfLines, Elixir.routesOfLines, takeRouterLine_eq, ih]

@[simp] theorem routesOf_eq (file : Path) (source : List Char) :
    routesOf file source = some (Elixir.routesOf file source) := by
  simp [routesOf, Elixir.routesOf]

/-! ### All scanners -/

/-- The entities of a kind in a source text. -/
def scan (disk : Disk) (file : Path) (source : List Char) :
    (kind : EntityKind) → Option (List kind.Entity)
  | .components => componentsOf file source
  | .routes => routesOf file source
  | .events => eventsOf file source
  | .schemas => schemasOf file source
  | .templates => templatesOf disk file source
  | .controllers => controllersOf file source

theorem scan_eq (disk : Disk) (file : Path) (source : List Char) (kind : EntityKind) :
    scan disk file source kind = some (kind.scan disk file source) := by
  cases kind with
  | components => exact componentsOf_eq file source
  | routes => exact routesOf_eq file source
  | events => exact eventsOf_eq file source
  | schemas => exact schemasOf_eq file source
  | templates => exact templatesOf_eq disk file source
  | controllers => exact controllersOf_eq file source

/-! ### Open blocks -/

/-- The blocks that lines open, less those that they close. -/
def balance : List (List Char) → Int
  | [] => 0
  | text :: texts => (blockDelta text).1 - (blockDelta text).2 + balance texts

theorem balance_append (texts more : List (List Char)) :
    balance (texts ++ more) = balance texts + balance more := by
  induction texts with
  | nil => exact (Int.zero_add _).symm
  | cons text texts ih => rw [List.cons_append, balance, ih, balance, Int.add_assoc]

theorem depth_concat (seen : List (List Char)) (text : List Char) :
    ((BlockTracker.after (seen ++ [text])).depth : Int) =
      max 0 ((BlockTracker.after seen).depth + balance [text]) := by
  have hAdvance : BlockTracker.after (seen ++ [text]) = (BlockTracker.after seen).advance text :=
    List.foldl_concat _ _ _ _
  have hDepth : ((BlockTracker.after seen).advance text).depth =
      (BlockTracker.after seen).depth + (blockDelta text).1 - (blockDelta text).2 := rfl
  rw [hAdvance, hDepth, balance, balance]
  omega

theorem balance_le_depth {seen last : List (List Char)} (h : last <:+ seen) :
    balance last ≤ (BlockTracker.after seen).depth := by
  induction seen using List.reverseRecOn generalizing last with
  | nil =>
    rw [List.suffix_nil.mp h]
    exact Int.le_refl 0
  | append_singleton seen text ih =>
    rw [depth_concat]
    rcases List.suffix_concat_iff.mp h with rfl | ⟨last, rfl, hLast⟩
    · exact Int.le_max_left 0 _
    · have hSeen := ih hLast
      rw [balance_append]
      omega

/-- The open blocks are those of the lines since some line, and no fewer than those of the lines
since any other: an `end` that closes nothing counts for nothing. -/
theorem exists_balance_eq_depth (seen : List (List Char)) :
    ∃ last, last <:+ seen ∧ balance last = (BlockTracker.after seen).depth := by
  induction seen using List.reverseRecOn with
  | nil => exact ⟨[], List.suffix_refl _, rfl⟩
  | append_singleton seen text ih =>
    obtain ⟨last, hLast, hBalance⟩ := ih
    rw [depth_concat, ← hBalance]
    -- the line goes on with those before it, unless it closes more than they have opened
    rcases Int.le_total 0 (balance last + balance [text]) with hMore | hLess
    · refine ⟨last ++ [text], List.suffix_concat_iff.mpr (.inr ⟨last, rfl, hLast⟩), ?_⟩
      rw [balance_append]
      omega
    · refine ⟨[], List.nil_suffix, ?_⟩
      have hNone : balance [] = 0 := rfl
      omega

/-- No reader fails on any text, alone or within a scanner. -/
theorem scanning_completes (text : List Char) :
    (∀ (disk : Disk) (file : Path) (kind : EntityKind),
      scan disk file text kind = some (kind.scan disk file text)) ∧
    logicalLines text = some (Elixir.logicalLines text) ∧
    (∀ lines, dedent lines = some (Elixir.dedent lines)) ∧
    (∀ name, callArguments text name = some (callArguments? text name) ∧
      calls name text = some (callsOf name text)) ∧
    head text = some (definitionHead? text) ∧
    beforeClosing text = some (beforeClosing? text) ∧
    parseKeyword text = some (parseKeyword? text) ∧
    parseNames text = some (Elixir.parseNames text) ∧
    ∀ seen : List (List Char),
      (∀ last, last <:+ seen → balance last ≤ (BlockTracker.after seen).depth) ∧
        ∃ last, last <:+ seen ∧ balance last = (BlockTracker.after seen).depth := by
  refine ⟨fun disk file kind => scan_eq disk file text kind, logicalLines_eq text, dedent_eq,
    fun name => ⟨callArguments_eq text name, calls_eq name text⟩, head_eq text,
    beforeClosing_eq text, parseKeyword_eq text, parseNames_eq text, fun seen => ?_⟩
  exact ⟨fun last => balance_le_depth, exists_balance_eq_depth seen⟩

end PhoenixLens.Elixir.InPlace
