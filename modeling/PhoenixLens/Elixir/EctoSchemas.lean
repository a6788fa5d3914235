import PhoenixLens.Elixir.Literal
import PhoenixLens.Elixir.LogicalLine
import PhoenixLens.Model.Schema
import PhoenixLens.Text.Casing

/-!
# Schemas in source

The schemas that a file declares with their fields and associations. The module that an association
leads to is written in full or by an alias of the module around it; an embedded schema with a block
of its own is a schema too.
-/

namespace PhoenixLens.Elixir

/-- Short names for modules, the latest first, each with the module that it holds in. -/
structure AliasTable where
  entries : List ((List Char × List Char) × List Char) := []
deriving DecidableEq, Repr

namespace AliasTable

/-- The short name of a module: its last part. -/
def shortName (moduleName : List Char) : List Char := Text.trim (Text.lastSegment moduleName)

def add (table : AliasTable) (moduleName short full : List Char) : AliasTable :=
  { entries := ((moduleName, short), full) :: table.entries }

/-- Takes up the arguments of an `alias`, which names one module or several in braces. -/
def record (table : AliasTable) (moduleName : List Char) (written : List Char) : AliasTable :=
  let arguments := splitArguments written
  match arguments with
  | [] => table
  | target :: rest =>
    match Text.cutAt? ['.', '{'] target with
    | some (base, names) =>
      let names := splitArguments (Text.dropEndWhile (· == '}') names)
      (names.filter isModuleName).foldl
        (fun table name => table.add moduleName (shortName name) (base ++ '.' :: name)) table
    | none =>
      if isModuleName target then
        let given := (keyword? (keywordArguments rest) "as").filter isModuleName
        table.add moduleName (given.getD (shortName target)) (Text.trim target)
      else table

/-- A module name in full, as it is meant inside a module. -/
def expand (table : AliasTable) (moduleName name : List Char) : List Char :=
  let name := Text.trim name
  match Text.stripPrefix? "__MODULE__" name with
  | some rest => moduleName ++ rest
  | none =>
    let head := name.takeWhile (· != '.')
    match table.entries.lookup (moduleName, head) with
    | some full => full ++ name.drop head.length
    | none => name

end AliasTable

/-- A schema whose block is open, and the blocks that were open before it. -/
structure OpenSchema where
  schema : SchemaInfo
  outerDepth : Nat
deriving DecidableEq, Repr

/-- What is known between two lines: the open schemas, innermost first, and the finished ones in
order of their ends. -/
structure SchemaState where
  tracker : BlockTracker := {}
  aliases : AliasTable := {}
  openSchemas : List OpenSchema := []
  finished : List SchemaInfo := []
deriving DecidableEq, Repr

/-- What a line inside a schema adds to it, and the schema that it opens. -/
structure SchemaAddition where
  fields : List SchemaField := []
  associations : List Association := []
  embedded : Option (List Char) := none
deriving DecidableEq, Repr

def fieldOf? (arguments : List (List Char)) : Option SchemaField :=
  (arguments.head? >>= parseAtom?).map fun name =>
    let type := (arguments[1]?.filter fun a => (parseKeyword? a).isNone).map fun a =>
      (parseAtom? a).getD (Text.trim a)
    { name := String.ofList name
      type := String.ofList (type.getD "string".toList)
      default := (keyword? (keywordArguments arguments) "default").map String.ofList }

/-- The two fields that `timestamps` declares. -/
def timestampFields (arguments : List (List Char)) : List SchemaField :=
  let type := keyword? (keywordArguments arguments) "type" >>= parseAtom?
  ["inserted_at", "updated_at"].map fun name =>
    { name, type := String.ofList (type.getD "naive_datetime".toList) }

/-- The field that holds the key of the schema that one belongs to. -/
def foreignKeyField (name : List Char) (keywords : List (List Char × List Char)) : SchemaField :=
  { name := String.ofList ((keyword? keywords "foreign_key" >>= parseAtom?).getD
      (name ++ "_id".toList))
    type := String.ofList ((keyword? keywords "type" >>= parseAtom?).getD "id".toList) }

/-- The module that an association leads to. An association with a block of its own leads to a
module inside that of the schema. -/
def associationTarget (owner : List Char) (expand : List Char → List Char) (hasBlock : Bool)
    (name : List Char) (argument : Option (List Char)) : List Char :=
  match argument.filter fun a => isModuleName a || Text.startsWith "__MODULE__" a with
  | some a => if hasBlock then owner ++ '.' :: Text.trim a else expand a
  | none => owner ++ '.' :: Text.camelCase name

def associationAddition? (owner : List Char) (expand : List Char → List Char)
    (type : AssociationType) (hasBlock : Bool) (arguments : List (List Char)) :
    Option SchemaAddition :=
  (arguments.head? >>= parseAtom?).map fun name =>
    let target := associationTarget owner expand hasBlock name arguments[1]?
    { fields :=
        if type == .belongsTo then [foreignKeyField name (keywordArguments arguments)] else []
      associations :=
        [{ fieldName := String.ofList name, targetModule := String.ofList target, type }]
      embedded := if hasBlock then some target else none }

def schemaAddition? (owner : List Char) (expand : List Char → List Char) (text : List Char) :
    Option SchemaAddition :=
  let macroName := String.ofList (text.takeWhile fun c => c != ' ' && c != '(')
  let arguments := (callArguments? text macroName).map splitArguments
  match macroName with
  | "field" => (arguments >>= fieldOf?).map fun field => { fields := [field] }
  | "timestamps" => some { fields := timestampFields (arguments.getD []) }
  | _ => do
    associationAddition? owner expand (← AssociationType.ofTag? macroName) (opensDoBlock text)
      (← arguments)

namespace SchemaState

/-- Opens a schema in the block that a line opens. -/
def openSchema (state : SchemaState) (file : Path) (line : Nat) (moduleName : List Char)
    (table : Option (List Char)) : SchemaState :=
  let schema : SchemaInfo :=
    { moduleName := String.ofList moduleName
      tableName := table.map String.ofList
      filePath := file
      line }
  { state with openSchemas := ⟨schema, state.tracker.depth⟩ :: state.openSchemas }

/-- Adds to the innermost open schema. -/
def extend (state : SchemaState) (addition : SchemaAddition) : SchemaState :=
  match state.openSchemas with
  | [] => state
  | inner :: outer =>
    let schema :=
      { inner.schema with
        fields := inner.schema.fields ++ addition.fields
        associations := inner.schema.associations ++ addition.associations }
    { state with openSchemas := { inner with schema } :: outer }

/-- Takes up a line of code inside a module. -/
def takeCode (state : SchemaState) (file : Path) (line : Nat) (moduleName text : List Char) :
    SchemaState :=
  match callArguments? text "alias" with
  | some written => { state with aliases := state.aliases.record moduleName written }
  | none =>
    match (callArguments? text "schema").filter fun _ => opensDoBlock text with
    | some written =>
      state.openSchema file line moduleName ((splitArguments written).head? >>= parseString?)
    | none =>
      if Text.startsWith "embedded_schema" text && opensDoBlock text then
        state.openSchema file line moduleName none
      else
        match state.openSchemas with
        | [] => state
        | inner :: _ =>
          let expand := state.aliases.expand moduleName
          match schemaAddition? inner.schema.moduleName.toList expand text with
          | none => state
          | some addition =>
            let state := state.extend addition
            match addition.embedded with
            | some target => state.openSchema file line target none
            | none => state

/-- Counts the blocks of a line and finishes the schemas whose blocks are closed. -/
def settle (state : SchemaState) (text : List Char) : SchemaState :=
  let tracker := state.tracker.advance text
  let isClosed := fun o : OpenSchema => tracker.depth ≤ o.outerDepth
  { state with
    tracker
    openSchemas := state.openSchemas.dropWhile isClosed
    finished := state.finished ++ (state.openSchemas.takeWhile isClosed).map OpenSchema.schema }

def takeLine (state : SchemaState) (file : Path) (line : LogicalLine) : SchemaState :=
  let taken := match state.tracker.currentModule? with
    | some moduleName => state.takeCode file line.line moduleName (Text.trim line.text)
    | none => state
  taken.settle line.text

end SchemaState

/-- The schemas that a file declares, in order of their lines. -/
def schemasOf (file : Path) (source : List Char) : List SchemaInfo :=
  let state := (logicalLines source).foldl (fun state line => state.takeLine file line)
    ({} : SchemaState)
  let all := state.finished ++ (state.openSchemas.map OpenSchema.schema).reverse
  all.mergeSort fun a b => a.line ≤ b.line

end PhoenixLens.Elixir
