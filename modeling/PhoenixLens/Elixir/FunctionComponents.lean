import PhoenixLens.Elixir.Definition
import PhoenixLens.Elixir.LogicalLine
import PhoenixLens.Model.Component

/-!
# Function components in source

The components that a file defines, with the attributes and slots declared before each of them.
Attributes declared inside the block of a slot belong to the slot.
-/

namespace PhoenixLens.Elixir

/-- The documentation among keywords; an empty string stands for the heredoc of the line. -/
def docAmong? (keywords : List (List Char × List Char)) (heredoc : Option (List Char)) :
    Option String :=
  (keyword? keywords "doc").bind fun value =>
    (if value == ['"', '"'] then heredoc.or (parseString? value) else parseString? value).map
      String.ofList

def requiredAmong (keywords : List (List Char × List Char)) : Bool :=
  keyword? keywords "required" == some "true".toList

/-- The type that an argument names; `any` where it names none. -/
def attributeType (argument : Option (List Char)) : String :=
  String.ofList ((argument.bind fun a =>
    (parseAtom? a).or (if isModuleName a then some (Text.trim a) else none)).getD "any".toList)

/-- The attribute that the arguments of an `attr` declare. -/
def attributeOf? (arguments : List (List Char)) (heredoc : Option (List Char)) :
    Option Attribute :=
  (arguments.head? >>= parseAtom?).map fun name =>
    let keywords := keywordArguments (arguments.drop 2)
    { name := String.ofList name
      type := attributeType arguments[1]?
      required := requiredAmong keywords
      default := (keyword? keywords "default").map String.ofList
      values := (keyword? keywords "values").map fun v => (parseNames v).map String.ofList
      doc := docAmong? keywords heredoc }

/-- The slot that the arguments of a `slot` declare. -/
def slotOf? (arguments : List (List Char)) (heredoc : Option (List Char)) : Option Slot :=
  (arguments.head? >>= parseAtom?).map fun name =>
    let keywords := keywordArguments (arguments.drop 1)
    { name := String.ofList name
      required := requiredAmong keywords
      doc := docAmong? keywords heredoc }

/-- A slot whose block is open, and the blocks that were open before it. -/
structure OpenSlot where
  slot : Slot
  outerDepth : Nat
deriving DecidableEq, Repr

inductive ComponentLine where
  | nothing
  | declaresAttribute (declared : Option Attribute)
  | declaresSlot (declared : Option Slot) (opensBlock : Bool)
  /-- A definition; only one that takes the assigns alone is a component. -/
  | defines (name : List Char) (isComponent : Bool)

/-- What is declared between two lines. -/
structure ComponentState where
  tracker : BlockTracker := {}
  attributes : List Attribute := []
  slots : List Slot := []
  openSlot : Option OpenSlot := none
  found : List Component := []
deriving DecidableEq, Repr

/-- The definition takes one argument, which holds the assigns. -/
def takesAssigns (head : DefinitionHead) : Bool :=
  match head.arguments? with
  | some [argument] => Text.contains "assigns" argument
  | _ => false

def readComponentLine (line : LogicalLine) : ComponentLine :=
  let text := Text.trim line.text
  match callArguments? text "attr", callArguments? text "slot", definitionHead? text with
  | some arguments, _, _ =>
    .declaresAttribute (attributeOf? (splitArguments arguments) line.heredoc)
  | none, some arguments, _ =>
    .declaresSlot (slotOf? (splitArguments arguments) line.heredoc) (opensDoBlock text)
  | none, none, some head => .defines head.name (takesAssigns head)
  | none, none, none => .nothing

/-- Adds a component, or a further clause to the component that it is a clause of. -/
def addClause (found : List Component) (component : Component) : List Component :=
  match found with
  | [] => [component]
  | first :: rest =>
    if first.isClauseOf component then first.mergeClause component :: rest
    else first :: addClause rest component

namespace ComponentState

/-- Gives what is declared so far to a component, or drops it at another definition. -/
def define (state : ComponentState) (file : Path) (line : Nat) (name : List Char)
    (isComponent : Bool) : ComponentState :=
  let rest := { state with attributes := [], slots := [] }
  match state.tracker.currentModule? with
  | some moduleName =>
    if isComponent then
      { rest with
        found := addClause state.found
          { name := String.ofList name
            moduleName := String.ofList moduleName
            filePath := file
            line
            attributes := state.attributes
            slots := state.slots } }
    else rest
  | none => rest

def apply (state : ComponentState) (file : Path) (line : Nat) : ComponentLine → ComponentState
  | .nothing => state
  | .declaresAttribute none => state
  | .declaresAttribute (some declared) =>
    match state.openSlot with
    | some inner =>
      let slot := { inner.slot with attributes := inner.slot.attributes ++ [declared] }
      { state with openSlot := some { inner with slot } }
    | none => { state with attributes := state.attributes ++ [declared] }
  | .declaresSlot none _ => state
  | .declaresSlot (some slot) opensBlock =>
    if opensBlock then { state with openSlot := some ⟨slot, state.tracker.depth⟩ }
    else { state with slots := state.slots ++ [slot] }
  | .defines name isComponent => state.define file line name isComponent

def settle (state : ComponentState) (text : List Char) : ComponentState :=
  { state with tracker := state.tracker.advance text }

/-- Adds the open slot to the others once its block is closed. -/
def closeSlot (state : ComponentState) : ComponentState :=
  match state.openSlot with
  | some inner =>
    if state.tracker.depth ≤ inner.outerDepth then
      { state with openSlot := none, slots := state.slots ++ [inner.slot] }
    else state
  | none => state

/-- Takes up a line. Documentation declares nothing. -/
def takeLine (state : ComponentState) (file : Path) (line : LogicalLine) : ComponentState :=
  if (docOf? line).isSome then state.settle line.text
  else ((state.apply file line.line (readComponentLine line)).settle line.text).closeSlot

end ComponentState

/-- The components that a file defines, in order of their first clauses. -/
def componentsOf (file : Path) (source : List Char) : List Component :=
  ((logicalLines source).foldl (fun state line => state.takeLine file line)
    ({} : ComponentState)).found

end PhoenixLens.Elixir
