import PhoenixLens.Elixir.Definition
import PhoenixLens.Elixir.LogicalLine
import PhoenixLens.Model.Event

/-!
# Event handlers in source

The clauses of `handle_event` and `handle_info` that a file defines, the first one of each name,
with the documentation before it.
-/

namespace PhoenixLens.Elixir

/-- The name of an event, how it is written, and the parameters that come with it. -/
structure EventHead where
  name : List Char
  nameKind : NameKind
  params : List Char
deriving DecidableEq, Repr

/-- Reads the arguments of a `handle_event`. -/
def pageEventHead? (arguments : List (List Char)) : Option EventHead := do
  let first ← arguments.head?
  let params := arguments[1]?.getD []
  match parseString? first with
  | some name => return ⟨name, .string, params⟩
  | none => return ⟨← parseAtom? first, .atom, params⟩

/-- Reads the arguments of a `handle_info`. A message may be an atom or a tuple that an atom
begins. -/
def messageHead? (arguments : List (List Char)) : Option EventHead := do
  let message ← arguments.head?
  match parseAtom? message with
  | some name => return ⟨name, .atom, message⟩
  | none =>
    let inner ← Text.stripSuffix? "\x7d" (← Text.stripPrefix? "\x7b" message)
    return ⟨← parseAtom? (← (splitArguments inner).head?), .atom, message⟩

inductive EventLine where
  | nothing
  | defines
  | handles (kind : EventKind) (head : Option EventHead)

/-- The callback that a line defines a clause of. -/
def handlerHead? (text : List Char) : Option (EventKind × DefinitionHead) := do
  let head ← definitionHead? text
  if head.isPrivate then failure
  return (← EventKind.ofTag? (String.ofList head.name), head)

def readEventLine (text : List Char) : EventLine :=
  match handlerHead? text with
  | some (kind, head) =>
    let arguments := head.arguments?.getD []
    .handles kind
      (match kind with
        | .handleEvent => pageEventHead? arguments
        | .handleInfo => messageHead? arguments)
  | none =>
    if Text.startsWith "def " text || Text.startsWith "defp " text then .defines else .nothing

/-- What is known between two lines. -/
structure EventState where
  tracker : BlockTracker := {}
  pending : PendingDoc := {}
  found : List Event := []
deriving DecidableEq, Repr

namespace EventState

/-- A clause of the event has been found before. -/
def knows (state : EventState) (event : Event) : Bool :=
  state.found.any fun e =>
    e.moduleName == event.moduleName && e.name == event.name && e.kind == event.kind

/-- Adds an event unless a clause of it is known. -/
def addNew (state : EventState) (event : Event) : EventState :=
  if state.knows event then state else { state with found := state.found ++ [event] }

/-- Does what a line says. A handler takes the documentation, any other definition drops it. -/
def apply (state : EventState) (file : Path) (line : Nat) : EventLine → EventState
  | .nothing => state
  | .defines => { state with pending := {} }
  | .handles kind head =>
    let rest := { state with pending := {} }
    match head, state.tracker.currentModule? with
    | some head, some moduleName =>
      rest.addNew
        { name := String.ofList head.name
          filePath := file
          moduleName := String.ofList moduleName
          line
          params := String.ofList head.params
          kind
          doc := state.pending.doc.map String.ofList
          nameKind := head.nameKind }
    | _, _ => rest

def takeLine (state : EventState) (file : Path) (line : LogicalLine) : EventState :=
  let tracker := state.tracker.advance line.text
  match state.pending.observe? line with
  | some pending => { state with pending, tracker }
  | none =>
    { state.apply file line.line (readEventLine (Text.trim line.text)) with tracker }

end EventState

/-- The event handlers that a file defines, in order. -/
def eventsOf (file : Path) (source : List Char) : List Event :=
  ((logicalLines source).foldl (fun state line => state.takeLine file line)
    ({} : EventState)).found

end PhoenixLens.Elixir
