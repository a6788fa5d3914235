import PhoenixLens.Elixir.Definition
import PhoenixLens.Elixir.LogicalLine
import PhoenixLens.Model.Controller

/-!
# Controllers in source

The actions of the controllers in a file and the templates that they render. Inside an action
variables are bound, assigns collected and views chosen line by line; a render passes on its own
keywords and the assigns collected before it.
-/

namespace PhoenixLens.Elixir

/-- An action under reading. -/
structure OpenAction where
  name : List Char
  outerDepth : Nat
  assigns : List RenderAssign := []
  /-- Variables with the expressions that they are bound to, the latest first. -/
  bindings : List (List Char × List Char) := []
  view : Option (List Char) := none
deriving DecidableEq, Repr

namespace OpenAction

/-- An expression, or what it is bound to if it is a variable. -/
def expand (action : OpenAction) (value : List Char) : List Char :=
  (action.bindings.lookup (Text.trim value)).getD (Text.trim value)

def assign (action : OpenAction) (name : List Char) (value : Option (List Char)) : RenderAssign :=
  { name := String.ofList name, value := value.map fun v => String.ofList (action.expand v) }

end OpenAction

/-- Adds the assigns whose names are not taken yet. -/
def addAssigns (assigns more : List RenderAssign) : List RenderAssign :=
  more.foldl (fun assigns a => if assigns.any (·.name == a.name) then assigns else assigns ++ [a])
    assigns

/-! ### Calls in an action -/

def mentionsConn (argument : List Char) : Bool := Text.contains "conn" argument

/-- The arguments behind the connection, which a pipe leaves out. -/
def behindConn (arguments : List (List Char)) : List (List Char) :=
  match arguments with
  | [] => []
  | first :: rest =>
    if !mentionsConn first || (parseAtom? first).isSome then first :: rest else rest

/-- The variable that a line binds, and the expression. -/
def binding? (text : List Char) : Option (List Char × List Char) := do
  let name ← identifier? text
  let value ← Text.stripPrefix? "=" (Text.trimStart (text.drop name.length))
  match value with
  | [] => none
  | c :: _ => if c == '=' then none else return (name, Text.trim value)

/-- The assigns that the calls of `assign` in a line give. -/
def assignCalls (text : List Char) : List (List Char × Option (List Char)) :=
  (callsOf "assign" text).flatMap fun arguments =>
    let rest := behindConn arguments
    match rest.head? >>= parseAtom? with
    | some name => [(name, rest[1]?.map Text.trim)]
    | none => (keywordArguments rest).map fun (key, value) => (key, some value)

/-- The view that the first readable `put_view` in a line chooses. -/
def chosenView? (text : List Char) : Option (List Char) :=
  (callsOf "put_view" text).findSome? fun arguments =>
    let rest := behindConn arguments
    rest.head?.bind fun first =>
      if isModuleName first then some (Text.trim first)
      else if (parseKeyword? first).isSome then
        (keyword? (keywordArguments rest) "html").filter isModuleName
      else none

/-- The templates that the calls of `render` in a line render, with their keywords. -/
def renderCalls (text : List Char) : List (List Char × List (List Char × List Char)) :=
  (callsOf "render" text).filterMap fun arguments =>
    match behindConn arguments with
    | [] => none
    | first :: rest => (parseName? first).map fun template =>
      (template.takeWhile (· != '.'), keywordArguments rest)

/-- The name of the action that a line begins. -/
def actionName? (text : List Char) : Option (List Char) := do
  let head ← definitionHead? text
  if head.isPrivate then failure
  if (← head.arguments?).head?.any mentionsConn then return head.name else failure

/-! ### Lines -/

namespace OpenAction

/-- The render of a template at a line of the action. -/
def render (action : OpenAction) (line : Nat) (template : List Char)
    (keywords : List (List Char × List Char)) : RenderInfo :=
  let own := keywords.map fun (name, value) => action.assign name (some value)
  { action := String.ofList action.name
    template := String.ofList template
    assigns := addAssigns own action.assigns
    line
    viewModule := action.view.map String.ofList }

def bind (action : OpenAction) (text : List Char) : OpenAction :=
  match binding? text with
  | some (name, value) =>
    { action with bindings := (name, action.expand value) :: action.bindings }
  | none => action

def collect (action : OpenAction) (text : List Char) : OpenAction :=
  let given := (assignCalls text).map fun (name, value) => action.assign name value
  { action with assigns := addAssigns action.assigns given }

def choose (action : OpenAction) (text : List Char) : OpenAction :=
  { action with view := (chosenView? text).or action.view }

/-- Takes up a line of the action, and gives what it renders. -/
def takeLine (action : OpenAction) (line : Nat) (text : List Char) :
    OpenAction × List RenderInfo :=
  let action := ((action.bind text).collect text).choose text
  (action, (renderCalls text).map fun (template, keywords) =>
    action.render line template keywords)

end OpenAction

/-- What is known between two lines; the controllers are kept latest first. -/
structure ControllerState where
  tracker : BlockTracker := {}
  controllers : List ControllerInfo := []
  action : Option OpenAction := none
deriving DecidableEq, Repr

/-- Changes the first controller of a module. -/
def updateController (moduleName : String) (update : ControllerInfo → ControllerInfo) :
    List ControllerInfo → List ControllerInfo
  | [] => []
  | c :: cs => if c.moduleName == moduleName then update c :: cs
    else c :: updateController moduleName update cs

/-- Adds an action unless a clause of it is known. -/
def addAction (name : List Char) (line : Nat) (controller : ControllerInfo) : ControllerInfo :=
  let action : ControllerAction := ⟨String.ofList name, line⟩
  if controller.actions.any (·.name == action.name) then controller
  else { controller with actions := controller.actions ++ [action] }

namespace ControllerState

def begin (state : ControllerState) (moduleName : String) (line : Nat) (name : List Char) :
    ControllerState :=
  { state with
    controllers := updateController moduleName (addAction name line) state.controllers
    action := some { name, outerDepth := state.tracker.depth } }

def takeCode (state : ControllerState) (moduleName : String) (line : Nat) (text : List Char) :
    ControllerState :=
  let state := match actionName? text with
    | some name => state.begin moduleName line name
    | none => state
  match state.action with
  | none => state
  | some action =>
    let (action, renders) := action.takeLine line text
    let add := fun c : ControllerInfo => { c with renders := c.renders ++ renders }
    { state with
      action := some action
      controllers := updateController moduleName add state.controllers }

def takeLine (state : ControllerState) (file : Path) (line : LogicalLine) : ControllerState :=
  let taken := match state.tracker.currentModule?.map String.ofList with
    | some moduleName =>
      if state.controllers.any (·.moduleName == moduleName) then
        state.takeCode moduleName line.line (Text.trim line.text)
      else state
    | none => state
  let opened := (state.tracker.opened? line.text).toList.map fun name =>
    ({ moduleName := String.ofList name, filePath := file, line := line.line } : ControllerInfo)
  let tracker := state.tracker.advance line.text
  { tracker
    controllers := opened ++ taken.controllers
    action := taken.action.filter fun a => a.outerDepth < tracker.depth }

end ControllerState

/-- The controllers in a file that have actions or renders, in order. -/
def controllersOf (file : Path) (source : List Char) : List ControllerInfo :=
  let state := (logicalLines source).foldl (fun state line => state.takeLine file line)
    ({} : ControllerState)
  state.controllers.reverse.filter fun c => !c.actions.isEmpty || !c.renders.isEmpty

end PhoenixLens.Elixir
