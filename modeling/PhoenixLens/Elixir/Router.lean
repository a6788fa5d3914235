import PhoenixLens.Elixir.Literal
import PhoenixLens.Elixir.LogicalLine
import PhoenixLens.Model.Route
import PhoenixLens.Text.Casing

/-!
# Routers

The routes that a router file declares. Scopes, resources, pipelines and live sessions open blocks;
a route takes its path, module names, helper name and pipelines from the blocks that are open where
it stands. The lines are taken up one by one, with the open blocks between them.
-/

namespace PhoenixLens.Elixir

/-! ### Paths -/

/-- Joins a path to the path of what it stands in, with one slash between them. -/
def joinRoutePaths (outer path : List Char) : List Char :=
  let outer := Text.dropEndWhile (· == '/') outer
  let path := path.dropWhile (· == '/')
  if path.isEmpty && !outer.isEmpty then outer else outer ++ '/' :: path

/-- The name of the parameter that a segment is. -/
def parameterOf? (segment : List Char) : Option (List Char) :=
  match segment with
  | ':' :: name => some name
  | '*' :: name => some name
  | _ => none

/-- The names of the parameters of a path, from left to right. -/
def routeParameters (path : List Char) : List (List Char) :=
  ((Text.splitAt '/' path).filterMap parameterOf?).filter (!·.isEmpty)

/-- The fixed segments of a path. -/
def fixedSegments (path : List Char) : List (List Char) :=
  (Text.splitAt '/' path).filter fun s => !s.isEmpty && (parameterOf? s).isNone

/-- A name with other characters in place of those that satisfy `p`. -/
def underscore (p : Char → Bool) (cs : List Char) : List Char :=
  cs.map fun c => if p c then '_' else c

/-- The helper name that the fixed segments of a path make up; the first one is a singular. -/
def fixedHelper? (path : List Char) : Option (List Char) :=
  match (fixedSegments path).map (underscore fun c => c == '-' || c == '.') with
  | [] => none
  | first :: rest => some (Text.join ['_'] (Text.singular first :: rest))

/-- The helper name that a module makes up: its last part without the given ending. -/
def moduleHelper (moduleName : List Char) (ending : String) : List Char :=
  let last := Text.lastSegment moduleName
  Text.snakeCase ((Text.stripSuffix? ending last).getD last)

/-- What an open block of a router adds to the routes in it. -/
inductive RouterFrame where
  | scope (path : List Char) (alias? helper? : Option (List Char)) (pipelines : List (List Char))
  /-- Resources that others are nested in: the path with their parameter, and the helper name. -/
  | resources (path helper : List Char)
  | liveSession
  | pipeline
deriving DecidableEq, Repr

namespace RouterFrame

def path? : RouterFrame → Option (List Char)
  | scope path _ _ _ => some path
  | resources path _ => some path
  | _ => none

def scopePath? : RouterFrame → Option (List Char)
  | scope path _ _ _ => some path
  | _ => none

def aliasName? : RouterFrame → Option (List Char)
  | scope _ name _ _ => name
  | _ => none

def helperName? : RouterFrame → Option (List Char)
  | scope _ _ helper _ => helper
  | resources _ helper => some helper
  | _ => none

def pipelineNames : RouterFrame → List (List Char)
  | scope _ _ _ pipelines => pipelines
  | _ => []

end RouterFrame

/-- Where a route stands: the frames of the open blocks, outermost first, and the pipelines named
outside of scopes. -/
structure RouterContext where
  frames : List RouterFrame
  rootPipelines : List (List Char)
deriving DecidableEq, Repr

namespace RouterContext

def joinAll (paths : List (List Char)) : List Char := paths.foldl joinRoutePaths []

/-- The paths of the open scopes and resources, joined. -/
def outerPath (context : RouterContext) : List Char :=
  joinAll (context.frames.filterMap RouterFrame.path?)

/-- The paths of the open scopes, joined, if there are any. -/
def scopePath? (context : RouterContext) : Option (List Char) :=
  match context.frames.filterMap RouterFrame.scopePath? with
  | [] => none
  | paths => some (joinAll paths)

def pipelines (context : RouterContext) : List (List Char) :=
  context.rootPipelines ++ context.frames.flatMap RouterFrame.pipelineNames

/-- A module name with the aliases of the open scopes before it. -/
def qualify (context : RouterContext) (moduleName : List Char) : List Char :=
  Text.join ['.'] (context.frames.filterMap RouterFrame.aliasName? ++ [moduleName])

/-- A helper name with those of the open blocks before it. -/
def fullHelper (context : RouterContext) (own : List Char) : List Char :=
  let names := context.frames.filterMap RouterFrame.helperName? ++ [own]
  Text.join ['_'] (names.filter (!·.isEmpty))

/-- A route of the given verb, with nothing but what its place and its path tell. -/
def route (context : RouterContext) (file : Path) (line : Nat) (verb own helper : List Char) :
    Route :=
  let path := joinRoutePaths context.outerPath own
  { path := String.ofList path
    verb := String.ofList verb
    filePath := file
    line
    helperBase := String.ofList helper
    params := (routeParameters path).map String.ofList
    pipelines := context.pipelines.map String.ofList
    scopePath := context.scopePath?.map String.ofList }

end RouterContext

/-! ### Declarations of routes -/

/-- The arguments of a declaration, positional ones and keywords. -/
structure Arguments where
  positional : List (List Char)
  keywords : List (List Char × List Char)
deriving DecidableEq, Repr

namespace Arguments

def ofList (arguments : List (List Char)) : Arguments :=
  ⟨positionalArguments arguments, keywordArguments arguments⟩

/-- The first argument, if it is a string. -/
def path? (arguments : Arguments) : Option (List Char) :=
  arguments.positional.head? >>= parseString?

def keyword? (arguments : Arguments) (key : String) : Option (List Char) :=
  Elixir.keyword? arguments.keywords key

/-- The helper name that is given explicitly. -/
def helper? (arguments : Arguments) : Option (List Char) := arguments.keyword? "as" >>= parseName?

/-- The argument at a place, if it is a module name. -/
def moduleAt? (arguments : Arguments) (n : Nat) : Option (List Char) :=
  (arguments.positional[n]?.filter isModuleName).map Text.trim

end Arguments

def verbRoute? (context : RouterContext) (file : Path) (line : Nat) (verb : List Char)
    (arguments : Arguments) : Option Route :=
  arguments.path?.map fun own =>
    let rest := arguments.positional.tail
    let controller := (rest.find? isModuleName).map Text.trim
    let helper := (arguments.helper?.or (fixedHelper? own)).or
      (controller.map (moduleHelper · "Controller"))
    { context.route file line verb own (context.fullHelper (helper.getD [])) with
      controller := controller.map fun c => String.ofList (context.qualify c)
      action := (rest.findSome? parseAtom?).map String.ofList }

/-- The routes of a `match`, one for each verb in its first argument. -/
def matchRoutes (context : RouterContext) (file : Path) (line : Nat)
    (arguments : List (List Char)) : List Route :=
  match arguments with
  | [] => []
  | verbs :: rest =>
    (parseNames verbs).filterMap fun verb =>
      verbRoute? context file line (Text.asciiUppercase verb) (.ofList rest)

def liveRoute? (context : RouterContext) (file : Path) (line : Nat) (arguments : Arguments) :
    Option Route :=
  arguments.path?.map fun own =>
    let view := arguments.moduleAt? 1
    let helper := (arguments.helper?.or (fixedHelper? own)).or (view.map (moduleHelper · "Live"))
    { context.route file line "GET".toList own (context.fullHelper (helper.getD [])) with
      liveModule := view.map fun m => String.ofList (context.qualify m)
      liveAction := (arguments.positional[2]? >>= parseAtom?).map String.ofList }

def forwardRoute? (context : RouterContext) (file : Path) (line : Nat) (arguments : Arguments) :
    Option Route :=
  arguments.path?.map fun own =>
    let helper := context.fullHelper ((fixedHelper? own).getD [])
    { context.route file line ['*'] own helper with
      forwardTo := (arguments.moduleAt? 1).map fun m => String.ofList (context.qualify m) }

/-! ### Resources -/

structure Resources where
  path : List Char
  controller : Option (List Char)
  only : Option (List (List Char))
  except : Option (List (List Char))
  singleton : Bool
  param? : Option (List Char)
  helper? : Option (List Char)
deriving DecidableEq, Repr

/-- A route that resources expand into. -/
structure ResourceAction where
  action : String
  verb : String
  /-- What is added to the path of the resources. -/
  ending : List Char
deriving DecidableEq, Repr

namespace Resources

def ofArguments? (arguments : Arguments) : Option Resources :=
  arguments.path?.map fun path =>
    { path
      controller := arguments.moduleAt? 1
      only := (arguments.keyword? "only").map parseNames
      except := (arguments.keyword? "except").map parseNames
      singleton := arguments.keyword? "singleton" == some "true".toList
      param? := arguments.keyword? "param" >>= parseString?
      helper? := arguments.helper? }

def param (r : Resources) : List Char := r.param?.getD "id".toList

/-- The name of one of the resources: the singular of the last fixed segment. -/
def itemName (r : Resources) : List Char :=
  Text.singular (underscore (· == '-') ((fixedSegments r.path).getLast?.getD []))

def helper (r : Resources) : List Char := r.helper?.getD r.itemName

def base (r : Resources) : List Char := Text.dropEndWhile (· == '/') r.path

/-- All actions, in the order of their routes. -/
def allActions (r : Resources) : List ResourceAction :=
  let member := if r.singleton then [] else '/' :: ':' :: r.param
  (if r.singleton then [] else [⟨"index", "GET", []⟩]) ++
    [⟨"edit", "GET", member ++ "/edit".toList⟩, ⟨"new", "GET", "/new".toList⟩,
      ⟨"show", "GET", member⟩, ⟨"create", "POST", []⟩, ⟨"update", "PATCH", member⟩,
      ⟨"update", "PUT", member⟩, ⟨"delete", "DELETE", member⟩]

/-- The action is not left out; where `only` is given, `except` does not count. -/
def allows (r : Resources) (action : String) : Bool :=
  match r.only, r.except with
  | some only, _ => only.contains action.toList
  | none, some except => !except.contains action.toList
  | none, none => true

def options (r : Resources) : ResourceOptions :=
  { only := r.only.map (·.map String.ofList)
    except := r.except.map (·.map String.ofList)
    singleton := r.singleton
    param := r.param?.map String.ofList
    asName := r.helper?.map String.ofList }

def routes (r : Resources) (context : RouterContext) (file : Path) (line : Nat) : List Route :=
  (r.allActions.filter fun a => r.allows a.action).map fun a =>
    { context.route file line a.verb.toList (r.base ++ a.ending) (context.fullHelper r.helper) with
      controller := r.controller.map fun c => String.ofList (context.qualify c)
      action := some a.action
      isResource := true
      resourceOptions := some r.options }

/-- What the resources add to those nested in them. -/
def frame (r : Resources) : RouterFrame :=
  .resources
    (if r.singleton then r.path else r.base ++ '/' :: ':' :: r.itemName ++ '_' :: r.param)
    r.helper

end Resources

/-! ### Lines -/

def scopeFrame (arguments : Arguments) : RouterFrame :=
  let path := (arguments.positional.findSome? parseString?).or
    (arguments.keyword? "path" >>= parseString?)
  let name := ((arguments.positional.find? isModuleName).map Text.trim).or
    ((arguments.keyword? "alias").filter isModuleName)
  .scope (path.getD []) name arguments.helper? []

/-- An open block and the number of blocks that were open before it. -/
structure OpenFrame where
  frame : RouterFrame
  outerDepth : Nat
deriving DecidableEq, Repr

/-- What is open between two lines of a router, the innermost frame first. -/
structure RouterState where
  tracker : BlockTracker := {}
  frames : List OpenFrame := []
  rootPipelines : List (List Char) := []
deriving DecidableEq, Repr

inductive RouterLine where
  | nothing
  | opens (frame : RouterFrame)
  | pipesThrough (pipelines : List (List Char))
  | declares (routes : List Route)
  /-- Resources, which open a block if others are nested in them. -/
  | expands (resources : Resources) (opensBlock : Bool)
deriving DecidableEq, Repr

def macroName? (text : List Char) : Option (List Char) :=
  let cs := Text.trimStart text
  let isNameChar := fun c => Text.isAsciiLower c || c == '_'
  match cs.takeWhile isNameChar, cs.dropWhile isNameChar with
  | [], _ => none
  | name, rest => if rest.head?.any Text.isWord then none else some name

def routeVerbs : List String :=
  ["get", "post", "put", "patch", "delete", "options", "head", "connect", "trace"]

/-- What a line does where the given context is open. -/
def readRouterLine (context : RouterContext) (file : Path) (line : Nat) (text : List Char) :
    RouterLine :=
  match macroName? text with
  | none => .nothing
  | some name =>
    let macroName := String.ofList name
    match callArguments? text macroName with
    | none => .nothing
    | some written =>
      let split := splitArguments written
      let arguments := Arguments.ofList split
      let opensBlock := opensDoBlock text
      match macroName with
      | "scope" => if opensBlock then .opens (scopeFrame arguments) else .nothing
      | "pipeline" => if opensBlock then .opens .pipeline else .nothing
      | "live_session" => if opensBlock then .opens .liveSession else .nothing
      | "pipe_through" => .pipesThrough (parseNames written)
      | "resources" =>
        match Resources.ofArguments? arguments with
        | some resources => .expands resources opensBlock
        | none => .nothing
      | "live" => .declares (liveRoute? context file line arguments).toList
      | "forward" => .declares (forwardRoute? context file line arguments).toList
      | "match" => .declares (matchRoutes context file line split)
      | _ =>
        if routeVerbs.contains macroName then
          .declares (verbRoute? context file line (Text.asciiUppercase name) arguments).toList
        else .nothing

namespace RouterState

def context (state : RouterState) : RouterContext :=
  ⟨(state.frames.map OpenFrame.frame).reverse, state.rootPipelines⟩

def inPipeline (state : RouterState) : Bool := state.frames.any (·.frame == .pipeline)

/-- Adds pipelines to the innermost scope. -/
def pipeScopes (names : List (List Char)) : List OpenFrame → Option (List OpenFrame)
  | [] => none
  | ⟨.scope path alias? helper? pipelines, depth⟩ :: outer =>
    some (⟨.scope path alias? helper? (pipelines ++ names), depth⟩ :: outer)
  | other :: outer => (pipeScopes names outer).map (other :: ·)

def pipeThrough (state : RouterState) (names : List (List Char)) : RouterState :=
  match pipeScopes names state.frames with
  | some frames => { state with frames }
  | none => { state with rootPipelines := state.rootPipelines ++ names }

def push (state : RouterState) (frame : RouterFrame) : RouterState :=
  { state with frames := ⟨frame, state.tracker.depth⟩ :: state.frames }

/-- Counts the blocks of a line and drops the frames whose blocks are closed. -/
def settle (state : RouterState) (text : List Char) : RouterState :=
  let tracker := state.tracker.advance text
  { state with
    tracker
    frames := state.frames.dropWhile fun f => tracker.depth ≤ f.outerDepth }

/-- Does what a line says, and gives the routes that it declares. -/
def apply (state : RouterState) (file : Path) (line : Nat) : RouterLine → RouterState × List Route
  | .nothing => (state, [])
  | .opens frame => (state.push frame, [])
  | .pipesThrough names => (state.pipeThrough names, [])
  | .declares routes => (state, routes)
  | .expands resources opensBlock =>
    (if opensBlock then state.push resources.frame else state,
      resources.routes state.context file line)

/-- Takes up a line. Nothing inside a pipeline counts. -/
def takeLine (state : RouterState) (file : Path) (line : LogicalLine) :
    RouterState × List Route :=
  let action :=
    if state.inPipeline then .nothing
    else readRouterLine state.context file line.line (Text.trim line.text)
  let (state, routes) := state.apply file line.line action
  (state.settle line.text, routes)

end RouterState

/-- The routes that lines declare from a state on. -/
def routesOfLines (file : Path) (state : RouterState) : List LogicalLine → List Route
  | [] => []
  | line :: lines =>
    let (state, routes) := state.takeLine file line
    routes ++ routesOfLines file state lines

def routesOf (file : Path) (source : List Char) : List Route :=
  routesOfLines file {} (logicalLines source)

end PhoenixLens.Elixir
