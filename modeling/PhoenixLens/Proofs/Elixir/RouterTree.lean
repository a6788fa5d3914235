import PhoenixLens.Proofs.Elixir.MacroLine

/-!
# Routers as trees

A router is a tree of blocks with declarations in them. It is written with one macro on each line,
and its routes are found by going through the tree: each route takes from the blocks around it what
they add to paths, modules, helpers and pipelines.
-/

namespace PhoenixLens.Elixir

/-- The text of a path: letters, digits and `_/:*.-`. -/
abbrev PathText := { text : List Char // ∀ c ∈ text, isPathChar c = true }

abbrev RouteVerb := { verb : String // verb ∈ routeVerbs }

/-- One name, or a list of them. -/
inductive RouterNames where
  | one (name : AtomName)
  | list (names : List AtomName)

inductive ResourceOption where
  | only (names : RouterNames)
  | except (names : RouterNames)
  | singleton (value : Bool)
  | param (text : PathText)
  | as (name : AtomName)

/-- Resources with their options, in any order; of repeated options the first one counts. -/
structure RouterResources where
  path : PathText
  controller : ModuleName
  options : List ResourceOption

/-- A declaration that opens no block. -/
inductive RouterLeaf where
  | verb (verb : RouteVerb) (path : PathText) (controller : ModuleName) (action : AtomName)
      (as? : Option AtomName)
  | match (verbs : RouterNames) (path : PathText) (controller : ModuleName) (action : AtomName)
      (as? : Option AtomName)
  | live (path : PathText) (view : ModuleName) (action? as? : Option AtomName)
  | forward (path : PathText) (plug : ModuleName)
  | resources (resources : RouterResources)

inductive RouterOpening where
  | scope (path : PathText) (alias? : Option ModuleName) (as? : Option AtomName)
  | liveSession (name : AtomName)
  | pipeline (name : AtomName)
  | resources (resources : RouterResources)

def RouterOpening.isScope : RouterOpening → Bool
  | scope _ _ _ => true
  | _ => false

/-- What stands in a block, one after the other. The index says whether pipelines may be named
there, which is so in scopes and outside of all blocks. -/
inductive RouterTree : Bool → Type where
  | done {pipes : Bool} : RouterTree pipes
  | leaf {pipes : Bool} (declaration : RouterLeaf) (next : RouterTree pipes) : RouterTree pipes
  | pipeThrough (names : RouterNames) (next : RouterTree true) : RouterTree true
  | block {pipes : Bool} (opening : RouterOpening) (body : RouterTree opening.isScope)
      (next : RouterTree pipes) : RouterTree pipes

/-! ### Text -/

namespace RouterNames

def names : RouterNames → List (List Char)
  | one name => [name.1]
  | list names => names.map (·.1)

def value : RouterNames → RouterValue
  | one name => .atom name.1
  | list names => .atoms (names.map (·.1))

end RouterNames

def ResourceOption.keyword : ResourceOption → String × RouterValue
  | only names => ("only", names.value)
  | except names => ("except", names.value)
  | singleton value => ("singleton", .flag value)
  | param text => ("param", .string text.1)
  | as name => ("as", .atom name.1)

def asKeyword (as? : Option AtomName) : List (String × RouterValue) :=
  (as?.map fun name => ("as", RouterValue.atom name.1)).toList

def RouterResources.line (resources : RouterResources) (opens : Bool) : MacroLine :=
  { name := "resources"
    positional := [.string resources.path.1, .module resources.controller.1]
    keywords := resources.options.map ResourceOption.keyword
    opens }

def RouterLeaf.line : RouterLeaf → MacroLine
  | verb name path controller action as? =>
    { name := name.1
      positional := [.string path.1, .module controller.1, .atom action.1]
      keywords := asKeyword as? }
  | «match» verbs path controller action as? =>
    { name := "match"
      positional := [verbs.value, .string path.1, .module controller.1, .atom action.1]
      keywords := asKeyword as? }
  | live path view action? as? =>
    { name := "live"
      positional :=
        [.string path.1, .module view.1] ++ (action?.map fun a => RouterValue.atom a.1).toList
      keywords := asKeyword as? }
  | forward path plug =>
    { name := "forward", positional := [.string path.1, .module plug.1] }
  | resources declared => declared.line false

def RouterOpening.line : RouterOpening → MacroLine
  | scope path alias? as? =>
    { name := "scope"
      positional := .string path.1 :: (alias?.map fun m => RouterValue.module m.1).toList
      keywords := asKeyword as?
      opens := true }
  | liveSession name => { name := "live_session", positional := [.atom name.1], opens := true }
  | pipeline name => { name := "pipeline", positional := [.atom name.1], opens := true }
  | resources declared => declared.line true

def RouterNames.line (names : RouterNames) : MacroLine :=
  { name := "pipe_through", positional := [names.value] }

def moduleLine (module : ModuleName) : MacroLine :=
  { name := "defmodule", positional := [.module module.1], opens := true }

namespace RouterTree

/-- The lines of a tree in blocks of the given number, each block indented by `width` blanks. -/
def lines (width : Nat) : {pipes : Bool} → Nat → RouterTree pipes → List (List Char)
  | _, _, done => []
  | _, depth, leaf declaration next =>
    (List.replicate (width * depth) ' ' ++ declaration.line.text) :: next.lines width depth
  | _, depth, pipeThrough names next =>
    (List.replicate (width * depth) ' ' ++ names.line.text) :: next.lines width depth
  | _, depth, block opening body next =>
    (List.replicate (width * depth) ' ' ++ opening.line.text) ::
      (body.lines width (depth + 1) ++
        (List.replicate (width * depth) ' ' ++ "end".toList) :: next.lines width depth)

def height : {pipes : Bool} → RouterTree pipes → Nat
  | _, done => 0
  | _, leaf _ next => 1 + next.height
  | _, pipeThrough _ next => 1 + next.height
  | _, block _ body next => 1 + (body.height + (1 + next.height))

/-- A file with the tree as the body of a module. -/
def source (module : ModuleName) (width : Nat) (tree : RouterTree true) : List Char :=
  ((moduleLine module).text :: (tree.lines width 1 ++ ["end".toList])).flatMap (· ++ ['\n'])

end RouterTree

/-! ### Meaning -/

/-- What the blocks around a declaration add to it. -/
structure RouterPlace where
  /-- The joined paths of the blocks around. -/
  outerPath : List Char := []
  /-- The joined paths of the scopes around, if there are any. -/
  scopePath : Option (List Char) := none
  aliases : List (List Char) := []
  helpers : List (List Char) := []
  pipelines : List (List Char) := []

namespace RouterPlace

def qualify (place : RouterPlace) (module : List Char) : String :=
  String.ofList (Text.join ['.'] (place.aliases ++ [module]))

def helperBase (place : RouterPlace) (own : List Char) : String :=
  String.ofList (Text.join ['_'] ((place.helpers ++ [own]).filter (!·.isEmpty)))

def route (place : RouterPlace) (file : Path) (line : Nat) (verb own helper : List Char) : Route :=
  let path := joinRoutePaths place.outerPath own
  { path := String.ofList path
    verb := String.ofList verb
    filePath := file
    line
    helperBase := place.helperBase helper
    params := (routeParameters path).map String.ofList
    pipelines := place.pipelines.map String.ofList
    scopePath := place.scopePath.map String.ofList }

def pipedThrough (place : RouterPlace) (names : List (List Char)) : RouterPlace :=
  { place with pipelines := place.pipelines ++ names }

end RouterPlace

/-- The helper of a route: given explicitly, or else made of the path, or else of the module. -/
def ownHelper (as? : Option AtomName) (path module : List Char) (ending : String) : List Char :=
  (as?.map (·.1)).getD ((fixedHelper? path).getD (moduleHelper module ending))

namespace RouterResources

def only? (resources : RouterResources) : Option (List (List Char)) :=
  resources.options.findSome? fun | .only names => some names.names | _ => none

def except? (resources : RouterResources) : Option (List (List Char)) :=
  resources.options.findSome? fun | .except names => some names.names | _ => none

def singleton (resources : RouterResources) : Bool :=
  (resources.options.findSome? fun | .singleton value => some value | _ => none).getD false

def param? (resources : RouterResources) : Option (List Char) :=
  resources.options.findSome? fun | .param text => some text.1 | _ => none

def as? (resources : RouterResources) : Option (List Char) :=
  resources.options.findSome? fun | .as name => some name.1 | _ => none

def param (resources : RouterResources) : List Char := resources.param?.getD "id".toList

/-- The singular of the last fixed segment of the path. -/
def itemName (resources : RouterResources) : List Char :=
  Text.singular (underscore (· == '-') ((fixedSegments resources.path.1).getLast?.getD []))

def helper (resources : RouterResources) : List Char := resources.as?.getD resources.itemName

/-- The path without slashes at its end. -/
def base (resources : RouterResources) : List Char :=
  Text.dropEndWhile (· == '/') resources.path.1

/-- The path of one of the resources, which others may be nested in. -/
def memberPath (resources : RouterResources) : List Char :=
  if resources.singleton then resources.path.1
  else resources.base ++ "/:".toList ++ resources.itemName ++ ['_'] ++ resources.param

/-- The actions in the order of their routes: name, verb and what is added to the path. -/
def actions (resources : RouterResources) : List (String × String × List Char) :=
  let member := if resources.singleton then [] else "/:".toList ++ resources.param
  [("index", "GET", []), ("edit", "GET", member ++ "/edit".toList), ("new", "GET", "/new".toList),
    ("show", "GET", member), ("create", "POST", []), ("update", "PATCH", member),
    ("update", "PUT", member), ("delete", "DELETE", member)]

/-- The action has routes: a single resource has no index, and of the lists of actions the one to
keep counts before the one to leave out. -/
def keeps (resources : RouterResources) (action : String) : Bool :=
  !(resources.singleton && action == "index") &&
    match resources.only? with
    | some names => names.contains action.toList
    | none => !(resources.except?.getD []).contains action.toList

def routes (resources : RouterResources) (file : Path) (place : RouterPlace) (line : Nat) :
    List Route :=
  (resources.actions.filter (resources.keeps ·.1)).map fun (action, verb, ending) =>
    { place.route file line verb.toList (resources.base ++ ending) resources.helper with
      controller := some (place.qualify resources.controller.1)
      action := some action
      isResource := true
      resourceOptions := some
        { only := resources.only?.map (·.map String.ofList)
          except := resources.except?.map (·.map String.ofList)
          singleton := resources.singleton
          param := resources.param?.map String.ofList
          asName := resources.as?.map String.ofList } }

end RouterResources

def verbRoute (file : Path) (place : RouterPlace) (line : Nat) (verb : List Char) (path : PathText)
    (controller : ModuleName) (action : AtomName) (as? : Option AtomName) : Route :=
  { place.route file line (Text.asciiUppercase verb) path.1
      (ownHelper as? path.1 controller.1 "Controller") with
    controller := some (place.qualify controller.1)
    action := some (String.ofList action.1) }

def RouterLeaf.routes (file : Path) (place : RouterPlace) (line : Nat) : RouterLeaf → List Route
  | verb name path controller action as? =>
    [verbRoute file place line name.1.toList path controller action as?]
  | «match» verbs path controller action as? =>
    verbs.names.map fun verb => verbRoute file place line verb path controller action as?
  | live path view action? as? =>
    [{ place.route file line "GET".toList path.1 (ownHelper as? path.1 view.1 "Live") with
        liveModule := some (place.qualify view.1)
        liveAction := action?.map fun action => String.ofList action.1 }]
  | forward path plug =>
    [{ place.route file line ['*'] path.1 ((fixedHelper? path.1).getD []) with
        forwardTo := some (place.qualify plug.1) }]
  | resources declared => declared.routes file place line

def RouterOpening.routes (file : Path) (place : RouterPlace) (line : Nat) :
    RouterOpening → List Route
  | resources declared => declared.routes file place line
  | _ => []

/-- The place in a block; nothing in a pipeline counts. -/
def RouterOpening.inner? (place : RouterPlace) : RouterOpening → Option RouterPlace
  | scope path alias? as? =>
    some
      { place with
        outerPath := joinRoutePaths place.outerPath path.1
        scopePath := some (joinRoutePaths (place.scopePath.getD []) path.1)
        aliases := place.aliases ++ (alias?.map (·.1)).toList
        helpers := place.helpers ++ (as?.map (·.1)).toList }
  | liveSession _ => some place
  | pipeline _ => none
  | resources declared =>
    some
      { place with
        outerPath := joinRoutePaths place.outerPath declared.memberPath
        helpers := place.helpers ++ [declared.helper] }

/-- The routes of a tree that stands at a place and begins in a line. -/
def RouterTree.routes (file : Path) :
    {pipes : Bool} → RouterPlace → Nat → RouterTree pipes → List Route
  | _, _, _, done => []
  | _, place, line, leaf declaration next =>
    declaration.routes file place line ++ next.routes file place (line + 1)
  | _, place, line, pipeThrough names next =>
    next.routes file (place.pipedThrough names.names) (line + 1)
  | _, place, line, block opening body next =>
    let inner :=
      match opening.inner? place with
      | some inner => body.routes file inner (line + 1)
      | none => []
    opening.routes file place line ++ inner ++
      next.routes file place (line + (1 + (body.height + 1)))

end PhoenixLens.Elixir
