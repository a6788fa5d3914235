import PhoenixLens.Path.Basic

/-!
# Routes

A route of a router: the verb and path that it answers, and where it leads.
-/

namespace PhoenixLens

/-- The options of a `resources` block that a route comes from. -/
structure ResourceOptions where
  only : Option (List String) := none
  except : Option (List String) := none
  singleton : Bool := false
  param : Option String := none
  asName : Option String := none
deriving DecidableEq, Repr

structure Route where
  path : String
  verb : String
  filePath : Path := ⟨""⟩
  line : Nat
  controller : Option String := none
  action : Option String := none
  /-- The name that its path helper begins with. -/
  helperBase : String
  params : List String := []
  isResource : Bool := false
  liveModule : Option String := none
  liveAction : Option String := none
  forwardTo : Option String := none
  resourceOptions : Option ResourceOptions := none
  pipelines : List String := []
  scopePath : Option String := none
deriving DecidableEq, Repr

namespace ResourceOptions

def encode (options : ResourceOptions) : Json :=
  .obj [("only", .option (.list .str) options.only),
    ("except", .option (.list .str) options.except), ("singleton", .bool options.singleton),
    ("param", .option .str options.param), ("asName", .option .str options.asName)]

def decode : Json → Option ResourceOptions := Json.decodeRecord do
  return {
    only := ← Json.optional "only" (Json.decodeList Json.decodeString)
    except := ← Json.optional "except" (Json.decodeList Json.decodeString)
    singleton := ← Json.withDefault "singleton" false Json.decodeBool
    param := ← Json.optional "param" Json.decodeString
    asName := ← Json.optional "asName" Json.decodeString }

end ResourceOptions

namespace Route

/-- The verb and the path, as a list of routes shows them. -/
def detail (route : Route) : String := route.verb ++ " " ++ route.path

def pathHelper (route : Route) : String := route.helperBase ++ "_path"

def isLive (route : Route) : Bool := route.liveModule.isSome

def encode (route : Route) : Json :=
  .obj [("path", .str route.path), ("verb", .str route.verb),
    ("filePath", route.filePath.encode), ("line", .nat route.line),
    ("controller", .option .str route.controller), ("action", .option .str route.action),
    ("helperBase", .str route.helperBase), ("params", .list .str route.params),
    ("isResource", .bool route.isResource), ("liveModule", .option .str route.liveModule),
    ("liveAction", .option .str route.liveAction), ("forwardTo", .option .str route.forwardTo),
    ("resourceOptions", .option ResourceOptions.encode route.resourceOptions),
    ("pipelines", .list .str route.pipelines), ("scopePath", .option .str route.scopePath)]

def decode : Json → Option Route := Json.decodeRecord do
  return {
    path := ← Json.required "path" Json.decodeString
    verb := ← Json.required "verb" Json.decodeString
    filePath := ← Json.withDefault "filePath" ⟨""⟩ Path.decode
    line := ← Json.required "line" (Json.decodeNat UInt32.size)
    controller := ← Json.optional "controller" Json.decodeString
    action := ← Json.optional "action" Json.decodeString
    helperBase := ← Json.required "helperBase" Json.decodeString
    params := ← Json.withDefault "params" [] (Json.decodeList Json.decodeString)
    isResource := ← Json.withDefault "isResource" false Json.decodeBool
    liveModule := ← Json.optional "liveModule" Json.decodeString
    liveAction := ← Json.optional "liveAction" Json.decodeString
    forwardTo := ← Json.optional "forwardTo" Json.decodeString
    resourceOptions := ← Json.optional "resourceOptions" ResourceOptions.decode
    pipelines := ← Json.withDefault "pipelines" [] (Json.decodeList Json.decodeString)
    scopePath := ← Json.optional "scopePath" Json.decodeString }

end Route

end PhoenixLens
