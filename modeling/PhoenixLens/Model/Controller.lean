import PhoenixLens.Path.Basic

/-!
# Controllers

A controller with its actions and the templates that they render. Each render lists the assigns
that it passes on, with the expression of their values where it is known.
-/

namespace PhoenixLens

/-- An action and the line of its first clause. -/
structure ControllerAction where
  name : String
  line : Nat
deriving DecidableEq, Repr

structure RenderAssign where
  name : String
  value : Option String := none
deriving DecidableEq, Repr

structure RenderInfo where
  action : Option String := none
  template : String
  assigns : List RenderAssign := []
  line : Nat
  /-- The view that the action chose itself. -/
  viewModule : Option String := none
deriving DecidableEq, Repr

structure ControllerInfo where
  moduleName : String
  filePath : Path := ⟨""⟩
  line : Nat := 0
  actions : List ControllerAction := []
  renders : List RenderInfo := []
deriving DecidableEq, Repr

namespace ControllerAction

def encode (action : ControllerAction) : Json :=
  .obj [("name", .str action.name), ("line", .nat action.line)]

def decode : Json → Option ControllerAction := Json.decodeRecord do
  return {
    name := ← Json.required "name" Json.decodeString
    line := ← Json.required "line" (Json.decodeNat UInt32.size) }

end ControllerAction

namespace RenderAssign

def encode (assign : RenderAssign) : Json :=
  .obj [("name", .str assign.name), ("value", .option .str assign.value)]

/-- An assign may be written as its name alone, but not as an array of its fields. All of it has to
be readable. -/
def decode : Json → Option RenderAssign
  | .str name => some { name }
  | .arr _ => none
  | value => if !value.isReadable then none else value |> Json.decodeRecord do
    return {
      name := ← Json.required "name" Json.decodeString
      value := ← Json.optional "value" Json.decodeString }

end RenderAssign

namespace RenderInfo

def assignNames (render : RenderInfo) : List String := render.assigns.map RenderAssign.name

def encode (render : RenderInfo) : Json :=
  .obj [("action", .option .str render.action), ("template", .str render.template),
    ("assigns", .list RenderAssign.encode render.assigns), ("line", .nat render.line),
    ("viewModule", .option .str render.viewModule)]

def decode : Json → Option RenderInfo := Json.decodeRecord do
  return {
    action := ← Json.optional "action" Json.decodeString
    template := ← Json.required "template" Json.decodeString
    assigns := ← Json.withDefault "assigns" [] (Json.decodeList RenderAssign.decode)
    line := ← Json.required "line" (Json.decodeNat UInt32.size)
    viewModule := ← Json.optional "viewModule" Json.decodeString }

end RenderInfo

namespace ControllerInfo

/-- The module whose templates a controller renders by convention: `PageController` renders those
of `PageHTML`. -/
def htmlModule (controller : ControllerInfo) : String :=
  let name := controller.moduleName.toList
  String.ofList ((Text.stripSuffix? "Controller" name).getD name ++ "HTML".toList)

/-- The module whose template a render means. -/
def viewFor (controller : ControllerInfo) (render : RenderInfo) : String :=
  render.viewModule.getD controller.htmlModule

def encode (controller : ControllerInfo) : Json :=
  .obj [("moduleName", .str controller.moduleName), ("filePath", controller.filePath.encode),
    ("line", .nat controller.line), ("actions", .list ControllerAction.encode controller.actions),
    ("renders", .list RenderInfo.encode controller.renders)]

def decode : Json → Option ControllerInfo := Json.decodeRecord do
  return {
    moduleName := ← Json.required "moduleName" Json.decodeString
    filePath := ← Json.withDefault "filePath" ⟨""⟩ Path.decode
    line := ← Json.withDefault "line" 0 (Json.decodeNat UInt32.size)
    actions := ← Json.withDefault "actions" [] (Json.decodeList ControllerAction.decode)
    renders := ← Json.withDefault "renders" [] (Json.decodeList RenderInfo.decode) }

end ControllerInfo

end PhoenixLens
