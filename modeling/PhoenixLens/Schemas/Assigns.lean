import PhoenixLens.Elixir.Literal
import PhoenixLens.Index.Lookup

/-!
# Schemas of assigns

What an assign of a template holds, as far as it is the struct of a schema: by the declared type of
an attribute, by the expression that a controller passes for it, or by its name. From there a path
such as `user.address` leads on along the associations.
-/

namespace PhoenixLens

open Elixir (splitArguments isModuleName)

/-- What the place of an assign tells of it. -/
structure AssignContext where
  /-- The component around it, with its declared attributes. -/
  component : Option Component := none
  /-- The file, which may be a template that a controller renders. -/
  file : Option Path := none

/-- What the last step of a path leads to. -/
inductive AssignTarget where
  /-- No step: the struct of the assign. -/
  | schema (schema : SchemaInfo)
  | field (owner : SchemaInfo) (field : SchemaField)
  /-- The target is missing if the index does not know it. -/
  | association (owner : SchemaInfo) (association : Association) (target : Option SchemaInfo)
deriving Repr

/-- The schema whose fields come next: that of the field itself where no step leads on. -/
def AssignTarget.current? : AssignTarget → Option SchemaInfo
  | schema s => some s
  | field owner _ => some owner
  | association _ _ target => target

def AssignTarget.encode (target : AssignTarget) : Json :=
  let name := fun s : SchemaInfo => Json.str s.moduleName
  let current := ("current", Json.option name target.current?)
  match target with
  | schema s => .obj [("kind", .str "schema"), ("schema", name s), current]
  | field owner f =>
    .obj [("kind", .str "field"), ("schema", name owner), ("field", f.encode), current]
  | association owner a next =>
    .obj [("kind", .str "association"), ("schema", name owner), ("association", a.encode),
      ("target", .option name next), current]

/-! ### Expressions -/

/-- Verbs that the names of functions begin with before what they return. -/
def returnVerbs : List String :=
  ["get_", "list_", "fetch_", "create_", "update_", "change_", "new_", "build_", "load_"]

/-- What a function returns, by its name: `get_user!` returns a `user`. -/
def returnedNoun (function : List Char) : List Char :=
  let bare := Text.dropEndWhile (fun c => c == '!' || c == '?') function
  (returnVerbs.findSome? fun verb => Text.stripPrefix? verb bare).getD bare

def isModuleChar (c : Char) : Bool := Text.isWord c || c == '.'

/-- The module of a struct that an expression begins with: `%Accounts.User\x7b...`. -/
def structModule? (cs : List Char) : Option (List Char) := do
  let rest ← Text.stripPrefix? "%" cs
  let name := rest.takeWhile isModuleChar
  if name.head?.any Text.isAsciiUpper && (rest.drop name.length).head? == some '\x7b' then
    return name
  else failure

/-- The part of a text before its last closing parenthesis. -/
def beforeLastClosing? (cs : List Char) : Option (List Char) :=
  match cs.reverse.dropWhile (· != ')') with
  | [] => none
  | _ :: before => some before.reverse

/-- The function that an expression calls, without its module, and the text of its arguments, which
end on the same line. -/
def functionCall? (cs : List Char) : Option (List Char × List Char) := do
  let run := cs.takeWhile isModuleChar
  let isRemote := cs.head?.any Text.isAsciiUpper
  let name := if isRemote then Text.lastSegment run else cs.takeWhile Text.isWord
  if (isRemote && !run.contains '.') || !name.head?.any Text.startsIdentifier then failure
  let behind := cs.drop (if isRemote then run.length else name.length)
  let marked := Elixir.withMark name behind
  match behind.drop (marked.length - name.length) with
  | '(' :: rest => return (marked, ← beforeLastClosing? (rest.takeWhile (· != '\n')))
  | _ => failure

/-- The text is the name of a variable. -/
def isVariable (cs : List Char) : Bool :=
  cs.head?.any Text.startsIdentifier && cs.all Text.isWord

namespace Index

/-- The schema for the name of a variable: `users` and `user` are of `User`. -/
def schemaByName? (index : Index) (name : List Char) : Option SchemaInfo :=
  index.schemaFor? (String.ofList (Text.camelCase (Text.singular name)))

/-- The schema that an association leads to. -/
def follow? (index : Index) (schema : SchemaInfo) (step : List Char) : Option SchemaInfo := do
  index.schemaFor? (← schema.findAssociation? (String.ofList step)).targetModule

/-- The schema of a variable followed by associations, as in `post.author`. -/
def pathSchema? (index : Index) (cs : List Char) : Option SchemaInfo :=
  match Text.splitAt '.' cs with
  | base :: steps =>
    if isVariable base then (index.schemaByName? base).bind fun s => steps.foldlM index.follow? s
    else none
  | [] => none

/-- The schema of the struct that an expression gives: one that names the module of a struct or
passes it to a function, the call of a function named for what it returns, or a variable. An
argument is shorter than the call. -/
def expressionSchema? (index : Index) (cs : List Char) : Option SchemaInfo :=
  go cs.length cs
where
  /-- Goes into at most so many calls. -/
  go (depth : Nat) (cs : List Char) : Option SchemaInfo :=
    let cs := Text.trim cs
    match structModule? cs, functionCall? cs with
    | some moduleName, _ => index.schemaFor? (String.ofList moduleName)
    | none, some (function, text) =>
      let arguments := splitArguments text
      let first := arguments.head?
      let passed := (first.filter isModuleName).bind fun moduleName =>
        index.schemaFor? (String.ofList (Text.trim moduleName))
      (passed.or (index.schemaByName? (returnedNoun function))).or
        (match depth, first with
        | depth + 1, some argument => go depth argument
        | _, _ => none)
    | none, none => if isVariable cs then index.schemaByName? cs else index.pathSchema? cs

/-! ### Assigns -/

/-- The template that a file holds; of several, that of the component's function. -/
def templateAt? (index : Index) (file : Path) (component : Option Component) :
    Option TemplateInfo :=
  match index.templatesIn file with
  | [template] => some template
  | templates => component.bind fun c => templates.find? (·.name == c.name)

/-- The assigns that controllers pass to the template in a file. -/
def assignsAt (index : Index) (file : Path) (component : Option Component) : List RenderAssign :=
  match index.templateAt? file component with
  | some template => index.assignsOf template.moduleName template.name
  | none => []

/-- The module that an attribute of the component is declared to be a struct of. -/
def declaredModule? (context : AssignContext) (name : String) : Option String := do
  let declared ← (← context.component).findAttribute? name
  if declared.type.toList.head?.any Text.isAsciiUpper then return declared.type else failure

/-- The expression that a controller passes for an assign. -/
def passedExpression? (index : Index) (context : AssignContext) (name : String) :
    Option String := do
  let assigns := index.assignsAt (← context.file) context.component
  (← assigns.find? (·.name == name)).value

def assignSchema? (index : Index) (assign : String) (context : AssignContext) :
    Option SchemaInfo :=
  let name := assign.toList.dropWhile (· == '@')
  let declared := (declaredModule? context (String.ofList name)).bind index.schemaFor?
  let passed := (index.passedExpression? context (String.ofList name)).bind fun e =>
    index.expressionSchema? e.toList
  (declared.or passed).or (index.schemaByName? name)

/-- Where a path of steps leads from a schema. A field ends the path. -/
def walk? (index : Index) (schema : SchemaInfo) : List String → Option AssignTarget
  | [] => some (.schema schema)
  | step :: steps =>
    match schema.findAssociation? step with
    | some association =>
      let target := index.schemaFor? association.targetModule
      if steps.isEmpty then some (.association schema association target)
      else target.bind fun next => index.walk? next steps
    | none =>
      if steps.isEmpty then (schema.findField? step).map (.field schema) else none

/-- Where a path of steps leads from an assign. -/
def assignTarget? (index : Index) (assign : String) (steps : List String)
    (context : AssignContext) : Option AssignTarget := do
  index.walk? (← index.assignSchema? assign context) steps

/-- The component of the file whose function a line stands in: the last one that begins at the
line or before. -/
def enclosingComponent? (index : Index) (file : Path) (line : Nat) : Option Component :=
  if file.extension? != some "ex" then none
  else
    ((index.components.fromFile file).filter fun c => c.line ≤ line).foldl
      (fun found c =>
        match found with
        | some f => if f.line ≤ c.line then some c else some f
        | none => some c) none

end Index

end PhoenixLens
