import PhoenixLens.Elixir.Controllers
import PhoenixLens.Proofs.Elixir.ComponentTree

/-!
# Controllers as trees

Modules with functions. In an action, one line after the other binds a variable, gives assigns,
chooses a view or renders a template. The tree is written as a text. What a render passes on is told
by the lines up to it: of the bindings of a variable and of the views the latest one counts, of the
assigns of a name the first one.
-/

namespace PhoenixLens.Elixir

/-! ### Calls -/

abbrev KeywordName := { key : List Char // key ≠ [] ∧ key.all isKeyChar = true }

/-- Keywords with their values, perhaps between square brackets. -/
structure KeywordList where
  entries : List (KeywordName × List Char)
  bracketed : Bool := false

abbrev AtomLiteral := { value : Literal // value.atom?.isSome }

abbrev NameLiteral := { value : Literal // value.name?.isSome }

/-- A call with what it is given beside the connection. -/
inductive ControllerCall where
  | assign (name : AtomLiteral) (value : List Char)
  | assigns (keywords : KeywordList)
  | putView (view : ModuleName)
  | putViews (views : List (KeywordName × List Char))
  | render (template : NameLiteral) (keywords : KeywordList)

/-- Where a call takes the connection from. -/
inductive CallForm where
  | direct (connection : List Char)
  /-- From a pipe, which begins in the line if it begins with the connection itself. -/
  | piped (begins : Bool)

structure ActionCall where
  form : CallForm
  call : ControllerCall

/-! #### Text -/

namespace KeywordList

def texts (keywords : KeywordList) : List (List Char) :=
  keywords.entries.map fun (key, value) => keyed key.1 value

def arguments (keywords : KeywordList) : List (List Char) :=
  if keywords.bracketed then ['[' :: Text.join ", ".toList keywords.texts ++ [']']]
  else keywords.texts

def values (keywords : KeywordList) : List (List Char) := keywords.entries.map (·.2)

end KeywordList

namespace ControllerCall

def name : ControllerCall → String
  | assign _ _ | assigns _ => "assign"
  | putView _ | putViews _ => "put_view"
  | render _ _ => "render"

def arguments : ControllerCall → List (List Char)
  | assign name value => [name.1.text, value]
  | assigns keywords => keywords.arguments
  | putView view => [view.1]
  | putViews views => { entries := views : KeywordList }.arguments
  | render template keywords => template.1.text :: keywords.arguments

/-- The expressions among the arguments. -/
def values : ControllerCall → List (List Char)
  | assign _ value => [value]
  | assigns keywords => keywords.values
  | putView _ => []
  | putViews views => { entries := views : KeywordList }.values
  | render _ keywords => keywords.values

end ControllerCall

namespace ActionCall

def front (call : ActionCall) : List Char :=
  match call.form with
  | .direct _ => []
  | .piped begins => (if begins then "conn |>" else "|>").toList ++ [' ']

def arguments (call : ActionCall) : List (List Char) :=
  match call.form with
  | .direct connection => connection :: call.call.arguments
  | .piped _ => call.call.arguments

/-- The call behind the pipe, if there is one. -/
def own (call : ActionCall) : List Char :=
  call.call.name.toList ++ ('(' :: Text.join ", ".toList call.arguments ++ [')'])

def text (call : ActionCall) : List Char := call.front ++ call.own

end ActionCall

/-! ### Lines -/

inductive ActionLine where
  | blank
  | binding (target : Markup.Identifier) (value : List Char)
  /-- A call; its result may be bound to a variable. -/
  | call (target? : Option Markup.Identifier) (call : ActionCall)
  /-- A line that is of no concern. -/
  | other (text : List Char)

/-- A variable before what is bound to it. -/
def bindingText (target : Markup.Identifier) (value : List Char) : List Char :=
  target.1 ++ " = ".toList ++ value

namespace ActionLine

def text : ActionLine → List Char
  | blank => []
  | binding target value => bindingText target value
  | call none made => made.text
  | call (some target) made => bindingText target made.text
  | other text => text

def written (width depth : Nat) : ActionLine → SourceLine
  | blank => .line []
  | line => indented width depth line.text

end ActionLine

/-! ### Functions and modules -/

inductive FunctionBody where
  | block (lines : List ActionLine)
  /-- A call behind `do:`. -/
  | call (call : ActionCall)
  /-- Another expression behind `do:`. -/
  | other (text : List Char)

structure ControllerFunction where
  isPrivate : Bool
  name : FunctionName
  arguments : List (List Char)
  body : FunctionBody

/-- What stands in a module or in a file, one after the other. -/
inductive ControllerTree where
  | done
  | blank (next : ControllerTree)
  /-- A line that is of no concern. -/
  | other (text : List Char) (next : ControllerTree)
  | function (function : ControllerFunction) (next : ControllerTree)
  | module (name : ModuleAlias) (body next : ControllerTree)

namespace ControllerFunction

/-- The function with nothing in it. -/
def clause (function : ControllerFunction) : FunctionClause :=
  { isPrivate := function.isPrivate
    name := function.name
    arguments := function.arguments
    body := .template [] }

def lines (width depth : Nat) (function : ControllerFunction) : List SourceLine :=
  let inline := fun text => indented width depth (function.clause.head ++ (", do: ".toList ++ text))
  match function.body with
  | .block lines =>
    indented width depth (function.clause.head ++ " do".toList) ::
      (lines.map (ActionLine.written width (depth + 1)) ++ [indented width depth "end".toList])
  | .call call => [inline call.text]
  | .other text => [inline text]

/-- The number of lines. -/
def height (function : ControllerFunction) : Nat :=
  match function.body with
  | .block lines => 1 + (lines.length + 1)
  | .call _ | .other _ => 1

end ControllerFunction

namespace ControllerTree

def lines (width : Nat) : Nat → ControllerTree → List SourceLine
  | _, done => []
  | depth, blank next => .line [] :: next.lines width depth
  | depth, other text next => indented width depth text :: next.lines width depth
  | depth, function defined next => defined.lines width depth ++ next.lines width depth
  | depth, module name body next =>
    indented width depth (moduleCall name).text :: (body.lines width (depth + 1) ++
      indented width depth "end".toList :: next.lines width depth)

/-- The number of lines. -/
def height : ControllerTree → Nat
  | done => 0
  | blank next | other _ next => 1 + next.height
  | function defined next => defined.height + next.height
  | module _ body next => 1 + (body.height + (1 + next.height))

def source (width : Nat) (tree : ControllerTree) : List Char :=
  sourceText ((tree.lines width 0).flatMap SourceLine.physical)

end ControllerTree

/-! ### Plain lines -/

/-- Somewhere in the text, what a call of `name` begins with is read off. -/
def opensCall (name : String) (text : List Char) : Bool := go false text
where
  /-- Continues behind a character, which may belong to a word. -/
  go (inWord : Bool) : List Char → Bool
    | [] => false
    | c :: cs =>
      (!inWord && (name.toList ++ ['(']).isPrefixOf (c :: cs)) || go (Text.isWord c) cs

/-- What the calls in an action are collected of. -/
def collectedCalls : List String := ["assign", "put_view", "render"]

/-- None of these calls begins in the text, not even in a string. -/
def OpensNoCall (text : List Char) : Prop := ∀ name ∈ collectedCalls, opensCall name text = false

instance (text : List Char) : Decidable (OpensNoCall text) := inferInstanceAs (Decidable (∀ _ ∈ _, _))

/-- The line closes the blocks that it opens. -/
def IsLevelLine (text : List Char) : Prop := (blockDelta text).1 = (blockDelta text).2

instance (text : List Char) : Decidable (IsLevelLine text) := inferInstanceAs (Decidable (_ = _))

/-- The connection is known by its name. So is a connection that stands before the arguments, and an
argument behind a pipe that mentions a connection is taken for one unless it is an atom. -/
def CallForm.Suits (arguments : List (List Char)) : CallForm → Prop
  | direct connection =>
    IsSegment false connection ∧ mentionsConn connection = true ∧ parseAtom? connection = none
  | piped _ => ∀ first ∈ arguments.head?, mentionsConn first = true → (parseAtom? first).isSome

structure ActionCall.IsPlain (call : ActionCall) : Prop where
  values : ∀ value ∈ call.call.values, IsSegment false value
  noCalls : ∀ argument ∈ call.arguments, OpensNoCall argument
  form : call.form.Suits call.call.arguments

/-- Nothing is read off the line. -/
structure IsIdleLine (text : List Char) : Prop where
  isExpression : IsExpression true text
  level : IsLevelLine text
  noCalls : OpensNoCall text
  noDefinition : definitionHead? text = none
  noModule : moduleOpening? text = none

def ActionLine.IsPlain : ActionLine → Prop
  | blank => True
  | binding target value =>
    IsExpression true value ∧ OpensNoCall value ∧ IsLevelLine (bindingText target value)
  | call target? made => made.IsPlain ∧ IsLevelLine (ActionLine.call target? made).text
  | other text => IsIdleLine text ∧ binding? text = none

def FunctionBody.IsPlain : FunctionBody → Prop
  | block lines => ∀ line ∈ lines, line.IsPlain
  | call made => made.IsPlain ∧ IsLevelLine made.text
  | other text => IsExpression true text ∧ OpensNoCall text ∧ IsLevelLine text

structure ControllerFunction.IsPlain (function : ControllerFunction) : Prop where
  arguments : ∀ argument ∈ function.arguments, IsArgument argument
  noCalls : OpensNoCall function.clause.head
  body : function.body.IsPlain

def ControllerTree.IsPlain : ControllerTree → Prop
  | done => True
  | blank next => next.IsPlain
  | other text next => IsIdleLine text ∧ next.IsPlain
  | function defined next => defined.IsPlain ∧ next.IsPlain
  | module _ body next => body.IsPlain ∧ next.IsPlain

/-! ### Meaning -/

/-- What a line of an action does. -/
structure LineContent where
  binding? : Option (List Char × List Char) := none
  assigns : List (List Char × List Char) := []
  view? : Option (List Char) := none
  /-- The template that is rendered, and the keywords of the render. -/
  render? : Option (List Char × List (List Char × List Char)) := none

def KeywordList.keywords (keywords : KeywordList) : List (List Char × List Char) :=
  keywords.entries.map fun (key, value) => (key.1, value)

def ControllerCall.content : ControllerCall → LineContent
  | assign name value => { assigns := [(name.1.atom?.get name.2, value)] }
  | assigns keywords => { assigns := keywords.keywords }
  | putView view => { view? := some view.1 }
  | putViews views =>
    { view? := ({ entries := views : KeywordList }.keywords.lookup "html".toList).filter
        isModuleName }
  | render template keywords =>
    -- the format behind the dot is no part of the name
    { render? := some
        ((template.1.name?.get template.2).takeWhile (· != '.'), keywords.keywords) }

def ActionLine.content : ActionLine → LineContent
  | blank | other _ => {}
  | binding target value => { binding? := some (target.1, value) }
  | call target? made =>
    { made.call.content with binding? := target?.map fun target => (target.1, made.text) }

/-- An expression behind some lines, the latest first: a bound variable is replaced by what it is
bound to, which is an expression behind the lines before. -/
def valueOf : List LineContent → List Char → List Char
  | [], value => value
  | line :: earlier, value =>
    match line.binding? with
    | some (name, bound) => valueOf earlier (if name = value then bound else value)
    | none => valueOf earlier value

def assignOf (name value : List Char) : RenderAssign :=
  { name := String.ofList name, value := some (String.ofList value) }

/-- The assigns that some lines give, the latest line first. -/
def assignsOf : List LineContent → List RenderAssign
  | [] => []
  | line :: earlier =>
    assignsOf earlier ++
      line.assigns.map fun (name, value) => assignOf name (valueOf (line :: earlier) value)

/-- A render in an action, with its line and those before it, the latest first. -/
structure Rendering where
  action : List Char
  line : Nat
  template : List Char
  keywords : List (List Char × List Char)
  lines : List LineContent

namespace Rendering

/-- What the keywords of the render pass on. -/
def own (rendering : Rendering) : List RenderAssign :=
  rendering.keywords.map fun (name, value) => assignOf name (valueOf rendering.lines value)

/-- What the action has assigned before. -/
def assigned (rendering : Rendering) : List RenderAssign := assignsOf rendering.lines

structure IsRecorded (rendering : Rendering) (info : RenderInfo) : Prop where
  action : info.action = some (String.ofList rendering.action)
  template : info.template = String.ofList rendering.template
  line : info.line = rendering.line
  /-- The names are those of the keywords and of the assigns before. -/
  names : ∀ name, name ∈ info.assignNames ↔
    ∃ given ∈ rendering.own ++ rendering.assigned, given.name = name
  /-- Each of them has the value of its keyword or else of its first assign. -/
  values : ∀ name, info.assigns.find? (·.name == name) =
    (rendering.own ++ rendering.assigned).find? (·.name == name)
  /-- The keywords stand as they are, and no other name is listed twice. -/
  own : ∃ others, info.assigns = rendering.own ++ others ∧
    (others.map RenderAssign.name).Nodup ∧
    ∀ given ∈ rendering.own, given.name ∉ others.map RenderAssign.name
  once : (rendering.own.map RenderAssign.name).Nodup → info.assignNames.Nodup
  /-- The view is the one that has been chosen last. -/
  view : info.viewModule = (rendering.lines.findSome? LineContent.view?).map String.ofList

end Rendering

/-- The renders of the lines of an action, numbered from `n` on, behind earlier ones. -/
def renderingsOf (action : List Char) : Nat → List LineContent → List LineContent → List Rendering
  | _, _, [] => []
  | n, earlier, line :: lines =>
    (line.render?.map fun (template, keywords) =>
      { action, line := n, template, keywords, lines := line :: earlier : Rendering }).toList ++
      renderingsOf action (n + 1) (line :: earlier) lines

namespace ControllerFunction

/-- A public function whose first argument is a connection. -/
def isAction (function : ControllerFunction) : Bool :=
  !function.isPrivate && function.arguments.head?.any mentionsConn

/-- What the lines of the function do, its head first. -/
def contents (function : ControllerFunction) : List LineContent :=
  match function.body with
  | .block lines => {} :: lines.map ActionLine.content
  | .call call => [call.call.content]
  | .other _ => [{}]

def actions (n : Nat) (function : ControllerFunction) : List ControllerAction :=
  if function.isAction then [⟨String.ofList function.name.text, n⟩] else []

def renderings (n : Nat) (function : ControllerFunction) : List Rendering :=
  if function.isAction then renderingsOf function.name.text n [] function.contents else []

end ControllerFunction

namespace ControllerTree

/-- The clauses of actions in a tree that begins in a line, those in modules in it left out. -/
def actions : Nat → ControllerTree → List ControllerAction
  | _, done => []
  | n, blank next | n, other _ next => next.actions (n + 1)
  | n, function defined next => defined.actions n ++ next.actions (n + defined.height)
  | n, module _ body next => next.actions (n + (1 + (body.height + 1)))

/-- The renders in the same actions. -/
def renderings : Nat → ControllerTree → List Rendering
  | _, done => []
  | n, blank next | n, other _ next => next.renderings (n + 1)
  | n, function defined next => defined.renderings n ++ next.renderings (n + defined.height)
  | n, module _ body next => next.renderings (n + (1 + (body.height + 1)))

end ControllerTree

/-- A module with its full name and its line. -/
structure PlacedModule where
  name : List Char
  line : Nat
  body : ControllerTree

namespace PlacedModule

def actions (placed : PlacedModule) : List ControllerAction :=
  placed.body.actions (placed.line + 1)

def renderings (placed : PlacedModule) : List Rendering :=
  placed.body.renderings (placed.line + 1)

structure IsRecorded (file : Path) (placed : PlacedModule) (info : ControllerInfo) : Prop where
  moduleName : info.moduleName = String.ofList placed.name
  filePath : info.filePath = file
  line : info.line = placed.line
  /-- Each action is listed once, with its first clause. -/
  actions : (info.actions.map ControllerAction.name).Nodup ∧ ∀ name,
    info.actions.find? (·.name == name) = placed.actions.find? (·.name == name)
  renders : List.Forall₂ Rendering.IsRecorded placed.renderings info.renders

end PlacedModule

/-- The modules in a tree that begins in a line, each before those in it. -/
def ControllerTree.modules : Option (List Char) → Nat → ControllerTree → List PlacedModule
  | _, _, done => []
  | outer?, n, blank next | outer?, n, other _ next => next.modules outer? (n + 1)
  | outer?, n, function defined next => next.modules outer? (n + defined.height)
  | outer?, n, module name body next =>
    let full := nameWithin outer? name.1
    ⟨full, n, body⟩ :: body.modules (some full) (n + 1) ++
      next.modules outer? (n + (1 + (body.height + 1)))

end PhoenixLens.Elixir
