import PhoenixLens.Model.Component
import PhoenixLens.Proofs.Elixir.CallLine
import PhoenixLens.Proofs.Elixir.Literal
import PhoenixLens.Proofs.Elixir.SourceLines
import PhoenixLens.Proofs.Markup.Template

/-!
# Function components as trees

Modules with function clauses, each behind the attributes and slots that are declared for it. The
tree is written line by line. Its components are found by going through it: each clause that takes the
assigns takes what is declared before it, and the clauses of one function are one component.
-/

namespace PhoenixLens.Elixir

/-- The name of a function, perhaps with a mark at its end. -/
structure FunctionName where
  stem : Markup.Identifier
  mark : Markup.NameMark
  isIdle : IsIdle (stem.1 ++ mark.1)

def FunctionName.text (name : FunctionName) : List Char := name.stem.1 ++ name.mark.1

/-- An option of attributes and slots. -/
inductive DeclarationOption where
  | required (value : Bool)
  | doc (text? : Option StringLiteral)

inductive AttributeOption where
  | common (option : DeclarationOption)
  | default (value : List Char)
  | values (names : NameList)

/-- An `attr` line; of repeated options the first one counts. -/
structure AttributeDeclaration where
  name : AtomName
  type : Literal
  options : List AttributeOption
  parens : Bool := false

/-- A `slot` line. -/
structure SlotDeclaration where
  name : AtomName
  options : List DeclarationOption
  parens : Bool := false

/-- What may stand before a function. -/
inductive ComponentDeclaration where
  | blank
  | attr (declared : AttributeDeclaration)
  | slot (declared : SlotDeclaration)
  | slotBlock (declared : SlotDeclaration) (attributes : List AttributeDeclaration)

inductive ClauseBody where
  /-- A block with a template in it. -/
  | template (lines : List { line : List Char // IsHeredocLine line })
  | expression (text : List Char)

structure FunctionClause where
  isPrivate : Bool
  name : FunctionName
  arguments : List (List Char)
  body : ClauseBody

/-- What stands in a module or in a file, one after the other. -/
inductive ComponentTree where
  | done
  | blank (next : ComponentTree)
  | clause (declarations : List ComponentDeclaration) (function : FunctionClause)
      (next : ComponentTree)
  | module (name : ModuleAlias) (body next : ComponentTree)

/-! ### Text -/

def flagText (value : Bool) : List Char := if value then "true".toList else "false".toList

def docText (text? : Option StringLiteral) : List Char :=
  (text?.map StringLiteral.written).getD (flagText false)

def DeclarationOption.keyword : DeclarationOption → List Char × List Char
  | required value => ("required".toList, flagText value)
  | doc text? => ("doc".toList, docText text?)

def AttributeOption.keyword : AttributeOption → List Char × List Char
  | common option => option.keyword
  | default value => ("default".toList, value)
  | values names => ("values".toList, names.text)

/-- The arguments under keys, as they are written. -/
def keywordTexts (keywords : List (List Char × List Char)) : List (List Char) :=
  keywords.map fun (key, value) => keyed key value

def AttributeDeclaration.line (declared : AttributeDeclaration) : CallLine :=
  { name := "attr"
    arguments := [':' :: declared.name.1, declared.type.text] ++
      keywordTexts (declared.options.map AttributeOption.keyword)
    parens := declared.parens }

def SlotDeclaration.line (declared : SlotDeclaration) (opens : Bool) : CallLine :=
  { name := "slot"
    arguments := [':' :: declared.name.1] ++
      keywordTexts (declared.options.map DeclarationOption.keyword)
    parens := declared.parens
    opens }

def ComponentDeclaration.lines (width depth : Nat) : ComponentDeclaration → List SourceLine
  | blank => [.line []]
  | attr declared => [indented width depth declared.line.text]
  | slot declared => [indented width depth (declared.line false).text]
  | slotBlock declared attributes =>
    indented width depth (declared.line true).text ::
      (attributes.map (fun a => indented width (depth + 1) a.line.text) ++
        [indented width depth "end".toList])

/-- The number of physical lines of declarations. -/
def heightOf : List ComponentDeclaration → Nat
  | [] => 0
  | .slotBlock _ attributes :: declarations => 1 + (attributes.length + (1 + heightOf declarations))
  | _ :: declarations => 1 + heightOf declarations

namespace FunctionClause

/-- The clause up to its last parenthesis. -/
def head (clause : FunctionClause) : List Char :=
  (if clause.isPrivate then "defp".toList else "def".toList) ++ ' ' ::
    (clause.name.text ++ ('(' :: Text.join ", ".toList clause.arguments ++ [')']))

def lines (width depth : Nat) (clause : FunctionClause) : List SourceLine :=
  match clause.body with
  | .template lines =>
    [indented width depth (clause.head ++ " do".toList),
      .heredoc (List.replicate (width * (depth + 1)) ' ' ++ "~H".toList) (lines.map (·.1))
        (width * (depth + 1)),
      indented width depth "end".toList]
  | .expression text => [indented width depth (clause.head ++ (", do: ".toList ++ text))]

def height (clause : FunctionClause) : Nat :=
  match clause.body with
  | .template lines => lines.length + 4
  | .expression _ => 1

end FunctionClause

namespace ComponentTree

def lines (width : Nat) : Nat → ComponentTree → List SourceLine
  | _, done => []
  | depth, blank next => .line [] :: next.lines width depth
  | depth, clause declarations function next =>
    declarations.flatMap (ComponentDeclaration.lines width depth) ++ function.lines width depth ++
      next.lines width depth
  | depth, module name body next =>
    indented width depth (moduleCall name).text :: (body.lines width (depth + 1) ++
      indented width depth "end".toList :: next.lines width depth)

/-- The number of physical lines. -/
def height : ComponentTree → Nat
  | done => 0
  | blank next => 1 + next.height
  | clause declarations function next => heightOf declarations + (function.height + next.height)
  | module _ body next => 1 + (body.height + (1 + next.height))

def source (width : Nat) (tree : ComponentTree) : List Char :=
  sourceText ((tree.lines width 0).flatMap SourceLine.physical)

end ComponentTree

/-! ### Plain values

Strings are known by their quotes, and what stands elsewhere is read as code. A value is plain if it
closes its brackets and quotes that way, and if no word in it counts as the keyword of a block. -/

def AttributeOption.IsPlain : AttributeOption → Prop
  | common _ => True
  | default value => IsArgument value
  | values names => names.IsPlain

def AttributeDeclaration.IsPlain (declared : AttributeDeclaration) : Prop :=
  ∀ option ∈ declared.options, option.IsPlain

def ComponentDeclaration.IsPlain : ComponentDeclaration → Prop
  | attr declared => declared.IsPlain
  | slotBlock _ attributes => ∀ declared ∈ attributes, declared.IsPlain
  | _ => True

/-- What follows `do:` may hold blocks that it closes. -/
def ClauseBody.IsPlain : ClauseBody → Prop
  | template _ => True
  | expression text => IsExpression true text ∧ (blockDelta text).1 = (blockDelta text).2

structure FunctionClause.IsPlain (clause : FunctionClause) : Prop where
  arguments : ∀ argument ∈ clause.arguments, IsArgument argument
  body : clause.body.IsPlain

def ComponentTree.IsPlain : ComponentTree → Prop
  | done => True
  | blank next => next.IsPlain
  | clause declarations function next =>
    (∀ declared ∈ declarations, declared.IsPlain) ∧ function.IsPlain ∧ next.IsPlain
  | module _ body next => body.IsPlain ∧ next.IsPlain

/-! ### Meaning -/

def DeclarationOption.required? : DeclarationOption → Option Bool
  | required value => some value
  | _ => none

def DeclarationOption.doc? : DeclarationOption → Option (Option StringLiteral)
  | doc text? => some text?
  | _ => none

namespace AttributeOption

def common? : AttributeOption → Option DeclarationOption
  | common option => some option
  | _ => none

def default? : AttributeOption → Option (List Char)
  | default value => some value
  | _ => none

def values? : AttributeOption → Option NameList
  | values names => some names
  | _ => none

end AttributeOption

def requiredOf (options : List DeclarationOption) : Bool :=
  (options.findSome? DeclarationOption.required?).getD false

/-- The documentation; there is none where it is switched off. -/
def docOf (options : List DeclarationOption) : Option String :=
  (options.findSome? DeclarationOption.doc?).join.map fun text => String.ofList text.value

def AttributeDeclaration.declared (declared : AttributeDeclaration) : Attribute :=
  let common := declared.options.filterMap AttributeOption.common?
  { name := String.ofList declared.name.1
    type := String.ofList ((declared.type.atom?.or declared.type.module?).getD "any".toList)
    required := requiredOf common
    default := (declared.options.findSome? AttributeOption.default?).map String.ofList
    values := (declared.options.findSome? AttributeOption.values?).map fun names =>
      names.names.map String.ofList
    doc := docOf common }

def SlotDeclaration.declared (declared : SlotDeclaration) (attributes : List AttributeDeclaration) :
    Slot :=
  { name := String.ofList declared.name.1
    required := requiredOf declared.options
    doc := docOf declared.options
    attributes := attributes.map AttributeDeclaration.declared }

namespace ComponentDeclaration

def attribute? : ComponentDeclaration → Option Attribute
  | attr declared => some declared.declared
  | _ => none

def slot? : ComponentDeclaration → Option Slot
  | slot declared => some (declared.declared [])
  | slotBlock declared attributes => some (declared.declared attributes)
  | _ => none

end ComponentDeclaration

/-- A clause with one argument that mentions the assigns. -/
def FunctionClause.isComponent (clause : FunctionClause) : Bool :=
  match clause.arguments with
  | [argument] => Text.contains "assigns" argument
  | _ => false

/-- The component that a clause in a line makes of what is declared before it. -/
def FunctionClause.component? (clause : FunctionClause) (file : Path) (module? : Option (List Char))
    (line : Nat) (attributes : List Attribute) (slots : List Slot) : Option Component :=
  (module?.filter fun _ => clause.isComponent).map fun moduleName =>
    { name := String.ofList clause.name.text
      moduleName := String.ofList moduleName
      filePath := file
      line
      attributes
      slots }

namespace ComponentTree

/-- The clauses of components in a tree that begins in a line, each with what is declared for it. -/
def clauses (file : Path) : Option (List Char) → Nat → ComponentTree → List Component
  | _, _, done => []
  | module?, line, blank next => next.clauses file module? (line + 1)
  | module?, line, clause declarations function next =>
    let attributes := declarations.filterMap ComponentDeclaration.attribute?
    let slots := declarations.filterMap ComponentDeclaration.slot?
    let first := line + heightOf declarations
    (function.component? file module? first attributes slots).toList ++
      next.clauses file module? (first + function.height)
  | module?, line, module name body next =>
    body.clauses file (some (nameWithin module? name.1)) (line + 1) ++
      next.clauses file module? (line + (1 + (body.height + 1)))

end ComponentTree

end PhoenixLens.Elixir
