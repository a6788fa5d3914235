import PhoenixLens.Elixir.EctoSchemas
import PhoenixLens.Proofs.Elixir.CallLine
import PhoenixLens.Proofs.Elixir.Literal
import PhoenixLens.Proofs.Elixir.SourceLines

/-!
# Schemas as trees

Modules with aliases and schemas. A schema is a block of fields, timestamps and associations; an
embedded schema may be written in a block of its own, inside the one that embeds it. The tree is
written line by line, one macro to a line. Its schemas are found by going through it, each line for
the block around it and each module name by the aliases of its module.
-/

namespace PhoenixLens.Elixir

/-! ### Lines -/

inductive OptionValue where
  | literal (value : Literal)
  | other (text : List Char) (hText : parseAtom? text = none)

namespace OptionValue

def text : OptionValue → List Char
  | literal value => value.text
  | other text _ => text

def atom? : OptionValue → Option (List Char)
  | literal value => value.atom?
  | other _ _ => none

/-- A value is plain if it closes what it opens and no word in it counts as the keyword of a block. -/
def IsPlain : OptionValue → Prop
  | literal _ => True
  | other text _ => IsArgument text

end OptionValue

/-- The key of an option: it begins with a lower-case letter. -/
abbrev OptionKey := { key : List Char // IsKey key ∧ key.head?.any Text.isAsciiLower = true }

/-- Options as they are written; of several with one key the first one counts. -/
abbrev SchemaOptions := List (OptionKey × OptionValue)

namespace SchemaOptions

def keywords (options : SchemaOptions) : List (List Char × List Char) :=
  options.map fun (key, value) => (key.1, value.text)

def texts (options : SchemaOptions) : List (List Char) :=
  options.keywords.map fun (key, value) => keyed key value

def IsPlain (options : SchemaOptions) : Prop := ∀ option ∈ options, option.2.IsPlain

def value? (options : SchemaOptions) (key : String) : Option OptionValue :=
  (options.find? fun option => key.toList == option.1.1).map Prod.snd

end SchemaOptions

structure FieldDeclaration where
  name : AtomName
  type? : Option Literal
  options : SchemaOptions
  parens : Bool := false

/-- The module that an association names: by its name, or as the module around it. -/
inductive WrittenTarget where
  | module (name : ModuleName)
  | own (inner? : Option ModuleName)

structure AssociationDeclaration where
  name : AtomName
  target? : Option WrittenTarget
  options : SchemaOptions
  parens : Bool := false

inductive AliasDeclaration where
  | plain (target : ModuleName)
  | named (target name : ModuleName)
  /-- `alias Base.{A, B}`. -/
  | group (base : ModuleName) (names : List ModuleName)

inductive SchemaBlock where
  | done
  | blank (next : SchemaBlock)
  | field (declared : FieldDeclaration) (next : SchemaBlock)
  | timestamps (options : SchemaOptions) (parens : Bool) (next : SchemaBlock)
  | association (type : AssociationType) (declared : AssociationDeclaration) (next : SchemaBlock)
  /-- An embedded schema in a block of its own. -/
  | embed (many : Bool) (declared : AssociationDeclaration) (body next : SchemaBlock)

/-- The lines of a module. A schema without a table is an `embedded_schema`. -/
inductive SchemaTree where
  | done
  | blank (next : SchemaTree)
  | uses (target : ModuleName) (next : SchemaTree)
  | aliasLine (declared : AliasDeclaration) (parens : Bool) (next : SchemaTree)
  | schema (table? : Option StringLiteral) (parens : Bool) (body : SchemaBlock) (next : SchemaTree)
  | module (name : ModuleAlias) (body next : SchemaTree)

/-! ### Text -/

def FieldDeclaration.line (declared : FieldDeclaration) : CallLine :=
  { name := "field"
    arguments := ([':' :: declared.name.1] ++ (declared.type?.map Literal.text).toList) ++
      declared.options.texts
    parens := declared.parens }

def WrittenTarget.text : WrittenTarget → List Char
  | module name => name.1
  | own inner? => "__MODULE__".toList ++ (inner?.map fun name => '.' :: name.1).getD []

def AssociationDeclaration.line (declared : AssociationDeclaration) (type : AssociationType)
    (opens : Bool) : CallLine :=
  { name := type.tag
    arguments := ([':' :: declared.name.1] ++ (declared.target?.map WrittenTarget.text).toList) ++
      declared.options.texts
    parens := declared.parens
    opens }

def timestampsLine (options : SchemaOptions) (parens : Bool) : CallLine :=
  { name := "timestamps", arguments := options.texts, parens }

def usesLine (target : ModuleName) : CallLine := { name := "use", arguments := [target.1] }

def AliasDeclaration.arguments : AliasDeclaration → List (List Char)
  | plain target => [target.1]
  | named target name => [target.1, keyed "as".toList name.1]
  | group base names =>
    [base.1 ++ '.' :: ('{' :: Text.join ", ".toList (names.map (·.1)) ++ ['}'])]

def AliasDeclaration.line (declared : AliasDeclaration) (parens : Bool) : CallLine :=
  { name := "alias", arguments := declared.arguments, parens }

def schemaLine : Option StringLiteral → Bool → CallLine
  | some table, parens => { name := "schema", arguments := [table.written], parens, opens := true }
  | none, _ => { name := "embedded_schema", arguments := [], opens := true }

def embedType (many : Bool) : AssociationType := if many then .embedsMany else .embedsOne

def SchemaBlock.lines (width : Nat) : Nat → SchemaBlock → List SourceLine
  | _, done => []
  | depth, blank next => .line [] :: next.lines width depth
  | depth, field declared next => indented width depth declared.line.text :: next.lines width depth
  | depth, timestamps options parens next =>
    indented width depth (timestampsLine options parens).text :: next.lines width depth
  | depth, association type declared next =>
    indented width depth (declared.line type false).text :: next.lines width depth
  | depth, embed many declared body next =>
    indented width depth (declared.line (embedType many) true).text ::
      (body.lines width (depth + 1) ++ indented width depth "end".toList :: next.lines width depth)

def SchemaBlock.height : SchemaBlock → Nat
  | done => 0
  | blank next => 1 + next.height
  | field _ next => 1 + next.height
  | timestamps _ _ next => 1 + next.height
  | association _ _ next => 1 + next.height
  | embed _ _ body next => 1 + (body.height + (1 + next.height))

namespace SchemaTree

def lines (width : Nat) : Nat → SchemaTree → List SourceLine
  | _, done => []
  | depth, blank next => .line [] :: next.lines width depth
  | depth, uses target next => indented width depth (usesLine target).text :: next.lines width depth
  | depth, aliasLine declared parens next =>
    indented width depth (declared.line parens).text :: next.lines width depth
  | depth, schema table? parens body next =>
    indented width depth (schemaLine table? parens).text ::
      (body.lines width (depth + 1) ++ indented width depth "end".toList :: next.lines width depth)
  | depth, module name body next =>
    indented width depth (moduleCall name).text ::
      (body.lines width (depth + 1) ++ indented width depth "end".toList :: next.lines width depth)

def height : SchemaTree → Nat
  | done => 0
  | blank next => 1 + next.height
  | uses _ next => 1 + next.height
  | aliasLine _ _ next => 1 + next.height
  | schema _ _ body next => 1 + (body.height + (1 + next.height))
  | module _ body next => 1 + (body.height + (1 + next.height))

end SchemaTree

/-- Modules one after the other, each with its lines. -/
abbrev SchemaFile := List (ModuleAlias × SchemaTree)

namespace SchemaFile

def lines (width : Nat) : SchemaFile → List SourceLine
  | [] => []
  | (name, body) :: modules =>
    indented width 0 (moduleCall name).text ::
      (body.lines width 1 ++ indented width 0 "end".toList :: lines width modules)

def source (width : Nat) (modules : SchemaFile) : List Char :=
  sourceText ((lines width modules).flatMap SourceLine.physical)

end SchemaFile

/-! ### Plain values -/

def SchemaBlock.IsPlain : SchemaBlock → Prop
  | done => True
  | blank next => next.IsPlain
  | field declared next => declared.options.IsPlain ∧ next.IsPlain
  | timestamps options _ next => options.IsPlain ∧ next.IsPlain
  | association _ declared next => declared.options.IsPlain ∧ next.IsPlain
  | embed _ declared body next => declared.options.IsPlain ∧ body.IsPlain ∧ next.IsPlain

def SchemaTree.IsPlain : SchemaTree → Prop
  | done => True
  | blank next => next.IsPlain
  | uses _ next => next.IsPlain
  | aliasLine _ _ next => next.IsPlain
  | schema _ _ body next => body.IsPlain ∧ next.IsPlain
  | module _ body next => body.IsPlain ∧ next.IsPlain

/-! ### Meaning -/

/-- The short names that an alias gives, each with its module in full. -/
def AliasDeclaration.names : AliasDeclaration → List (List Char × List Char)
  | plain target => [(Text.lastSegment target.1, target.1)]
  | named target name => [(name.1, target.1)]
  | group base names => names.map fun name => (Text.lastSegment name.1, base.1 ++ '.' :: name.1)

/-- The aliases of a file once those of a line have been added to those of its module. -/
def AliasDeclaration.added (declared : AliasDeclaration) (module : List Char) (table : AliasTable) :
    AliasTable :=
  declared.names.foldl (fun table (short, full) => table.add module short full) table

def FieldDeclaration.declared (declared : FieldDeclaration) : SchemaField :=
  { name := String.ofList declared.name.1
    type := String.ofList
      ((declared.type?.map fun type => type.atom?.getD type.text).getD "string".toList)
    default := (declared.options.value? "default").map fun value => String.ofList value.text }

def timestampsDeclared (options : SchemaOptions) : List SchemaField :=
  let type := ((options.value? "type").bind OptionValue.atom?).getD "naive_datetime".toList
  ["inserted_at", "updated_at"].map fun name => { name, type := String.ofList type }

/-- A module name in full, inside a module. -/
def WrittenTarget.expanded (table : AliasTable) (module : List Char) : WrittenTarget → List Char
  | .module name => table.expand module name.1
  | own inner? => module ++ (inner?.map fun name => '.' :: name.1).getD []

namespace AssociationDeclaration

variable (declared : AssociationDeclaration)

/-- The module that an association of a schema leads to. -/
def target (table : AliasTable) (module owner : List Char) : List Char :=
  match declared.target? with
  | some written => written.expanded table module
  | none => owner ++ '.' :: Text.camelCase declared.name.1

/-- The module of a schema that is embedded in a block of its own. -/
def blockTarget (owner : List Char) : List Char :=
  owner ++ '.' :: (declared.target?.map WrittenTarget.text).getD (Text.camelCase declared.name.1)

def associationTo (type : AssociationType) (target : List Char) : Association :=
  { fieldName := String.ofList declared.name.1, targetModule := String.ofList target, type }

/-- The field that holds the key of the schema that one belongs to. -/
def foreignKey : SchemaField :=
  { name := String.ofList (((declared.options.value? "foreign_key").bind OptionValue.atom?).getD
      (declared.name.1 ++ "_id".toList))
    type := String.ofList (((declared.options.value? "type").bind OptionValue.atom?).getD "id".toList) }

end AssociationDeclaration

namespace SchemaBlock

/-- The fields of the schema itself. -/
def fields : SchemaBlock → List SchemaField
  | done => []
  | blank next => next.fields
  | field declared next => declared.declared :: next.fields
  | timestamps options _ next => timestampsDeclared options ++ next.fields
  | association type declared next =>
    if type = .belongsTo then declared.foreignKey :: next.fields else next.fields
  | embed _ _ _ next => next.fields

section

variable (table : AliasTable) (module : List Char)

def associations (owner : List Char) : SchemaBlock → List Association
  | done => []
  | blank next => next.associations owner
  | field _ next => next.associations owner
  | timestamps _ _ next => next.associations owner
  | association type declared next =>
    declared.associationTo type (declared.target table module owner) :: next.associations owner
  | embed many declared _ next =>
    declared.associationTo (embedType many) (declared.blockTarget owner) :: next.associations owner

/-- The schema of a block that begins in a line. -/
def info (file : Path) (owner : List Char) (table? : Option (List Char)) (line : Nat)
    (block : SchemaBlock) : SchemaInfo :=
  { moduleName := String.ofList owner
    tableName := table?.map String.ofList
    filePath := file
    line
    fields := block.fields
    associations := block.associations table module owner }

/-- The schemas embedded in blocks of their own, in a block whose lines begin with the given one. -/
def embedded (file : Path) : List Char → Nat → SchemaBlock → List SchemaInfo
  | _, _, done => []
  | owner, line, blank next => next.embedded file owner (line + 1)
  | owner, line, field _ next => next.embedded file owner (line + 1)
  | owner, line, timestamps _ _ next => next.embedded file owner (line + 1)
  | owner, line, association _ _ next => next.embedded file owner (line + 1)
  | owner, line, embed _ declared body next =>
    let target := declared.blockTarget owner
    body.info table module file target none line ::
      (body.embedded file target (line + 1) ++
        next.embedded file owner (line + (1 + (body.height + 1))))

end

end SchemaBlock

namespace SchemaTree

/-- The aliases behind a module, all modules of a file in one table. -/
def aliases (module : List Char) : SchemaTree → AliasTable → AliasTable
  | done, table => table
  | blank next, table => next.aliases module table
  | uses _ next, table => next.aliases module table
  | aliasLine declared _ next, table => next.aliases module (declared.added module table)
  | schema _ _ _ next, table => next.aliases module table
  | .module name body next, table =>
    next.aliases module (body.aliases (module ++ '.' :: name.1) table)

/-- The schemas of a module in the order of their lines, the first of which is given. -/
def schemas (file : Path) (module : List Char) : SchemaTree → AliasTable → Nat → List SchemaInfo
  | done, _, _ => []
  | blank next, table, line => next.schemas file module table (line + 1)
  | uses _ next, table, line => next.schemas file module table (line + 1)
  | aliasLine declared _ next, table, line =>
    next.schemas file module (declared.added module table) (line + 1)
  | schema table? _ body next, table, line =>
    body.info table module file module (table?.map StringLiteral.value) line ::
      (body.embedded table module file module (line + 1) ++
        next.schemas file module table (line + (1 + (body.height + 1))))
  | .module name body next, table, line =>
    let inner := module ++ '.' :: name.1
    body.schemas file inner table (line + 1) ++
      next.schemas file module (body.aliases inner table) (line + (1 + (body.height + 1)))

end SchemaTree

/-- The schemas of modules in the order of their lines. -/
def SchemaFile.schemas (file : Path) : SchemaFile → AliasTable → Nat → List SchemaInfo
  | [], _, _ => []
  | (name, body) :: modules, table, line =>
    body.schemas file name.1 table (line + 1) ++
      schemas file modules (body.aliases name.1 table) (line + (1 + (body.height + 1)))

end PhoenixLens.Elixir
