import PhoenixLens.Components.Builtin
import PhoenixLens.Elixir.Lexical
import PhoenixLens.Text.Basic
import PhoenixLens.Text.Casing

/-!
# Headers of modules

What the `use`, `import` and `alias` lines of a source text bring in: the modules whose components
can be called by name alone, and short names for modules.
-/

namespace PhoenixLens.Elixir

open Text (Recognizer takeSome? stripPrefix? trimStart)

/-- Imported modules in order, and short names, the latest first. -/
structure ModuleHeader where
  imports : List (List Char) := []
  aliases : List (List Char × List Char) := []
deriving DecidableEq, Repr

namespace ModuleHeader

def expand (header : ModuleHeader) (moduleName : List Char) : List Char :=
  let head := moduleName.takeWhile (· != '.')
  match header.aliases.lookup head with
  | some full => full ++ moduleName.drop head.length
  | none => moduleName

def isModuleChar (c : Char) : Bool := Text.isWord c || c == '.'

/-- The keyword that a line begins with, perhaps behind empty lines; gives what follows the blanks
behind it. -/
def afterKeyword? (keyword : String) (cs : List Char) : Option (List Char) :=
  stripPrefix? keyword (trimStart cs) >>= afterBlanks?

/-- A name of a module, dots at its end included. -/
def moduleName? (cs : List Char) : Option (List Char × List Char) :=
  if cs.head?.any Text.isAsciiUpper then takeSome? isModuleChar cs else none

/-- The roles in which a module of the web layer can be used. -/
def webRoles : List String := ["html", "live_view", "live_component", "component"]

/-- Reads `use MyAppWeb, :html`. -/
def webUse? (cs : List Char) : Option (List Char × List Char) := do
  let (name, rest) ← moduleName? (← afterKeyword? "use" cs)
  let rest ← stripPrefix? "," (trimStart rest)
  let (role, rest) ← takeSome? Text.isWord (← stripPrefix? ":" (trimStart rest))
  if webRoles.contains (String.ofList role) then return (name, rest) else failure

/-- Reads `use Phoenix.Component` and its like. -/
def frameworkUse? (cs : List Char) : Option (List Char × List Char) := do
  let (name, rest) ←
    takeSome? Text.isWord (← stripPrefix? "Phoenix." (← afterKeyword? "use" cs))
  if ["Component", "LiveView", "LiveComponent"].contains (String.ofList name) then
    return (name, rest)
  else failure

def import? (cs : List Char) : Option (List Char × List Char) :=
  afterKeyword? "import" cs >>= moduleName?

/-! ### Aliases -/

/-- An alias: the module, and the names in braces or the name given to it. -/
structure AliasLine where
  base : List Char
  group : Option (List Char) := none
  name : Option (List Char) := none
deriving DecidableEq, Repr

/-- What follows the blanks in which a line ends; they may reach over several lines, and the last
line feed among them stays. -/
def lineEnd? (cs : List Char) : Option (List Char) :=
  let blanks := cs.takeWhile Text.isBlank
  let rest := cs.dropWhile Text.isBlank
  if rest.isEmpty then some []
  else if blanks.contains '\n' then
    some ('\n' :: (blanks.reverse.takeWhile (· != '\n')).reverse ++ rest)
  else none

def givenName? (cs : List Char) : Option (List Char × List Char) := do
  let rest ← stripPrefix? "," (trimStart cs)
  let rest ← stripPrefix? "as:" (trimStart rest)
  if (trimStart rest).head?.any Text.isAsciiUpper then takeSome? Text.isWord (trimStart rest)
  else failure

/-- Completes an alias whose module and group have been read. -/
def aliasEnd? (base : List Char) (group : Option (List Char)) (cs : List Char) :
    Option (AliasLine × List Char) :=
  let named := do
    let (name, rest) ← givenName? cs
    return ({ base, group, name := some name : AliasLine }, ← lineEnd? rest)
  named.or ((lineEnd? cs).map fun rest => ({ base, group }, rest))

/-- The names in braces behind a module and its dot. -/
def group? (cs : List Char) : Option (List Char × List Char) :=
  match cs with
  | '{' :: inner =>
    match inner.dropWhile (· != '}') with
    | _ :: rest => some (inner.takeWhile (· != '}'), rest)
    | [] => none
  | _ => none

def alias? (cs : List Char) : Option (AliasLine × List Char) := do
  let (name, rest) ← moduleName? (← afterKeyword? "alias" cs)
  if name.getLast? == some '.' && rest.head? == some '{' then
    let (group, rest) ← group? rest
    aliasEnd? name.dropLast (some group) rest
  else aliasEnd? name none rest

/-- The short names that an alias gives, with the modules in full. -/
def namesOfAlias (line : AliasLine) : List (List Char × List Char) :=
  match line.group, line.name with
  | some group, _ =>
    (((Text.splitAt ',' group).map Text.trim).filter (!·.isEmpty)).map fun name =>
      (Text.lastSegment name, line.base ++ '.' :: name)
  | none, some name => [(name, line.base)]
  | none, none => [(Text.lastSegment line.base, line.base)]

def parse (source : List Char) : ModuleHeader :=
  let matchesOf := fun {α : Type} (read : List Char → Option (α × List Char)) =>
    Text.matchesIn (Text.atLineStart read) source
  let aliases := (matchesOf alias?).flatMap namesOfAlias
  let named : ModuleHeader := { aliases := aliases.reverse }
  let web := (matchesOf webUse?).map fun name => name ++ ".CoreComponents".toList
  let framework :=
    if (matchesOf frameworkUse?).isEmpty then [] else [builtinModule.toList]
  let imports := (matchesOf import?).foldl
    (fun imports name =>
      let full := named.expand name
      if imports.contains full then imports else imports ++ [full])
    (web ++ framework)
  { named with imports }

end ModuleHeader

end PhoenixLens.Elixir
