import PhoenixLens.Elixir.Literal
import PhoenixLens.Elixir.LogicalLine

/-!
# Definitions, their documentation, and calls inside a line

The head of a function definition with its arguments, and the calls of a function anywhere in a
line.

A `@doc` line documents the definition that follows it.
-/

namespace PhoenixLens.Elixir

/-- The head of a definition up to the opening parenthesis. -/
structure DefinitionHead where
  isPrivate : Bool
  name : List Char
  /-- What follows the opening parenthesis. -/
  rest : List Char
deriving DecidableEq, Repr

def definitionHead? (text : List Char) : Option DefinitionHead := do
  let behind ← Text.stripPrefix? "def" (Text.trimStart text)
  let isPrivate := behind.head? == some 'p'
  let cs ← afterBlanks? (if isPrivate then behind.tail else behind)
  let identifier ← identifier? cs
  let name := withMark identifier (cs.drop identifier.length)
  return { isPrivate, name, rest := ← Text.stripPrefix? "(" (cs.drop name.length) }

namespace DefinitionHead

/-- The arguments, if the parenthesis is closed in the line. -/
def arguments? (head : DefinitionHead) : Option (List (List Char)) :=
  (beforeClosing? head.rest).map splitArguments

end DefinitionHead

/-- The arguments of the calls of `name` in a text, in order. A call that is not closed does not
count. -/
def callsOf (name : String) (text : List Char) : List (List (List Char)) :=
  go none text
where
  /-- Continues after the character `previous`. -/
  go (previous : Option Char) : List Char → List (List (List Char))
    | [] => []
    | c :: cs =>
      let inner :=
        if previous.any Text.isWord then none
        else Text.stripPrefix? name (c :: cs) >>= Text.stripPrefix? "(" >>= beforeClosing?
      (inner.map splitArguments).toList ++ go (some c) cs

/-! ### Documentation -/

/-- The documentation in a `@doc` line: `none` for other lines, `some none` where it is switched
off or not readable. -/
def docOf? (line : LogicalLine) : Option (Option (List Char)) :=
  (Text.stripPrefix? "@doc" (Text.trimStart line.text)).map fun rest =>
    if Text.trim rest == "false".toList then none
    else line.heredoc.or (parseString? (Text.trim rest))

/-- The documentation that waits for its definition. -/
structure PendingDoc where
  doc : Option (List Char) := none
deriving DecidableEq, Repr

/-- The state after a `@doc` line; `none` for other lines. -/
def PendingDoc.observe? (_pending : PendingDoc) (line : LogicalLine) : Option PendingDoc :=
  (docOf? line).map PendingDoc.mk

end PhoenixLens.Elixir
