import PhoenixLens.Text.Basic

/-!
# Quotes, comments and brackets

What every reader of Elixir source has to know of a character: whether it stands in a string,
opens a comment, or opens or closes a bracket. `Quoting` is the state between two characters, and
all readers of code share its steps.
-/

namespace PhoenixLens.Elixir

/-- Whether the next character stands in a string. -/
inductive Quoting where
  | code
  /-- Inside a string that the given quote closes; `escaped` after a backslash. -/
  | quoted (quote : Char) (escaped : Bool)
deriving DecidableEq, Repr

def isQuote (c : Char) : Bool := c == '"' || c == '\''

namespace Quoting

def step : Quoting → Char → Quoting
  | code, c => if isQuote c then quoted c false else code
  | quoted q true, _ => quoted q false
  | quoted q false, c =>
    if c == '\\' then quoted q true else if c == q then code else quoted q false

def isCode : Quoting → Bool
  | code => true
  | quoted _ _ => false

end Quoting

/-- The code of a line: strings keep their quotes and lose what is between them, and a comment
ends the line. -/
def codeOf (cs : List Char) : List Char :=
  go .code cs
where
  go : Quoting → List Char → List Char
    | _, [] => []
    | .code, c :: cs => if c == '#' then [] else c :: go (Quoting.code.step c) cs
    | state, c :: cs =>
      let next := state.step c
      if next.isCode then c :: go next cs else go next cs

def isOpening (c : Char) : Bool := c == '(' || c == '[' || c == '{'

def isClosing (c : Char) : Bool := c == ')' || c == ']' || c == '}'

/-- What a character adds to the number of open brackets. -/
def bracketStep (c : Char) : Int := if isOpening c then 1 else if isClosing c then -1 else 0

/-- Opening brackets less closing ones. -/
def bracketDepth : List Char → Int
  | [] => 0
  | c :: cs => bracketStep c + bracketDepth cs

/-- A word of code with the characters on both sides of it. -/
structure Word where
  text : List Char
  before : Option Char
  after : Option Char
deriving DecidableEq, Repr

def startsWord (c : Char) : Bool := Text.isLetterOrNumber c || c == '_'

def continuesWord (c : Char) : Bool := startsWord c || c == '?' || c == '!'

/-- The words of code: maximal runs that begin with a letter, a digit or an underscore. -/
def words (cs : List Char) : List Word :=
  go none none cs
where
  /-- Continues after the character `previous`; an unfinished word is kept with the character
  before it, last character first. -/
  go (previous : Option Char) (word : Option (Option Char × List Char)) : List Char → List Word
    | [] =>
      match word with
      | some (before, seen) => [⟨seen.reverse, before, none⟩]
      | none => []
    | c :: cs =>
      match word with
      | some (before, seen) =>
        if continuesWord c then go (some c) (some (before, c :: seen)) cs
        else ⟨seen.reverse, before, some c⟩ :: go (some c) none cs
      | none =>
        if startsWord c then go (some c) (some (previous, [c])) cs else go (some c) none cs

def identifier? (cs : List Char) : Option (List Char) :=
  match cs with
  | [] => none
  | c :: rest =>
    if Text.startsIdentifier c then some (c :: rest.takeWhile Text.isAsciiWord) else none

/-- A name and the question or exclamation mark that may end it. -/
def withMark (name rest : List Char) : List Char :=
  match rest with
  | '?' :: _ => name ++ ['?']
  | '!' :: _ => name ++ ['!']
  | _ => name

def afterBlanks? (cs : List Char) : Option (List Char) :=
  match cs with
  | c :: rest => if Text.isBlank c then some (Text.trimStart rest) else none
  | [] => none

example : codeOf "a(\"x\\\"(#\") # b".toList = "a(\"\") ".toList := by decide

end PhoenixLens.Elixir
