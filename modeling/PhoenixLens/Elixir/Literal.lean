import PhoenixLens.Elixir.Lexical

/-!
# Calls and their arguments

A call is written with its arguments in parentheses or after a space, with or without a `do` at
the end. Commas separate arguments where they stand outside of strings and brackets.

Atoms, strings, lists of names and module names as arguments, and arguments of the form
`key: value`.
-/

namespace PhoenixLens.Elixir

def dropClosing (cs : List Char) : List Char := Text.dropEndWhile (· == ')') cs

/-- The text without a `do` at the end and the comma before it. -/
def stripTrailingDo (text : List Char) : List Char :=
  let trimmed := Text.trimEnd text
  match Text.stripSuffix? "do" trimmed with
  | some head =>
    if head.isEmpty || [' ', ')', ','].any (head.getLast? == some ·) then
      Text.trimEnd (Text.dropEndWhile (· == ',') (Text.trimEnd head))
    else trimmed
  | none => trimmed

/-- The text before the bracket that closes one opened just before the text, if it is closed. -/
def beforeClosing? (cs : List Char) : Option (List Char) :=
  go .code 0 cs
where
  /-- Continues with the given number of brackets opened since. -/
  go : Quoting → Nat → List Char → Option (List Char)
    | _, _, [] => none
    | .code, depth, c :: cs =>
      if isOpening c then (go .code (depth + 1) cs).map (c :: ·)
      else if isClosing c then
        match depth with
        | 0 => some []
        | depth + 1 => (go .code depth cs).map (c :: ·)
      else (go (Quoting.code.step c) depth cs).map (c :: ·)
    | state, depth, c :: cs => (go (state.step c) depth cs).map (c :: ·)

/-- The arguments of a call of `name` that the text begins with. -/
def callArguments? (text : List Char) (name : String) : Option (List Char) := do
  let rest ← Text.stripPrefix? name (Text.trimStart text)
  if !(rest.isEmpty || rest.head? == some ' ' || rest.head? == some '(') then failure
  let arguments := stripTrailingDo (Text.trim rest)
  match Text.stripPrefix? "(" arguments with
  | some inner => return Text.trim ((beforeClosing? inner).getD (dropClosing inner))
  | none => return arguments

/-- The pieces between the commas that stand outside of strings and brackets. -/
def splitAtCommas (cs : List Char) : List (List Char) :=
  go .code 0 [] cs
where
  /-- Continues a piece of which `seen` has been read, last character first. -/
  go : Quoting → Int → List Char → List Char → List (List Char)
    | _, _, seen, [] => [seen.reverse]
    | .code, depth, seen, c :: cs =>
      if c == ',' && depth == 0 then seen.reverse :: go .code 0 [] cs
      else go (Quoting.code.step c) (depth + bracketStep c) (c :: seen) cs
    | state, depth, seen, c :: cs => go (state.step c) depth (c :: seen) cs

/-- The arguments of a list of arguments, trimmed, without empty ones. -/
def splitArguments (cs : List Char) : List (List Char) :=
  ((splitAtCommas cs).map Text.trim).filter (!·.isEmpty)

/-! ### Literals and keywords -/

def cutAtColon? (cs : List Char) : Option (List Char × List Char) := Text.cutAt? [':'] cs

def isKeyChar (c : Char) : Bool := Text.isLetterOrNumber c || c == '_' || c == '?'

/-- An argument `key: value` as its two parts. -/
def parseKeyword? (argument : List Char) : Option (List Char × List Char) := do
  let (key, rest) ← cutAtColon? argument
  if key.isEmpty || !key.all isKeyChar then failure
  if !(rest.isEmpty || rest.head? == some ' ') then failure
  return (key, Text.trim rest)

/-- The keyword list between square brackets that an argument is. -/
def keywordListBody? (argument : List Char) : Option (List Char) := do
  let inner ← Text.stripSuffix? "]" (← Text.stripPrefix? "[" argument)
  if (parseKeyword? (Text.trim inner)).isSome then some inner else none

/-- The keys and values among the arguments; a keyword list counts as the keywords in it. -/
def keywordArguments (arguments : List (List Char)) : List (List Char × List Char) :=
  arguments.flatMap fun argument =>
    match keywordListBody? argument with
    | some inner => (splitArguments inner).filterMap parseKeyword?
    | none => (parseKeyword? argument).toList

def beginsKeywordList (argument : List Char) : Bool :=
  (Text.stripPrefix? "[" argument).any fun inner => (parseKeyword? (Text.trim inner)).isSome

/-- The arguments before the first keyword. -/
def positionalArguments (arguments : List (List Char)) : List (List Char) :=
  arguments.takeWhile fun a => (parseKeyword? a).isNone && !beginsKeywordList a

/-- The value of the first keyword with the given key. -/
def keyword? (keywords : List (List Char × List Char)) (key : String) : Option (List Char) :=
  keywords.lookup key.toList

/-- What stands between two quotes that a text begins and ends with. -/
def unquote? (quote : String) (text : List Char) : Option (List Char) :=
  Text.stripPrefix? quote text >>= Text.stripSuffix? quote

/-- The contents of a string literal; only double quotes are unescaped. -/
def parseString? (text : List Char) : Option (List Char) :=
  let trimmed := Text.trim text
  ((unquote? "\"" trimmed).or (unquote? "'" trimmed)).map (Text.replaceAll ['\\', '"'] ['"'] 0)

def isAtomChar (c : Char) : Bool := isKeyChar c || c == '!' || c == '*'

/-- The name of an atom literal, quoted or not. -/
def parseAtom? (text : List Char) : Option (List Char) := do
  let rest ← Text.stripPrefix? ":" (Text.trim text)
  match parseString? rest with
  | some quoted => return quoted
  | none => if rest.isEmpty || !rest.all isAtomChar then failure else return rest

/-- The name that an atom or a string literal stands for. -/
def parseName? (text : List Char) : Option (List Char) :=
  (parseAtom? text).or (parseString? text)

/-- What stands between the first and the last character, if both are ASCII. -/
def betweenEnds (cs : List Char) : List Char :=
  match cs with
  | opening :: rest =>
    if opening.utf8Size == 1 && rest.getLast?.any (·.utf8Size == 1) then rest.dropLast else []
  | [] => []

/-- The names in a word list, in a list of atoms and strings, or in one of these alone. -/
def parseNames (text : List Char) : List (List Char) :=
  let trimmed := Text.trim text
  match Text.stripPrefix? "~w" trimmed with
  | some rest => Text.words (betweenEnds (Text.dropEndWhile Text.isAsciiLetter rest))
  | none =>
    match Text.stripPrefix? "[" trimmed >>= Text.stripSuffix? "]" with
    | some inner => (splitArguments inner).filterMap parseName?
    | none => (parseName? trimmed).toList

/-- The text is a dotted name of capitalised parts. -/
def isModuleName (text : List Char) : Bool :=
  let trimmed := Text.trim text
  !trimmed.isEmpty && (Text.splitAt '.' trimmed).all fun part =>
    part.head?.any Text.isAsciiUpper && part.all startsWord

end PhoenixLens.Elixir
