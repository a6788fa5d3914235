import PhoenixLens.Elixir.Lexical

/-!
# Logical lines and blocks

A declaration may run over several physical lines. A line that ends in a comma or a pipe, or that
leaves a bracket open, goes on in the next one; a heredoc takes the lines up to its closing
delimiter out of the text and leaves an empty string there. The physical lines are taken up one by
one, with the unfinished logical line and the unfinished heredoc between them.

Blocks open with `do` at the end of a line and with `fn`, and close with `end`. `BlockTracker`
counts the open ones from line to line and knows the module that a line stands in.
-/

namespace PhoenixLens.Elixir

/-- One or more physical lines that are read as one. -/
structure LogicalLine where
  /-- The number of its first physical line, counted from one. -/
  line : Nat
  text : List Char
  /-- The body of its first heredoc. -/
  heredoc : Option (List Char) := none
deriving DecidableEq, Repr

/-- The greatest number of lines that one line may be continued by. -/
def maxContinuations : Nat := 40

/-- The line goes on in the next one. -/
def needsContinuation (text : List Char) : Bool :=
  let code := codeOf text
  let trimmed := Text.trimEnd code
  Text.endsWith "," trimmed || Text.endsWith "|>" trimmed || bracketDepth code > 0

/-! ### Heredocs -/

/-- The quotes that a heredoc stands between. -/
def heredocDelimiters : List (List Char) := [['"', '"', '"'], ['\'', '\'', '\'']]

/-- A text ends inside a double-quoted string; a comment ends outside of one. -/
def endsInString (cs : List Char) : Bool :=
  go false false cs
where
  /-- Continues inside or outside of a string, perhaps after a backslash. -/
  go (inside escaped : Bool) : List Char → Bool
    | [] => inside
    | c :: cs =>
      if escaped then go inside false cs
      else if c == '\\' && inside then go inside true cs
      else if c == '"' then go (!inside) false cs
      else if c == '#' && !inside then false
      else go inside false cs

/-- The text before a heredoc that opens at the end of the line, and its delimiter. -/
def heredocOpening? (line : List Char) : Option (List Char × List Char) :=
  heredocDelimiters.findSome? fun delimiter =>
    match Text.cutAt? delimiter line with
    | some (before, after) =>
      if Text.allBlank after && !endsInString before then some (before, delimiter) else none
    | none => none

/-- The number of blank characters that a line begins with. -/
def indentation (line : List Char) : Nat := (line.takeWhile Text.isBlank).length

/-- The lines of a heredoc without their common indentation, joined, without blanks at the end. -/
def dedent (lines : List (List Char)) : List Char :=
  let indent := (((lines.filter fun l => !Text.allBlank l).map indentation).min?).getD 0
  Text.trimEnd (Text.join ['\n'] (lines.map fun l => l.drop (min indent (indentation l))))

/-! ### Joining -/

/-- A logical line that may go on, and the number of lines it has been continued by. -/
structure Draft extends LogicalLine where
  continuations : Nat := 0
deriving DecidableEq, Repr

/-- A heredoc that waits for its closing delimiter. -/
structure OpenHeredoc where
  /-- The physical line that it opens in, and the text before it there. -/
  line : Nat
  before : List Char
  delimiter : List Char
  /-- The lines read so far, last first. -/
  body : List (List Char) := []
deriving DecidableEq, Repr

/-- What is unfinished between two physical lines. -/
structure Joining where
  draft : Option Draft := none
  heredoc : Option OpenHeredoc := none
deriving DecidableEq, Repr

/-- Appends a further line to a draft, or begins one with it. -/
def extend (draft : Option Draft) (line : Nat) (text : List Char) (heredoc : Option (List Char)) :
    Draft :=
  match draft with
  | none => { line, text, heredoc }
  | some d =>
    { d with
      text := d.text ++ ' ' :: Text.trim text
      heredoc := d.heredoc.or heredoc
      continuations := d.continuations + 1 }

/-- Keeps a draft that goes on, and gives out one that is finished. -/
def settle (draft : Draft) : Joining × List LogicalLine :=
  if needsContinuation draft.text && draft.continuations < maxContinuations then
    ({ draft := some draft }, [])
  else ({}, [draft.toLogicalLine])

/-- The line that a heredoc leaves behind, with what follows its closing delimiter. -/
def closeHeredoc (draft : Option Draft) (h : OpenHeredoc) (rest : List Char) : Draft :=
  extend draft h.line (h.before ++ '"' :: '"' :: rest) (some (dedent h.body.reverse))

/-- Takes up the physical line with the given number. -/
def takeLine (state : Joining) (number : Nat) (line : List Char) : Joining × List LogicalLine :=
  match state.heredoc with
  | some h =>
    match h.delimiter.isPrefixOf? (Text.trimStart line) with
    | some rest => settle (closeHeredoc state.draft h rest)
    | none => ({ state with heredoc := some { h with body := line :: h.body } }, [])
  | none =>
    match heredocOpening? line with
    | some (before, delimiter) =>
      ({ state with heredoc := some { line := number, before, delimiter } }, [])
    | none => settle (extend state.draft number line none)

def finish (state : Joining) : List LogicalLine :=
  match state.heredoc with
  | some h => [(closeHeredoc state.draft h []).toLogicalLine]
  | none => (state.draft.map Draft.toLogicalLine).toList

/-- The logical lines of physical lines, of which the first has the given number. -/
def joinLines (state : Joining) (number : Nat) : List (List Char) → List LogicalLine
  | [] => finish state
  | line :: lines =>
    let (state, finished) := takeLine state number line
    finished ++ joinLines state (number + 1) lines

def logicalLines (source : List Char) : List LogicalLine := joinLines {} 1 (Text.lines source)

/-! ### Blocks -/

/-- The blocks that a line opens and closes. Keywords count as such only where they are neither
atoms, nor keys, nor called on something. -/
def blockDelta (text : List Char) : Nat × Nat :=
  let code := codeOf text
  let keywords := words code |>.map fun w =>
    if w.before == some ':' || w.before == some '.' || w.after == some ':' then [] else w.text
  let opensLast := keywords.getLast? == some ['d', 'o'] && Text.endsWith "do" (Text.trimEnd code)
  (keywords.count ['f', 'n'] + opensLast.toNat, keywords.count ['e', 'n', 'd'])

def opensDoBlock (text : List Char) : Bool :=
  let code := Text.trimEnd (codeOf text)
  code == ['d', 'o'] || [" do", ")do", ",do"].any fun ending => Text.endsWith ending code

/-- What may follow the last word of a line: blanks and a comment. -/
def isLineEnd (cs : List Char) : Bool :=
  match Text.trimStart cs with
  | [] => true
  | c :: comment => c == '#' && !comment.contains '\n'

/-- The name in a line that begins a module. -/
def moduleOpening? (text : List Char) : Option (List Char) := do
  let cs ← afterBlanks? (← Text.stripPrefix? "defmodule" (Text.trimStart text))
  let isNameChar := fun c => Text.isWord c || c == '.'
  let name := cs.takeWhile isNameChar
  let rest ← Text.stripPrefix? "do" (← afterBlanks? (cs.dropWhile isNameChar))
  if name.head?.any Text.isAsciiUpper && isLineEnd rest then some name else none

/-- A module that is still open, and the blocks that were open before it. -/
structure OpenModule where
  name : List Char
  outerDepth : Nat
deriving DecidableEq, Repr

/-- The open blocks, and the open modules with the innermost first. -/
structure BlockTracker where
  depth : Nat := 0
  modules : List OpenModule := []
deriving DecidableEq, Repr

namespace BlockTracker

/-- The full name of the innermost open module. -/
def currentModule? (tracker : BlockTracker) : Option (List Char) :=
  tracker.modules.head?.map OpenModule.name

/-- The full name of the module that a line begins. -/
def opened? (tracker : BlockTracker) (text : List Char) : Option (List Char) :=
  (moduleOpening? text).map fun name =>
    match tracker.currentModule? with
    | some outer => outer ++ '.' :: name
    | none => name

def advance (tracker : BlockTracker) (text : List Char) : BlockTracker :=
  let opened := (tracker.opened? text).toList.map fun name => ⟨name, tracker.depth⟩
  let (opens, closes) := blockDelta text
  let depth := tracker.depth + opens - closes
  { depth, modules := (opened ++ tracker.modules).dropWhile fun m => depth ≤ m.outerDepth }

end BlockTracker

end PhoenixLens.Elixir
