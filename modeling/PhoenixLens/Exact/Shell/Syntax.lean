import PhoenixLens.Text.Utf8

/-!
# The syntax of scripts

A script is read as bytes: its text, and all texts that it handles, hold one character for each
byte. Words are kept with the parts that are to be expanded; what stands in brackets inside a word
is read when it is expanded.
-/

namespace PhoenixLens.Shell

/-- The text with one character for each byte of `s`. -/
def byteText (s : String) : List Char :=
  (Text.toBytes s.toList).map fun byte => Char.ofNat byte.toNat

/-- The bytes that a text has characters for. -/
def bytesOf (cs : List Char) : List UInt8 := cs.map fun c => UInt8.ofNat c.toNat

def plainText (cs : List Char) : String := String.ofList (Text.ofBytes (bytesOf cs))

/-- A character of a script and the line on which it stands. -/
structure Mark where
  char : Char
  line : Nat
deriving DecidableEq, Repr

/-- The characters of a text, the first of them on a line. -/
def marksFrom (line : Nat) : List Char → List Mark
  | [] => []
  | c :: cs => ⟨c, line⟩ :: marksFrom (if c == '\n' then line + 1 else line) cs

def textOf (marks : List Mark) : List Char := marks.map (·.char)

/-- A part of a word, and whether it stands in quotes. -/
inductive Part where
  | literal (text : List Char) (quoted : Bool)
  /-- The value of a variable or of an argument, perhaps changed: what stands in `$\{ }`. -/
  | parameter (text : List Mark) (quoted : Bool)
  /-- What commands write. -/
  | output (script : List Mark) (quoted : Bool)
  | number (text : List Mark) (quoted : Bool)
deriving Repr

abbrev Word := List Part

/-- How the channels of a command are changed. -/
inductive Opening where
  | read
  | write
  | append
  | duplicate
  /-- The word itself is what can be read. -/
  | text
deriving DecidableEq, Repr

/-- A change of the channels 0 for input, 1 for output and 2 for messages. -/
structure Redirection where
  channels : List Nat
  opening : Opening
  word : Word
deriving Repr

inductive Command where
  | simple (line : Nat) (words : List Word) (redirections : List Redirection)
  /-- Commands each of which reads what the one before writes. -/
  | pipeline (negated : Bool) (stages : List Command)
  | andThen (first second : Command)
  | orElse (first second : Command)
  | sequence (commands : List Command)
  | choose (condition body otherwise : Command)
  /-- Goes on while the condition succeeds, or until it does, with a step behind the body. -/
  | loop (goal : Bool) (condition body step : Command)
  | each (name : List Char) (words : Option (List Word)) (body : Command)
  | select (word : Word) (branches : List (List Word × Command))
  /-- Commands in a shell of their own. -/
  | apart (body : Command)
  | define (name : List Char) (body : Command)
  /-- A condition between double brackets. -/
  | test (line : Nat) (words : List Word)
  /-- An expression that succeeds unless it is zero. -/
  | evaluate (line : Nat) (text : List Mark)
  | redirected (body : Command) (redirections : List Redirection)
deriving Inhabited

/-- Why a script cannot be read. -/
inductive Problem where
  | unexpected (token : List Char) (line : Nat)
  | unclosed (quote : Char) (line : Nat)
  | ended
deriving Repr

end PhoenixLens.Shell
