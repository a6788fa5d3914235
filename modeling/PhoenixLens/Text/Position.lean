import PhoenixLens.Text.Basic

/-!
# Positions in a text

Editors point into a text by line and column, where a column counts 16-bit units; scanners point
by byte offset. A column beyond the end of its line means the end of the line, and an offset inside
a character means the start of that character.
-/

namespace PhoenixLens.Text

/-- A place in a text: zero-based line and column in 16-bit units. -/
structure Position where
  line : Nat
  character : Nat
deriving DecidableEq, Repr

/-- A stretch of text between two positions. -/
structure Range where
  start : Position
  stop : Position
deriving DecidableEq, Repr

/-- The number of 16-bit units of a character. -/
def unitsOf (c : Char) : Nat := if c.toNat < 0x10000 then 1 else 2

/-- The number of 16-bit units of a text. -/
def units : List Char → Nat
  | [] => 0
  | c :: cs => unitsOf c + units cs

/-- The part of a text after its last line feed. -/
def lastLine (cs : List Char) : List Char := (cs.reverse.takeWhile (· != '\n')).reverse

/-- The position that follows a text. -/
def endPosition (before : List Char) : Position :=
  ⟨before.count '\n', units (lastLine before)⟩

/-- The position of a byte offset; offsets beyond the end mean the end. -/
def positionOfOffset (cs : List Char) (offset : Nat) : Position :=
  endPosition (takeBytes offset cs)

/-- The byte offset of a column in the line that `cs` begins with. -/
def offsetOfColumn : Nat → List Char → Nat
  | 0, _ => 0
  | _ + 1, [] => 0
  | n + 1, c :: cs => if c == '\n' then 0 else c.utf8Size + offsetOfColumn (n + 1 - unitsOf c) cs

/-- The byte offset of a position; a line beyond the last one means the end of the text. -/
def offsetOfPosition (cs : List Char) (position : Position) : Nat :=
  go position.line cs
where
  /-- Skips the given number of lines, then measures the column. -/
  go : Nat → List Char → Nat
    | 0, cs => offsetOfColumn position.character cs
    | _ + 1, [] => 0
    | line + 1, c :: cs => c.utf8Size + go (if c == '\n' then line else line + 1) cs

/-- The stretch between two byte offsets. -/
def rangeOfOffsets (cs : List Char) (start stop : Nat) : Range :=
  ⟨positionOfOffset cs start, positionOfOffset cs stop⟩

/-- The empty stretch at the beginning of a line that is counted from one. -/
def rangeOfLine (line : Nat) : Range := ⟨⟨line - 1, 0⟩, ⟨line - 1, 0⟩⟩

/-- The greatest offset up to the given one at which a character begins or the text ends. -/
def floorOffset (cs : List Char) (offset : Nat) : Nat := byteLength (takeBytes offset cs)

/-- The first offset from the given one on at which a character begins or the text ends. -/
def ceilOffset (cs : List Char) (offset : Nat) : Nat :=
  byteLength cs - byteLength (dropBytes offset cs)

example : positionOfOffset "a\nbé😀c".toList 9 = ⟨1, 4⟩ := by decide
example : offsetOfPosition "a\nbé😀c".toList ⟨1, 4⟩ = 9 := by decide

end PhoenixLens.Text
