import PhoenixLens.Text.LetterTable
import PhoenixLens.Text.CaseTable

/-!
# Character classes

The classes of characters that source text and templates are read by. ASCII is decided by
comparison; beyond ASCII the answer comes from the Unicode tables.
-/

namespace PhoenixLens.Text

/-- White space as Unicode defines it: 25 characters, full-width space among them. -/
def isBlank (c : Char) : Bool :=
  let n := c.toNat
  n == 0x20 || (0x9 ≤ n && n ≤ 0xD) || n == 0x85 || n == 0xA0 || n == 0x1680 ||
    (0x2000 ≤ n && n ≤ 0x200A) || n == 0x2028 || n == 0x2029 || n == 0x202F || n == 0x205F ||
    n == 0x3000

/-- White space inside a tag: space, tab, line feed, form feed and carriage return. -/
def isTagBlank (c : Char) : Bool :=
  c == ' ' || c == '\t' || c == '\n' || c == '\x0c' || c == '\r'

def isAsciiLower (c : Char) : Bool := 'a' ≤ c && c ≤ 'z'

def isAsciiUpper (c : Char) : Bool := 'A' ≤ c && c ≤ 'Z'

def isAsciiDigit (c : Char) : Bool := '0' ≤ c && c ≤ '9'

def isAsciiLetter (c : Char) : Bool := isAsciiLower c || isAsciiUpper c

def isAsciiAlphanumeric (c : Char) : Bool := isAsciiLetter c || isAsciiDigit c

/-- What continues an ASCII identifier: a letter, a digit or an underscore. -/
def isAsciiWord (c : Char) : Bool := isAsciiAlphanumeric c || c == '_'

/-- What an ASCII identifier begins with: a lower-case letter or an underscore. -/
def startsIdentifier (c : Char) : Bool := isAsciiLower c || c == '_'

/-- The value of a hexadecimal digit. -/
def hexValue? (c : Char) : Option Nat :=
  if isAsciiDigit c then some (c.toNat - '0'.toNat)
  else if 'a' ≤ c && c ≤ 'f' then some (c.toNat - 'a'.toNat + 10)
  else if 'A' ≤ c && c ≤ 'F' then some (c.toNat - 'A'.toNat + 10)
  else none

/-- The code point `n` lies in one of the ranges. -/
def inRanges (ranges : List (Nat × Nat)) (n : Nat) : Bool :=
  ranges.any fun r => r.1 ≤ n && n ≤ r.2

/-- Letter or number of any script. -/
def isLetterOrNumber (c : Char) : Bool :=
  if c.toNat < 0x80 then isAsciiAlphanumeric c else inRanges letterOrNumberRanges c.toNat

/-- Word character of any script: letters, marks, decimal digits, connectors and joiners. -/
def isWord (c : Char) : Bool :=
  if c.toNat < 0x80 then isAsciiWord c else inRanges wordRanges c.toNat

/-- Lower-case character of any script. -/
def isLowercase (c : Char) : Bool :=
  if c.toNat < 0x80 then isAsciiLower c else lowercaseRanges.any (·.holds c.toNat)

/-- Upper-case character of any script. -/
def isUppercase (c : Char) : Bool :=
  if c.toNat < 0x80 then isAsciiUpper c else uppercaseRanges.any (·.holds c.toNat)

/-- Looks a character up among the expansions, then among the shifts; others map to themselves. -/
def mapCase (expansions : List (Nat × List Nat)) (shifts : List (SteppedRange × Int))
    (c : Char) : List Char :=
  match expansions.lookup c.toNat with
  | some codes => codes.map Char.ofNat
  | none =>
    match shifts.find? (·.1.holds c.toNat) with
    | some (_, shift) => [Char.ofNat (c.toNat + shift).toNat]
    | none => [c]

/-- The lower-case form of a character, which may take several characters. -/
def lowercase (c : Char) : List Char :=
  if c.toNat < 0x80 then [if isAsciiUpper c then Char.ofNat (c.toNat + 32) else c]
  else mapCase lowercaseExpansions lowercaseShifts c

/-- The upper-case form of a character, which may take several characters. -/
def uppercase (c : Char) : List Char :=
  if c.toNat < 0x80 then [if isAsciiLower c then Char.ofNat (c.toNat - 32) else c]
  else mapCase uppercaseExpansions uppercaseShifts c

/-- Every character that core takes for white space is blank; the class adds to it. -/
theorem isBlank_of_isWhitespace {c : Char} (h : c.isWhitespace = true) : isBlank c = true := by
  simp only [Char.isWhitespace, Bool.or_eq_true, decide_eq_true_eq] at h
  rcases h with ((h | h) | h) | h <;> subst h <;> decide

example : isBlank 'a' = false ∧ isBlank '\u200b' = false ∧ isBlank '\u3000' = true := by decide

example : uppercase 'ß' = ['S', 'S'] ∧ lowercase 'É' = ['é'] := by decide

end PhoenixLens.Text
