import PhoenixLens.Text.Char

/-!
# Bytes as text

Bytes that are meant to be UTF-8. Bytes that are not are read as the replacement character, one for
each longest beginning of a character that is broken off.
-/

namespace PhoenixLens.Text

/-- A character of which the first bytes are read. -/
structure OpenChar where
  /-- What the bytes that are read stand for. -/
  value : Nat
  /-- How many bytes are to come, less one. -/
  later : Nat
  /-- The least that the next byte can be. -/
  low : Nat := 0x80
  /-- The most that the next byte can be. -/
  high : Nat := 0xBF
deriving DecidableEq, Repr

/-- What reading one byte leads to. -/
inductive ByteStep where
  | done (c : Char)
  | more (c : OpenChar)
  | broken
deriving DecidableEq, Repr

/-- The next byte of a character. -/
def OpenChar.next (c : OpenChar) (byte : UInt8) : ByteStep :=
  if c.low ≤ byte.toNat && byte.toNat ≤ c.high then
    let value := c.value * 64 + byte.toNat % 64
    if c.later == 0 then .done (Char.ofNat value) else .more { value, later := c.later - 1 }
  else .broken

/-- The first byte of a character. The limits on the second byte rule out surrogates, code points
beyond the last one and spellings that are longer than they have to be. -/
def firstByte (byte : UInt8) : ByteStep :=
  let n := byte.toNat
  if n < 0x80 then .done (Char.ofNat n)
  else if 0xC2 ≤ n && n ≤ 0xDF then .more { value := n % 32, later := 0 }
  else if n == 0xE0 then .more { value := 0, later := 1, low := 0xA0 }
  else if n == 0xED then .more { value := 13, later := 1, high := 0x9F }
  else if 0xE1 ≤ n && n ≤ 0xEF then .more { value := n % 16, later := 1 }
  else if n == 0xF0 then .more { value := 0, later := 2, low := 0x90 }
  else if n == 0xF4 then .more { value := 4, later := 2, high := 0x8F }
  else if 0xF1 ≤ n && n ≤ 0xF3 then .more { value := n % 8, later := 2 }
  else .broken

/-- The character that stands for bytes that are no text. -/
def replacement : Char := '\uFFFD'

/-- Reads bytes, the first of them perhaps within a character. -/
def readBytes : Option OpenChar → List UInt8 → List Char
  | none, [] => []
  | some _, [] => [replacement]
  | none, byte :: bytes =>
    match firstByte byte with
    | .done c => c :: readBytes none bytes
    | .more c => readBytes (some c) bytes
    | .broken => replacement :: readBytes none bytes
  | some c, byte :: bytes =>
    match c.next byte with
    | .done c => c :: readBytes none bytes
    | .more c => readBytes (some c) bytes
    | .broken =>
      match firstByte byte with
      | .done c => replacement :: c :: readBytes none bytes
      | .more c => replacement :: readBytes (some c) bytes
      | .broken => replacement :: replacement :: readBytes none bytes

/-- The text that bytes stand for. -/
def ofBytes (bytes : List UInt8) : List Char := readBytes none bytes

def toBytes (cs : List Char) : List UInt8 := cs.flatMap String.utf8EncodeChar

example : ofBytes [0xE2, 0x82, 0xAC, 0x41] = ['€', 'A'] := by decide
example : ofBytes [0xE2, 0x82, 0x41, 0xFF] = ['\uFFFD', 'A', '\uFFFD'] := by decide
example : ofBytes [0xED, 0xA0, 0x80] = ['\uFFFD', '\uFFFD', '\uFFFD'] := by decide
example : ofBytes [0xF0, 0x9F, 0x98] = ['\uFFFD'] := by decide

end PhoenixLens.Text
