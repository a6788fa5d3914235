/-!
# Content digests

The 256-bit digest by which two versions of a file's text are compared: eight words of 32 bits,
mixed with each block of 64 bytes of the padded text, written as 64 hexadecimal digits.
-/

namespace PhoenixLens.Text.Digest

/-- One word for each round: fractional parts of the cube roots of the first 64 primes. -/
def roundWords : Array UInt32 := #[
  0x428a2f98, 0x71374491, 0xb5c0fbcf, 0xe9b5dba5, 0x3956c25b, 0x59f111f1, 0x923f82a4, 0xab1c5ed5,
  0xd807aa98, 0x12835b01, 0x243185be, 0x550c7dc3, 0x72be5d74, 0x80deb1fe, 0x9bdc06a7, 0xc19bf174,
  0xe49b69c1, 0xefbe4786, 0x0fc19dc6, 0x240ca1cc, 0x2de92c6f, 0x4a7484aa, 0x5cb0a9dc, 0x76f988da,
  0x983e5152, 0xa831c66d, 0xb00327c8, 0xbf597fc7, 0xc6e00bf3, 0xd5a79147, 0x06ca6351, 0x14292967,
  0x27b70a85, 0x2e1b2138, 0x4d2c6dfc, 0x53380d13, 0x650a7354, 0x766a0abb, 0x81c2c92e, 0x92722c85,
  0xa2bfe8a1, 0xa81a664b, 0xc24b8b70, 0xc76c51a3, 0xd192e819, 0xd6990624, 0xf40e3585, 0x106aa070,
  0x19a4c116, 0x1e376c08, 0x2748774c, 0x34b0bcb5, 0x391c0cb3, 0x4ed8aa4a, 0x5b9cca4f, 0x682e6ff3,
  0x748f82ee, 0x78a5636f, 0x84c87814, 0x8cc70208, 0x90befffa, 0xa4506ceb, 0xbef9a3f7, 0xc67178f2]

/-- The eight words that a digest is made of. -/
structure State where
  a : UInt32
  b : UInt32
  c : UInt32
  d : UInt32
  e : UInt32
  f : UInt32
  g : UInt32
  h : UInt32

/-- The words before any block: fractional parts of the square roots of the first eight primes. -/
def State.initial : State :=
  ⟨0x6a09e667, 0xbb67ae85, 0x3c6ef372, 0xa54ff53a, 0x510e527f, 0x9b05688c, 0x1f83d9ab, 0x5be0cd19⟩

def rotate (x : UInt32) (n : UInt32) : UInt32 := (x >>> n) ||| (x <<< (32 - n))

/-- One round, with its word of the schedule and its constant. -/
def State.round (s : State) (w k : UInt32) : State :=
  let s1 := rotate s.e 6 ^^^ rotate s.e 11 ^^^ rotate s.e 25
  let ch := (s.e &&& s.f) ^^^ (~~~s.e &&& s.g)
  let t1 := s.h + s1 + ch + k + w
  let s0 := rotate s.a 2 ^^^ rotate s.a 13 ^^^ rotate s.a 22
  let maj := (s.a &&& s.b) ^^^ (s.a &&& s.c) ^^^ (s.b &&& s.c)
  ⟨t1 + s0 + maj, s.a, s.b, s.c, s.d + t1, s.e, s.f, s.g⟩

def State.add (s t : State) : State :=
  ⟨s.a + t.a, s.b + t.b, s.c + t.c, s.d + t.d, s.e + t.e, s.f + t.f, s.g + t.g, s.h + t.h⟩

/-- The text's bytes, a bit, zeros up to eight bytes below a whole block, and the length in bits. -/
def padded (bytes : ByteArray) : ByteArray :=
  let zeros := (119 - bytes.size % 64) % 64
  let bits := bytes.size * 8
  let withZeros := zeros.fold (fun _ _ b => b.push 0) (bytes.push 0x80)
  (List.range 8).foldl (fun b i => b.push (bits >>> (8 * (7 - i))).toUInt8) withZeros

/-- The big-endian word at a byte offset. -/
def wordAt (bytes : ByteArray) (i : Nat) : UInt32 :=
  let byte (j : Nat) : UInt32 := (bytes[i + j]?.getD 0).toUInt32
  byte 0 <<< 24 ||| byte 1 <<< 16 ||| byte 2 <<< 8 ||| byte 3

/-- The 64 words of the block that begins at a byte offset. -/
def schedule (bytes : ByteArray) (start : Nat) : Array UInt32 :=
  let first := (Array.range 16).map fun j => wordAt bytes (start + 4 * j)
  (List.range 48).foldl
    (fun w j =>
      let x := w.getD (j + 1) 0
      let y := w.getD (j + 14) 0
      let s0 := rotate x 7 ^^^ rotate x 18 ^^^ (x >>> 3)
      let s1 := rotate y 17 ^^^ rotate y 19 ^^^ (y >>> 10)
      w.push (w.getD j 0 + s0 + w.getD (j + 9) 0 + s1))
    first

/-- Mixes in the block that begins at a byte offset. -/
def State.block (s : State) (bytes : ByteArray) (start : Nat) : State :=
  let w := schedule bytes start
  s.add ((List.range 64).foldl (fun t j => t.round (w.getD j 0) (roundWords.getD j 0)) s)

def hexDigit (n : Nat) : Char := if n < 10 then Char.ofNat (48 + n) else Char.ofNat (87 + n)

/-- A word as eight hexadecimal digits. -/
def hexWord (w : UInt32) : List Char :=
  (List.range 8).map fun i => hexDigit ((w.toNat >>> (4 * (7 - i))) % 16)

end Digest

open Digest in
/-- The digest of a text's UTF-8 form as 64 hexadecimal digits. -/
def contentDigest (content : String) : String :=
  let bytes := padded content.toUTF8
  let blocks := List.range (bytes.size / 64)
  let s := blocks.foldl (fun s i => s.block bytes (64 * i)) Digest.State.initial
  String.ofList ([s.a, s.b, s.c, s.d, s.e, s.f, s.g, s.h].flatMap hexWord)

end PhoenixLens.Text
