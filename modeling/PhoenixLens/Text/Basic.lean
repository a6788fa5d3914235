import PhoenixLens.Text.Char

/-!
# Texts as lists of characters

Scanners read a text as a `List Char`. Offsets into it count the bytes of its UTF-8 form, so this
file has the measure of a text in bytes and the cuts at a byte offset, beside trimming, splitting,
the search for a piece of text, and all the places of a text at which something can be read.
-/

namespace PhoenixLens.Text

/-- The number of bytes of the UTF-8 form. -/
def byteLength : List Char → Nat
  | [] => 0
  | c :: cs => c.utf8Size + byteLength cs

/-- The longest prefix of at most `n` bytes. -/
def takeBytes : Nat → List Char → List Char
  | _, [] => []
  | n, c :: cs => if c.utf8Size ≤ n then c :: takeBytes (n - c.utf8Size) cs else []

/-- What is left after the characters that begin below the byte offset `n`. -/
def dropBytes : Nat → List Char → List Char
  | 0, cs => cs
  | _ + 1, [] => []
  | n + 1, c :: cs => dropBytes (n + 1 - c.utf8Size) cs

/-- The text between two byte offsets. -/
def slice (cs : List Char) (start stop : Nat) : List Char :=
  takeBytes (stop - start) (dropBytes start cs)

/-- A character begins at the byte offset, or the text ends there. -/
def isBoundary : List Char → Nat → Bool
  | _, 0 => true
  | [], _ + 1 => false
  | c :: cs, n + 1 => c.utf8Size ≤ n + 1 && isBoundary cs (n + 1 - c.utf8Size)

/-- The text between two byte offsets that lie between characters, in order. -/
def span? (cs : List Char) (start stop : Nat) : Option (List Char) :=
  if start ≤ stop && isBoundary cs start && isBoundary cs stop then some (slice cs start stop)
  else none

@[simp] theorem byteLength_nil : byteLength [] = 0 := rfl

@[simp] theorem byteLength_cons (c : Char) (cs : List Char) :
    byteLength (c :: cs) = c.utf8Size + byteLength cs := rfl

@[simp] theorem byteLength_append (a b : List Char) :
    byteLength (a ++ b) = byteLength a + byteLength b := by
  induction a with
  | nil => simp
  | cons c cs ih => simp [ih, Nat.add_assoc]

theorem byteLength_takeBytes_le (n : Nat) (cs : List Char) : byteLength (takeBytes n cs) ≤ n := by
  induction cs generalizing n with
  | nil => simp [takeBytes]
  | cons c cs ih =>
    rw [takeBytes]
    split
    · have := ih (n - c.utf8Size)
      simp only [byteLength_cons]
      omega
    · simp

def asciiUppercase (cs : List Char) : List Char :=
  cs.map fun c => if isAsciiLower c then Char.ofNat (c.toNat - 32) else c

def asciiLowercase (cs : List Char) : List Char :=
  cs.map fun c => if isAsciiUpper c then Char.ofNat (c.toNat + 32) else c

/-! ### Trimming and splitting -/

def trimStart (cs : List Char) : List Char := cs.dropWhile isBlank

/-- Drops the longest suffix of characters that satisfy `p`. -/
def dropEndWhile (p : Char → Bool) (cs : List Char) : List Char :=
  (cs.reverse.dropWhile p).reverse

def trimEnd (cs : List Char) : List Char := dropEndWhile isBlank cs

def trim (cs : List Char) : List Char := trimEnd (trimStart cs)

/-- The text holds nothing but white space. -/
def allBlank (cs : List Char) : Bool := cs.all isBlank

/-- What follows the given beginning, if the text begins with it. -/
def stripPrefix? (start : String) (cs : List Char) : Option (List Char) :=
  start.toList.isPrefixOf? cs

/-- What precedes the given ending, if the text ends with it. -/
def stripSuffix? (ending : String) (cs : List Char) : Option (List Char) :=
  ending.toList.isSuffixOf? cs

def startsWith (start : String) (cs : List Char) : Bool := start.toList.isPrefixOf cs

def endsWith (ending : String) (cs : List Char) : Bool := ending.toList.isSuffixOf cs

/-- The pieces between occurrences of a separator; there is always at least one. -/
def splitAt (separator : Char) : List Char → List (List Char)
  | [] => [[]]
  | c :: cs =>
    if c == separator then [] :: splitAt separator cs
    else
      match splitAt separator cs with
      | [] => [[c]]
      | piece :: pieces => (c :: piece) :: pieces

/-- The maximal runs of characters that are not blank. -/
def words (cs : List Char) : List (List Char) :=
  let (word, found) := cs.foldr
    (fun c (word, found) =>
      if isBlank c then ([], if word.isEmpty then found else word :: found) else (c :: word, found))
    ([], [])
  if word.isEmpty then found else word :: found

def join (separator : List Char) (pieces : List (List Char)) : List Char :=
  (pieces.intersperse separator).flatten

/-- Cuts at the first occurrence of `piece`: what stands before it and what stands after it. -/
def cutAt? (piece : List Char) : List Char → Option (List Char × List Char)
  | [] => if piece.isEmpty then some ([], []) else none
  | c :: cs =>
    match piece.isPrefixOf? (c :: cs) with
    | some rest => some ([], rest)
    | none => (cutAt? piece cs).map fun (before, rest) => (c :: before, rest)

def contains (piece : String) (cs : List Char) : Bool := (cutAt? piece.toList cs).isSome

/-- The byte offset of the first occurrence of `piece` in a text that begins at the offset `pos`. -/
def offsetOf? (piece : List Char) (pos : Nat) (cs : List Char) : Option Nat :=
  (cutAt? piece cs).map fun (before, _) => pos + byteLength before

/-- Every occurrence of `piece`, found from left to right, replaced. -/
def replaceAll (piece replacement : List Char) : Nat → List Char → List Char
  | _, [] => []
  | skip + 1, _ :: cs => replaceAll piece replacement skip cs
  | 0, c :: cs =>
    if piece.isPrefixOf (c :: cs) then
      replacement ++ replaceAll piece replacement (piece.length - 1) cs
    else c :: replaceAll piece replacement 0 cs

/-! ### Lines -/

/-- A line as read so far, last character first, without the carriage return of its terminator. -/
def closeLine : List Char → List Char
  | '\r' :: acc => acc.reverse
  | acc => acc.reverse

/-- The lines of a text without their terminators. A text that ends with a terminator has no
further line after it. -/
def lines (cs : List Char) : List (List Char) :=
  go [] cs
where
  /-- Continues a line of which `acc` has been read, last character first. -/
  go (acc : List Char) : List Char → List (List Char)
    | [] => if acc.isEmpty then [] else [acc.reverse]
    | '\n' :: cs => closeLine acc :: go [] cs
    | c :: cs => go (c :: acc) cs

example : lines "a\r\nb\n\nc\r".toList = ["a".toList, "b".toList, [], "c\r".toList] := by decide

/-! ### Matches -/

section

/-- Reads something at the front of a text, given the character before it; gives what follows. -/
abbrev Recognizer (α : Type) := Option Char → List Char → Option (α × List Char)

variable {α : Type}

/-- The matches in a text that begins at the offset `pos` after the character `previous`; `skip`
characters belong to a match already. -/
def matchesFrom (recognize : Recognizer α) (previous : Option Char) (skip pos : Nat) :
    List Char → List (Nat × α)
  | [] => []
  | c :: cs =>
    let next := pos + c.utf8Size
    match skip with
    | skip + 1 => matchesFrom recognize (some c) skip next cs
    | 0 =>
      match recognize previous (c :: cs) with
      | some (a, rest) =>
        (pos, a) :: matchesFrom recognize (some c) (cs.length - rest.length) next cs
      | none => matchesFrom recognize (some c) 0 next cs

def matchesWithOffsets (recognize : Recognizer α) (cs : List Char) : List (Nat × α) :=
  matchesFrom recognize none 0 0 cs

def matchesIn (recognize : Recognizer α) (cs : List Char) : List α :=
  (matchesWithOffsets recognize cs).map (·.2)

/-- Reads only at the beginning of a line. -/
def atLineStart (recognize : List Char → Option (α × List Char)) : Recognizer α :=
  fun previous cs => if previous.all (· == '\n') then recognize cs else none

/-- A text as far as its characters satisfy `p`, at least one, and the rest. -/
def takeSome? (p : Char → Bool) (cs : List Char) : Option (List Char × List Char) :=
  match cs.takeWhile p with
  | [] => none
  | taken => some (taken, cs.dropWhile p)

end

end PhoenixLens.Text
