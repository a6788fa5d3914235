import PhoenixLens.Text.Basic
import PhoenixLens.Text.Char
import PhoenixLens.Text.Utf8
import PhoenixLens.Uri.DomainTable

/-!
# Domain names

The spelling of labels beyond ASCII in ASCII letters, digits and hyphens: the ASCII characters of
the label, a hyphen, and numbers that say which other characters are inserted where.

A domain is a sequence of labels between dots. Letters are folded to lower case and characters that
are but other forms of plain ones are spelled plainly. A label may not begin with a mark, joiners
stand only where they show, and letters of scripts that are written from right to left do not mix
with others.
-/

namespace PhoenixLens.Punycode

/-- The value of a digit of base 36: letters of either case, then digits. -/
def digit? (c : Char) : Option Nat :=
  if Text.isAsciiLower c then some (c.toNat - 'a'.toNat)
  else if Text.isAsciiUpper c then some (c.toNat - 'A'.toNat)
  else if Text.isAsciiDigit c then some (c.toNat - '0'.toNat + 26)
  else none

/-- The least digit that does not end a number at place `k`, counted in steps of 36. -/
def threshold (k bias : Nat) : Nat := min 26 (max 1 (k - bias))

/-- Divides by 35 while the number is above 455, counting the steps by 36. -/
def scale (delta : Nat) : Nat × Nat :=
  if 455 < delta then
    let (rest, k) := scale (delta / 35)
    (rest, k + 36)
  else (delta, 0)
termination_by delta
decreasing_by omega

/-- The bias for the next number, from the last one and the length of the text by now. -/
def adapt (delta length : Nat) (isFirst : Bool) : Nat :=
  let delta := if isFirst then delta / 700 else delta / 2
  let (rest, k) := scale (delta + delta / length)
  k + 36 * rest / (rest + 38)

/-- A label of which some characters are inserted and the next number is being read. -/
structure Reading where
  /-- The characters by now. -/
  text : List Char
  /-- The code point that was inserted last. -/
  code : Nat := 128
  /-- Where the next insertion counts from. -/
  place : Nat := 0
  bias : Nat := 72
  /-- What the digits of the number come to by now. -/
  value : Nat := 0
  /-- The weight of its next digit; 1 where no number is begun. -/
  weight : Nat := 1
  /-- The place of its next digit, in steps of 36. -/
  digitPlace : Nat := 36
deriving Repr

/-- Reads one digit; the last one of a number inserts a character. -/
def Reading.step? (r : Reading) (c : Char) : Option Reading := do
  let digit ← digit? c
  let value := r.value + digit * r.weight
  let bound := threshold r.digitPlace r.bias
  if digit < bound then
    let length := r.text.length + 1
    let code := r.code + (r.place + value) / length
    let place := (r.place + value) % length
    if h : code.isValidChar then
      some { text := r.text.insertIdx place (Char.ofNatAux code h), code, place := place + 1
             bias := adapt value length (r.place == 0) }
    else none
  else
    some { r with value, weight := r.weight * (36 - bound), digitPlace := r.digitPlace + 36 }

/-- The label that an ASCII spelling stands for. -/
def decode? (cs : List Char) : Option (List Char) := do
  if cs.any (0x80 ≤ ·.toNat) then failure
  let numbers := (cs.reverse.takeWhile (· != '-')).reverse
  let plain := cs.take (cs.length - numbers.length - 1)
  let numbers := if plain.isEmpty then cs else numbers
  let r ← numbers.foldlM Reading.step? { text := plain : Reading }
  if r.weight == 1 then some r.text else none

example : decode? "bcher-kva".toList = some "bücher".toList := by decide
example : decode? "tda".toList = some "ü".toList := by decide
example : decode? "bcher-kv".toList = none := by decide

end PhoenixLens.Punycode

/-! ### Domain names -/

namespace PhoenixLens.Domain

/-- ASCII characters that no domain holds. -/
def isForbiddenAscii (c : Char) : Bool :=
  c.toNat ≤ 0x20 || c.toNat == 0x7F || "%#/:<>?@[\\]^|".toList.contains c

/-- The spelling with several characters that a run gives to the code point `n`. -/
def spelling? (n : Nat) : Option (List Char) := do
  let run ← spelledRuns.reverse.find? (·.1 ≤ n)
  (Text.splitAt ' ' run.2.toList)[n - run.1]?

/-- Whether a character has another form that is not ASCII. -/
def isFolded (n : Nat) : Bool :=
  foldedRanges.any fun (first, last, step) => first ≤ n && n ≤ last && (n - first) % step == 0

/-- The characters that a character is spelled with, none if it may not stand in a domain. Those
with another form beyond ASCII stand for it. -/
def fold? (c : Char) : Option (List Char) :=
  let n := c.toNat
  if n < 0x80 then if isForbiddenAscii c then none else some (Text.asciiLowercase [c])
  else if Text.inRanges forbiddenRanges n then none
  else if Text.inRanges ignoredRanges n then some []
  else
    match plainRuns.find? fun (first, last, _) => first ≤ n && n ≤ last with
    | some (first, _, code) => some [Char.ofNat (code + (n - first))]
    | none => some ((spelling? n).getD [c])

/-- A character that is its own spelling. -/
def isPlain (c : Char) : Bool := fold? c == some [c] && !isFolded c.toNat

/-! ### Direction -/

/-- What the order of reading needs to know of a character. -/
inductive Direction where
  | leftToRight
  | rightToLeft
  | arabicNumber
  | europeanNumber
  /-- A mark that follows the character before it. -/
  | mark
  | neutral
deriving DecidableEq, Repr

namespace Direction

def ofChar (c : Char) : Direction :=
  let n := c.toNat
  if n < 0x80 then
    if Text.isAsciiLetter c then leftToRight
    else if Text.isAsciiDigit c then europeanNumber
    else neutral
  else if Text.inRanges nonspacingMarkRanges n then mark
  else if Text.inRanges rightToLeftRanges n then rightToLeft
  else if Text.inRanges arabicNumberRanges n then arabicNumber
  else if Text.inRanges europeanNumberRanges n then europeanNumber
  else if Text.inRanges neutralRanges n then neutral
  else leftToRight

/-- Whether it makes the domain one that is read in both directions. -/
def isFromRight (d : Direction) : Bool := d == rightToLeft || d == arabicNumber

end Direction

/-- A label of a domain that is read in both directions: it begins with a letter, has letters of no
other direction, ends in a letter or number, and has numbers of one kind. -/
def isDirected (label : List Direction) : Bool :=
  let final := (label.reverse.dropWhile (· == .mark)).head?
  match label with
  | [] => true
  | .leftToRight :: rest =>
    rest.all (fun d => !d.isFromRight) &&
      final.all fun d => d == .leftToRight || d == .europeanNumber
  | .rightToLeft :: rest =>
    rest.all (· != .leftToRight) && final.all (· != .neutral) &&
      !(rest.contains .arabicNumber && rest.contains .europeanNumber)
  | _ => false

/-! ### Labels -/

def isMark (c : Char) : Bool :=
  Text.inRanges nonspacingMarkRanges c.toNat || Text.inRanges spacingMarkRanges c.toNat

/-- A letter that joins to what follows, or what precedes, marks apart. -/
def joins (ranges : List (Nat × Nat)) (cs : List Char) : Bool :=
  (cs.dropWhile fun c => Text.inRanges nonspacingMarkRanges c.toNat).head?.any fun c =>
    Text.inRanges dualJoiningRanges c.toNat || Text.inRanges ranges c.toNat

/-- A joiner stands behind a virama; one that keeps letters apart also between letters that would
join. The characters before come in reverse. -/
def joinersShow (before : List Char) : List Char → Bool
  | [] => true
  | c :: cs =>
    let afterVirama := before.head?.any fun p => viramas.contains p.toNat
    (if c == '\u200D' then afterVirama
      else if c == '\u200C' then
        afterVirama || (joins leftJoiningRanges before && joins rightJoiningRanges cs)
      else true) && joinersShow (c :: before) cs

/-- A label without a mark at its beginning, and with joiners only where they show. -/
def isSound (label : List Char) : Bool := !label.head?.any isMark && joinersShow [] label

/-- The characters of a label; one that begins with `xn--` spells them in ASCII. -/
def label? (label : List Char) : Option (List Char) := do
  let cs ←
    match Text.stripPrefix? "xn--" label with
    | some code => do
      let cs ← Punycode.decode? code
      if cs.all isPlain && cs.any (0x80 ≤ ·.toNat) then some cs else none
    | none => some label
  if isSound cs then some cs else none

/-- The normal form of a domain. -/
def normal? (cs : List Char) : Option (List Char) := do
  let folded ← cs.mapM fold?
  let labels ← (Text.splitAt '.' folded.flatten).mapM label?
  let directions := labels.map (·.map Direction.ofChar)
  if directions.any (·.any Direction.isFromRight) && !directions.all isDirected then none
  else some (Text.join ['.'] labels)

end PhoenixLens.Domain
