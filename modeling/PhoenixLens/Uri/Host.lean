import PhoenixLens.Text.Basic
import PhoenixLens.Uri.Domain

/-!
# Hosts and percent encoding

Characters that may not stand in a part of a URI are written as bytes in hexadecimal. Which ones
these are depends on the part. A host is a name or an address on the network. In a URI of a scheme
that is known to name hosts, the name is a domain, and one that ends in a number has to be an
address; elsewhere a host is any text.
-/

namespace PhoenixLens.Uri

/-! ### Percent encoding -/

/-- The upper-case hexadecimal digit of a number below sixteen. -/
def hexDigit (n : Nat) : Char := if n < 10 then Char.ofNat (48 + n) else Char.ofNat (55 + n)

/-- The bytes of a character in hexadecimal. -/
def percentEncode (c : Char) : List Char :=
  (String.utf8EncodeChar c).flatMap fun b =>
    ['%', hexDigit (b.toNat / 16), hexDigit (b.toNat % 16)]

/-- Encodes the characters in a class, control characters and those beyond ASCII. -/
def encodeChars (p : Char → Bool) (cs : List Char) : List Char :=
  cs.flatMap fun c =>
    if c.toNat < 0x20 || c.toNat ≥ 0x7f || p c then percentEncode c else [c]

/-- Encodes control characters and those beyond ASCII only. -/
def encodeControls (cs : List Char) : List Char := encodeChars (fun _ => false) cs

def isFragmentSpecial (c : Char) : Bool :=
  c == ' ' || c == '"' || c == '<' || c == '>' || c == '`'

/-- An apostrophe is encoded in the query of a `special` scheme only. -/
def isQuerySpecial (special : Bool) (c : Char) : Bool :=
  c == ' ' || c == '"' || c == '<' || c == '>' || c == '#' || (special && c == '\'')

def isPathSpecial (c : Char) : Bool :=
  isFragmentSpecial c || c == '#' || c == '?' || c == '{' || c == '}'

def isSegmentSpecial (c : Char) : Bool := isPathSpecial c || c == '/' || c == '%' || c == '\\'

def isCredentialSpecial (c : Char) : Bool :=
  isPathSpecial c || c == '/' || c == ':' || c == ';' || c == '=' || c == '@' || c == '[' ||
    c == '\\' || c == ']' || c == '^' || c == '|'

/-- The bytes that a text stands for. -/
def percentDecode : List Char → List UInt8
  | '%' :: a :: b :: cs =>
    match Text.hexValue? a, Text.hexValue? b with
    | some high, some low => UInt8.ofNat (16 * high + low) :: percentDecode cs
    | _, _ => '%'.toNat.toUInt8 :: percentDecode (a :: b :: cs)
  | c :: cs => String.utf8EncodeChar c ++ percentDecode cs
  | [] => []

inductive Host where
  /-- A domain, or a text that means something to the scheme; the empty one where no host is
  written. -/
  | named (name : String)
  | ipv4 (address : Nat)
  /-- An address of eight groups of 16 bits. -/
  | ipv6 (groups : List Nat)
deriving DecidableEq, Repr

namespace Host

def absent : Host := .named ""

/-- A host on which the files of this machine are. -/
def isLocal (host : Host) : Bool := host == absent || host == .named "localhost"

/-! ### Addresses -/

/-- The number that digits of a base stand for, in a value that may be far too big. -/
def number? (base : Nat) (cs : List Char) : Option Nat :=
  cs.foldlM (fun n c => (Text.hexValue? c).bind fun d =>
    if d < base then some (n * base + d) else none) 0

/-- A part of an address of the old kind: hexadecimal behind `0x`, octal behind `0`, or decimal. -/
def ipv4Part? : List Char → Option Nat
  | [] => none
  | '0' :: 'x' :: cs => number? 16 cs
  | '0' :: 'X' :: cs => number? 16 cs
  | '0' :: cs => number? 8 cs
  | cs => number? 10 cs

/-- The parts of a domain, without the empty one behind a dot at the end. -/
def parts (domain : List Char) : List (List Char) :=
  let parts := Text.splitAt '.' domain
  if parts.length > 1 && parts.getLast? == some [] then parts.dropLast else parts

/-- The domain can only be meant as an address. -/
def endsInNumber (domain : List Char) : Bool :=
  (parts domain).getLast?.any fun part =>
    (!part.isEmpty && part.all Text.isAsciiDigit) || (ipv4Part? part).isSome

/-- An address of up to four parts, the last of which fills the bytes that are left. -/
def ipv4? (domain : List Char) : Option Nat := do
  let numbers ← (parts domain).mapM ipv4Part?
  let final ← numbers.getLast?
  let bytes := numbers.dropLast
  if bytes.length < 4 && bytes.all (· < 256) && final < 1 <<< (8 * (4 - bytes.length)) then
    some (bytes.zipIdx.foldl (fun n (byte, i) => n + byte <<< (8 * (3 - i))) final)
  else none

/-- Four decimal bytes without leading zeros, as two groups. -/
def quad? (cs : List Char) : Option (List Nat) := do
  let byte? := fun (part : List Char) =>
    if part.isEmpty || (part.length > 1 && part.head? == some '0') then none
    else (number? 10 part).filter (· < 256)
  match ← (Text.splitAt '.' cs).mapM byte? with
  | [a, b, c, d] => some [a * 256 + b, c * 256 + d]
  | _ => none

/-- Groups between colons; the last one may be written as four bytes. -/
def groups? : List (List Char) → Option (List Nat)
  | [] => some []
  | [part] => group? part <|> quad? part
  | part :: parts => do return (← group? part) ++ (← groups? parts)
where
  group? (part : List Char) : Option (List Nat) :=
    if part.isEmpty || part.length > 4 then none else (number? 16 part).map ([·])

/-- Eight groups, a run of which may be left out as zeros where `::` stands. -/
def ipv6? (cs : List Char) : Option (List Nat) :=
  let groups? := fun (cs : List Char) =>
    if cs.isEmpty then some [] else groups? (Text.splitAt ':' cs)
  match Text.cutAt? "::".toList cs with
  | some (left, right) => do
    if left.contains '.' then failure
    let left ← groups? left
    let right ← groups? right
    let length := left.length + right.length
    if length < 8 then some (left ++ List.replicate (8 - length) 0 ++ right) else none
  | none => (groups? cs).filter (·.length == 8)

/-! ### Reading and writing -/

/-- The text between brackets. -/
def bracketed? (cs : List Char) : Option (List Char) :=
  if cs.getLast? == some ']' then some (cs.tail.dropLast) else none

/-- The host of a scheme that names hosts by their domains. -/
def ofDomain? (cs : List Char) : Option Host := do
  if cs.head? == some '[' then
    return .ipv6 (← ipv6? (← bracketed? cs))
  let text ← String.fromUTF8? ⟨(percentDecode cs).toArray⟩
  let domain ← Domain.normal? text.toList
  if domain.isEmpty then failure
  if endsInNumber domain then return .ipv4 (← ipv4? domain)
  return .named (String.ofList domain)

/-- The host of any other scheme. -/
def ofText? (cs : List Char) : Option Host := do
  if cs.head? == some '[' then
    return .ipv6 (← ipv6? (← bracketed? cs))
  if cs.any fun c => c == '\x00' || " #/:<>?@[\\]^|".toList.contains c then failure
  return .named (String.ofList (encodeControls cs))

/-- The host as it stands in a URI. -/
def text : Host → String
  | .named name => name
  | .ipv4 address =>
    ".".intercalate ([3, 2, 1, 0].map fun i => toString (address >>> (8 * i) % 256))
  | .ipv6 groups =>
    let group := fun (n : Nat) => String.ofList (Nat.toDigits 16 n)
    "[" ++ ":".intercalate (groups.map group) ++ "]"

end Host

end PhoenixLens.Uri
