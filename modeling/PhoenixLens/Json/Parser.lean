import PhoenixLens.Json.Basic

/-!
# Reading JSON

A text is cut into tokens by one pass over its characters, with the state of an unfinished string
or scalar between them. A scalar is a number or one of the three literal names. A string with half
of a surrogate pair in it is a token, but one without a text; a number beyond the doubles is a
scalar without a value.

The tokens of a text build up a value from the inside out. The containers that are still open form
a stack of frames, so one pass over the tokens decides whether the text is a value. `skim?` reads
also what stands for no value, for readers that pass over parts of a text; `parse?` wants all of it
to be readable. A container inside 127 others is unreadable.
-/

namespace PhoenixLens.Json

/-- A token of a JSON text; a scalar is carried as the value it stands for. -/
inductive Token where
  | openArray
  | closeArray
  | openObject
  | closeObject
  | comma
  | colon
  | scalar (value : Json)
  /-- A string; `none` if it holds half of a surrogate pair. -/
  | quoted (s : Option String)

/-- What is being read. Texts are kept last character first. -/
inductive Lexing where
  /-- Between tokens. -/
  | idle
  /-- Inside a scalar. -/
  | scalar (seen : List Char)
  /-- Inside a string. -/
  | quoted (seen : List Char)
  /-- After a backslash inside a string. -/
  | escape (seen : List Char)
  /-- Inside a `\u` escape: the digits read so far and their number; a leading surrogate that
  waits for its partner. -/
  | code (seen : List Char) (leading : Option Nat) (digits value : Nat)
  /-- After a leading surrogate, before the backslash of its partner. -/
  | pair (seen : List Char) (leading : Nat)
  /-- After that backslash. -/
  | pairEscape (seen : List Char) (leading : Nat)
  /-- Inside a string with half of a surrogate pair in it. -/
  | halved
  /-- After a backslash inside such a string. -/
  | halvedEscape
  /-- Inside a `\u` escape of such a string, after the given number of digits. -/
  | halvedCode (digits : Nat)

def isScalarChar (c : Char) : Bool :=
  Text.isAsciiAlphanumeric c || c == '-' || c == '+' || c == '.'

def isJsonBlank (c : Char) : Bool := c == ' ' || c == '\n' || c == '\t' || c == '\r'

/-- The digits at the front of a text, and the rest; there must be at least one. -/
def digits? (cs : List Char) : Option (List Char × List Char) :=
  match cs.takeWhile Text.isAsciiDigit with
  | [] => none
  | ds => some (ds, cs.dropWhile Text.isAsciiDigit)

def digitsValue (ds : List Char) : Nat :=
  ds.foldl (fun n d => 10 * n + (d.toNat - '0'.toNat)) 0

/-- What may follow the whole part of a number: a fraction, then an exponent. -/
def isFractionAndExponent (cs : List Char) : Bool :=
  match afterFraction? cs with
  | none => false
  | some [] => true
  | some (e :: cs) => (e == 'e' || e == 'E') && isExponent cs
where
  afterFraction? : List Char → Option (List Char)
    | '.' :: cs => (digits? cs).map (·.2)
    | cs => some cs
  isExponent (cs : List Char) : Bool :=
    let unsigned := match cs with
      | '+' :: cs => cs
      | '-' :: cs => cs
      | cs => cs
    !unsigned.isEmpty && unsigned.all Text.isAsciiDigit

/-- The exponent of a number, as written behind its fraction. -/
def exponentValue (cs : List Char) : Int :=
  match cs with
  | '-' :: ds => -(digitsValue ds)
  | '+' :: ds => digitsValue ds
  | ds => digitsValue ds

/-- The least number that no double comes close to: half a step beyond the greatest double. -/
def doubleBound : Nat := Nat.pow 2 1024 - Nat.pow 2 970

/-- The number without a sign, of which the whole part and the rest are given, is too great for a
double. -/
def exceedsDouble (whole rest : List Char) : Bool :=
  let fraction := match rest with
    | '.' :: cs => cs.takeWhile Text.isAsciiDigit
    | _ => []
  let behind := rest.dropWhile fun c => c != 'e' && c != 'E'
  let significand := digitsValue (whole ++ fraction)
  let exponent := exponentValue (behind.drop 1) - fraction.length
  if significand == 0 || exponent < -400 then false
  else if exponent < 0 then doubleBound * Nat.pow 10 exponent.natAbs ≤ significand
  else exponent > 400 || doubleBound ≤ significand * Nat.pow 10 exponent.natAbs

/-- The value of a number as written. Integers outside 64 bits, and zero with a sign, are kept as
they are written. -/
def number? (written : List Char) : Option Json := do
  let (negative, unsigned) := match written with
    | '-' :: cs => (true, cs)
    | cs => (false, cs)
  let (whole, rest) ← digits? unsigned
  let asWritten :=
    if exceedsDouble whole rest then unreadable else decimal (String.ofList written)
  if whole.length > 1 && whole.head? == some '0' then none
  else if rest.isEmpty then
    let n := digitsValue whole
    if negative then
      if n == 0 || n > 0x8000000000000000 then some asWritten else some (int (-n))
    else if n < UInt64.size then some (int n)
    else some asWritten
  else if isFractionAndExponent rest then some asWritten
  else none

def scalar? (written : List Char) : Option Json :=
  if written == "null".toList then some null
  else if written == "true".toList then some (bool true)
  else if written == "false".toList then some (bool false)
  else number? written

/-- The character that a letter after a backslash stands for. -/
def unescape? : Char → Option Char
  | '"' => some '"'
  | '\\' => some '\\'
  | '/' => some '/'
  | 'b' => some '\x08'
  | 'f' => some '\x0c'
  | 'n' => some '\n'
  | 'r' => some '\r'
  | 't' => some '\t'
  | _ => none

/-- Takes up a finished 16-bit unit inside a string. Surrogates have to come in pairs. -/
def takeUnit (seen : List Char) (leading : Option Nat) (unit : Nat) : Lexing :=
  match leading with
  | some high =>
    if 0xDC00 ≤ unit && unit ≤ 0xDFFF then
      .quoted (Char.ofNat (0x10000 + (high - 0xD800) * 0x400 + (unit - 0xDC00)) :: seen)
    else .halved
  | none =>
    if 0xD800 ≤ unit && unit ≤ 0xDBFF then .pair seen unit
    else if 0xDC00 ≤ unit && unit ≤ 0xDFFF then .halved
    else .quoted (Char.ofNat unit :: seen)

/-- Reads a character inside a string with half of a surrogate pair in it. -/
def stepHalved (c : Char) : Option (Lexing × List Token) :=
  if c == '"' then some (.idle, [.quoted none])
  else if c == '\\' then some (.halvedEscape, [])
  else if c.toNat < 0x20 then none
  else some (.halved, [])

/-- Reads a character after a backslash inside such a string. -/
def stepHalvedEscape (c : Char) : Option (Lexing × List Token) :=
  if c == 'u' then some (.halvedCode 0, []) else (unescape? c).map fun _ => (.halved, [])

/-- Reads a character between tokens. -/
def startToken (c : Char) : Option (Lexing × List Token) :=
  match c with
  | '[' => some (.idle, [.openArray])
  | ']' => some (.idle, [.closeArray])
  | '{' => some (.idle, [.openObject])
  | '}' => some (.idle, [.closeObject])
  | ',' => some (.idle, [.comma])
  | ':' => some (.idle, [.colon])
  | '"' => some (.quoted [], [])
  | c =>
    if isJsonBlank c then some (.idle, [])
    else if isScalarChar c then some (.scalar [c], [])
    else none

/-- Reads one character: the next state and the tokens that it completes. -/
def Lexing.step (state : Lexing) (c : Char) : Option (Lexing × List Token) :=
  match state with
  | .idle => startToken c
  | .scalar seen =>
    if isScalarChar c then some (.scalar (c :: seen), [])
    else do
      let value ← scalar? seen.reverse
      let (next, tokens) ← startToken c
      some (next, .scalar value :: tokens)
  | .quoted seen =>
    if c == '"' then some (.idle, [.quoted (some (String.ofList seen.reverse))])
    else if c == '\\' then some (.escape seen, [])
    else if c.toNat < 0x20 then none
    else some (.quoted (c :: seen), [])
  | .escape seen =>
    if c == 'u' then some (.code seen none 0 0, [])
    else (unescape? c).map fun d => (.quoted (d :: seen), [])
  | .code seen leading digits value => do
    let value := 16 * value + (← Text.hexValue? c)
    if digits == 3 then some (takeUnit seen leading value, [])
    else some (.code seen leading (digits + 1) value, [])
  | .pair seen leading =>
    if c == '\\' then some (.pairEscape seen leading, []) else stepHalved c
  | .pairEscape seen leading =>
    if c == 'u' then some (.code seen (some leading) 0 0, []) else stepHalvedEscape c
  | .halved => stepHalved c
  | .halvedEscape => stepHalvedEscape c
  | .halvedCode digits => do
    discard (Text.hexValue? c)
    some (if digits == 3 then .halved else .halvedCode (digits + 1), [])

/-- Reads one character after the tokens found so far, last token first. -/
def takeChar (state : Lexing × List Token) (c : Char) : Option (Lexing × List Token) := do
  let (next, tokens) ← state.1.step c
  some (next, tokens.reverse ++ state.2)

/-- The tokens of a text, or `none` if it is not made of tokens. -/
def tokens? (cs : List Char) : Option (List Token) := do
  let (state, found) ← cs.foldlM takeChar (Lexing.idle, [])
  match state with
  | .idle => some found.reverse
  | .scalar seen => (scalar? seen.reverse).map fun value => (Token.scalar value :: found).reverse
  | _ => none

/-! ### Reading JSON -/

/-- A container that is still open, its contents last first. -/
inductive Frame where
  | array (items : List Json)
  | object (members : List (String × Json))
  /-- An object whose next member has a name but no value yet. -/
  | member (members : List (String × Json)) (name : String)
  /-- An object with an unreadable name in it; `true` before the value of a member. -/
  | nameless (pending : Bool)

/-- What the next token has to be. -/
inductive Expecting where
  | value
  /-- A value or the end of an empty array. -/
  | firstItem
  /-- A name or the end of an empty object. -/
  | firstName
  | name
  | colon
  /-- A comma or the end of the innermost container. -/
  | next
  /-- Nothing more: the value is complete. -/
  | nothing (value : Json)

/-- The greatest number of readable containers inside each other. -/
def depthLimit : Nat := 127

/-- What a finished value does to the innermost open container. -/
def place (value : Json) : List Frame → Option (List Frame × Expecting)
  | [] => some ([], .nothing value)
  | .array items :: frames => some (.array (value :: items) :: frames, .next)
  | .member members name :: frames => some (.object ((name, value) :: members) :: frames, .next)
  | .nameless true :: frames => some (.nameless false :: frames, .next)
  | .object _ :: _ | .nameless false :: _ => none

/-- Places a container that has been closed inside the others. -/
def placeContainer (value : Json) (frames : List Frame) : Option (List Frame × Expecting) :=
  place (if frames.length < depthLimit then value else unreadable) frames

/-- Reads a token where a value has to stand. -/
def startValue (token : Token) (frames : List Frame) : Option (List Frame × Expecting) :=
  match token with
  | .openArray => some (.array [] :: frames, .firstItem)
  | .openObject => some (.object [] :: frames, .firstName)
  | .scalar value => place value frames
  | .quoted (some s) => place (str s) frames
  | .quoted none => place unreadable frames
  | _ => none

/-- Reads a token where the name of a member has to stand. -/
def startMember (token : Token) (frames : List Frame) : Option (List Frame × Expecting) :=
  match token, frames with
  | .quoted (some name), .object members :: frames =>
    some (.member members name :: frames, .colon)
  | .quoted none, .object _ :: frames | .quoted _, .nameless false :: frames =>
    some (.nameless true :: frames, .colon)
  | _, _ => none

def close (token : Token) (frames : List Frame) : Option (List Frame × Expecting) :=
  match token, frames with
  | .closeArray, .array items :: frames => placeContainer (arr items.reverse) frames
  | .closeObject, .object members :: frames => placeContainer (obj members.reverse) frames
  | .closeObject, .nameless false :: frames => place unreadable frames
  | _, _ => none

def step (frames : List Frame) (expecting : Expecting) (token : Token) :
    Option (List Frame × Expecting) :=
  match expecting with
  | .value => startValue token frames
  | .firstItem =>
    match token with
    | .closeArray => close token frames
    | _ => startValue token frames
  | .firstName =>
    match token with
    | .closeObject => close token frames
    | _ => startMember token frames
  | .name => startMember token frames
  | .colon =>
    match token with
    | .colon => some (frames, .value)
    | _ => none
  | .next =>
    match token, frames with
    | .comma, .array _ :: _ => some (frames, .value)
    | .comma, .object _ :: _ | .comma, .nameless _ :: _ => some (frames, .name)
    | _, _ => close token frames
  | .nothing _ => none

/-- The value of a text that is one JSON value with white space around it, with its unreadable
parts. -/
def skim? (s : String) : Option Json := do
  let tokens ← tokens? s.toList
  let (_, expecting) ← tokens.foldlM (fun (frames, expecting) token => step frames expecting token)
    ([], Expecting.value)
  match expecting with
  | .nothing value => some value
  | _ => none

/-- The value of a text that is one JSON value with white space around it, all of it readable. -/
def parse? (s : String) : Option Json := (skim? s).filter isReadable

end PhoenixLens.Json
