import PhoenixLens.Exact.Shell.Token

/-!
# Expressions and outcomes of scripts

Integers of 64 bits with the operators that scripts know. Names stand for variables, which can be
assigned to.

What a program writes and how it ends, and the options and lines that programs read.
-/

namespace PhoenixLens.Shell

/-- Variables with their values. -/
abbrev Bindings := List (String × List Char)

/-- The value of a variable; one that is not set is empty. -/
def Bindings.value (bindings : Bindings) (name : String) : List Char :=
  (bindings.lookup name).getD []

def Bindings.set (bindings : Bindings) (name : String) (value : List Char) : Bindings :=
  (name, value) :: bindings.filter (·.1 != name)

/-- A decimal integer with a sign before it. -/
def integer? (cs : List Char) : Option Int :=
  let digits := if cs.head? == some '-' || cs.head? == some '+' then cs.tail else cs
  if digits.isEmpty || !digits.all Text.isAsciiDigit then none
  else
    let n := (digits.foldl (fun n c => 10 * n + (c.toNat - 48)) 0 : Nat)
    some (if cs.head? == some '-' then -(n : Int) else n)

/-- A number as scripts write it: hexadecimal behind `0x`, octal behind `0`, or decimal. -/
def numeral? : List Char → Option Int
  | '0' :: 'x' :: cs | '0' :: 'X' :: cs =>
    let (n, rest) := takeNumber 16 cs.length cs
    if cs.isEmpty || !rest.isEmpty then none else some n
  | '0' :: cs =>
    let (n, rest) := takeNumber 8 cs.length cs
    if rest.isEmpty then some n else none
  | cs => if cs.isEmpty then none else integer? cs

def digitsOf (n : Int) : List Char := (toString n).toList

/-- Keeps a number within 64 bits. -/
def wrap (n : Int) : Int := n.bmod UInt64.size

/-- Operators between two values by how tightly they bind, longer ones first. -/
def operators : List (List String) :=
  [["||"], ["&&"], ["|"], ["^"], ["&"], ["==", "!="], ["<=", ">=", "<", ">"], ["<<", ">>"],
    ["+", "-"], ["*", "/", "%"], ["**"]]

/-- The value of an operator; division by zero has none. -/
def operate (operator : String) (a b : Int) : Option Int :=
  let truth := fun (p : Bool) => some (if p then 1 else 0 : Int)
  match operator with
  | "||" => truth (a != 0 || b != 0)
  | "&&" => truth (a != 0 && b != 0)
  | "==" => truth (a == b)
  | "!=" => truth (a != b)
  | "<=" => truth (a ≤ b)
  | ">=" => truth (b ≤ a)
  | "<" => truth (a < b)
  | ">" => truth (b < a)
  | "|" => some (ofWord (word a ||| word b))
  | "^" => some (ofWord (word a ^^^ word b))
  | "&" => some (ofWord (word a &&& word b))
  | "<<" => some (ofWord (word a <<< (b.toNat % 64)))
  | ">>" => some (a >>> (b.toNat % 64))
  | "+" => some (wrap (a + b))
  | "-" => some (wrap (a - b))
  | "*" => some (wrap (a * b))
  | "/" => if b == 0 then none else some (wrap (a.tdiv b))
  | "%" => if b == 0 then none else some (a.tmod b)
  | "**" => if b < 0 then none else some (wrap (Int.pow a b.toNat))
  | _ => none
where
  word (n : Int) : Nat := (n.emod UInt64.size).toNat
  ofWord (n : Nat) : Int := wrap n

/-- Reading an expression while variables change; `none` is an error. -/
abbrev Calculation := StateT (List Char × Bindings) Option

namespace Calculation

def skipBlanks : Calculation Unit :=
  modify fun (cs, bindings) => (cs.dropWhile fun c => " \t\n".toList.contains c, bindings)

/-- Passes a text if it stands first and none of some characters follows it. -/
def pass (text : String) (without : String) : Calculation Bool := do
  skipBlanks
  let (cs, bindings) ← get
  match Text.stripPrefix? text cs with
  | some rest =>
    if rest.head?.any without.toList.contains then return false
    set (rest, bindings)
    return true
  | none => return false

/-- A name, if one stands first. -/
def name? : Calculation (Option String) := do
  skipBlanks
  let (cs, bindings) ← get
  let name := cs.takeWhile Text.isAsciiWord
  if name.isEmpty || name.head?.any Text.isAsciiDigit then return none
  set (cs.drop name.length, bindings)
  return some (String.ofList name)

def variableValue (name : String) : Calculation Int := do
  return (numeral? ((← get).2.value name)).getD 0

def assign (name : String) (n : Int) : Calculation Int := do
  modify fun (cs, bindings) => (cs, bindings.set name (digitsOf n))
  return n

/-- The operator among some that stands first; one before `=` assigns, and is none of them. -/
def operator? (choices : List String) : Calculation (Option String) := do
  for text in choices do
    let without :=
      if ["<=", ">=", "==", "!="].contains text then ""
      else if ["|", "&", "<", ">", "*"].contains text then
        text ++ "="
      else "="
    if ← pass text without then return some text
  return none

mutual

/-- Expressions with commas between them; the last one counts. -/
def joined (fuel : Nat) : Calculation Int :=
  match fuel with
  | 0 => failure
  | fuel + 1 => do
    let value ← whole fuel
    if ← pass "," "" then joined fuel else return value

/-- An assignment, a choice or an operation. -/
def whole (fuel : Nat) : Calculation Int :=
  match fuel with
  | 0 => failure
  | fuel + 1 => do
    let start ← get
    if let some name ← name? then
      if ← pass "=" "=" then return ← assign name (← whole fuel)
      for text in ["+", "-", "*", "/", "%", "<<", ">>", "&", "|", "^"] do
        if ← pass (text ++ "=") "" then
          let value ← variableValue name
          return ← assign name (← (operate text value (← whole fuel) : Option Int))
    set start
    let value ← level fuel 0
    if ← pass "?" "" then
      let first ← whole fuel
      if !(← pass ":" "") then failure
      let second ← whole fuel
      return if value != 0 then first else second
    else return value

/-- Operators that bind at least so tightly. -/
def level (fuel : Nat) (tightness : Nat) : Calculation Int :=
  match fuel with
  | 0 => failure
  | fuel + 1 => do
    match operators[tightness]? with
    | some choices => chain fuel tightness choices (← level fuel (tightness + 1))
    | none => single fuel

def chain (fuel : Nat) (tightness : Nat) (choices : List String) (first : Int) : Calculation Int :=
  match fuel with
  | 0 => failure
  | fuel + 1 => do
    match ← operator? choices with
    | some text =>
      let second ← level fuel (tightness + 1)
      chain fuel tightness choices (← (operate text first second : Option Int))
    | none => return first

/-- A number, a variable, a value in parentheses or one with a sign. -/
def single (fuel : Nat) : Calculation Int :=
  match fuel with
  | 0 => failure
  | fuel + 1 => do
    if ← pass "(" "" then
      let value ← joined fuel
      if !(← pass ")" "") then failure
      return value
    if ← pass "++" "" then return ← step fuel 1
    if ← pass "--" "" then return ← step fuel (-1)
    if ← pass "-" "" then return wrap (-(← single fuel))
    if ← pass "+" "" then return ← single fuel
    if ← pass "!" "" then return if (← single fuel) == 0 then 1 else 0
    if ← pass "~" "" then return -(← single fuel) - 1
    match ← name? with
    | some name =>
      let value ← variableValue name
      if ← pass "++" "" then
        let _ ← assign name (value + 1)
      else if ← pass "--" "" then
        let _ ← assign name (value - 1)
      return value
    | none =>
      let (cs, bindings) ← get
      let digits := cs.takeWhile Text.isAsciiAlphanumeric
      set (cs.drop digits.length, bindings)
      (wrap <$> numeral? digits : Option Int)

/-- Changes a variable before it is read. -/
def step (fuel : Nat) (change : Int) : Calculation Int :=
  match fuel with
  | 0 => failure
  | _ + 1 => do
    match ← name? with
    | some name => assign name (wrap ((← variableValue name) + change))
    | none => failure

end

end Calculation

/-- The value of an expression and the variables after it; an empty one is zero. -/
def calculate (bindings : Bindings) (cs : List Char) : Option (Int × Bindings) :=
  if cs.all fun c => " \t\n".toList.contains c then some (0, bindings)
  else
    match (Calculation.joined (16 * cs.length + 17)).run (cs, bindings) with
    | some (value, rest, bindings) =>
      if rest.all fun c => " \t\n".toList.contains c then some (value, bindings) else none
    | none => none

/-! ### Programs of a shell -/

/-- What a program writes and how it ends. -/
structure Outcome where
  output : List Char := []
  messages : List Char := []
  code : Nat := 0
deriving Repr

/-- Where a program writes to no purpose but its messages, and fails. -/
def Outcome.failure (message : String) (code : Nat) : Outcome :=
  { messages := byteText (message ++ "\n"), code }

/-- The lines of a text; whether the last one is closed does not matter. -/
def linesOf (cs : List Char) : List (List Char) :=
  let pieces := Text.splitAt '\n' cs
  if pieces.getLast? == some [] then pieces.dropLast else pieces

def unlines (lines : List (List Char)) : List Char := lines.flatMap (· ++ ['\n'])

/-- The text as wide as a number of characters, with blanks before it. -/
def padStart (width : Nat) (cs : List Char) : List Char :=
  List.replicate (width - cs.length) ' ' ++ cs

/-- Options of one letter before the other arguments; those in `valued` take a value. A `-` alone is
an argument, and `--` ends the options. -/
def optionsOf (valued : String) : List (List Char) → List (Char × List Char) × List (List Char)
  | [] => ([], [])
  | ['-', '-'] :: arguments => ([], arguments)
  | ('-' :: c :: cs) :: arguments => letters (c :: cs) arguments
  | arguments => ([], arguments)
where
  letters : List Char → List (List Char) → List (Char × List Char) × List (List Char)
    | [], arguments => optionsOf valued arguments
    | c :: cs, arguments =>
      if valued.toList.contains c then
        match cs, arguments with
        | [], value :: arguments =>
          let (options, rest) := optionsOf valued arguments
          ((c, value) :: options, rest)
        | cs, arguments =>
          let (options, rest) := optionsOf valued arguments
          ((c, cs) :: options, rest)
      else
        let (options, rest) := letters cs arguments
        ((c, []) :: options, rest)

def numberOf (options : List (Char × List Char)) (name : Char) : Option Nat :=
  (options.lookup name).bind fun value => (String.ofList value).toNat?

def hasOption (options : List (Char × List Char)) (name : Char) : Bool :=
  (options.lookup name).isSome

end PhoenixLens.Shell
