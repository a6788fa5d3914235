import PhoenixLens.Json.Basic

/-!
# Decoding JSON

A record is written as an object whose members may stand in any order, with unknown members
ignored and no field written twice, or as an array of its fields in order. `Record` reads the fields
of either form; each step takes one field. An optional field may be missing or `null`.
-/

namespace PhoenixLens.Json

/-- A record under decoding: the members of an object, or the fields of an array still to come. -/
inductive Record where
  | members (members : List (String × Json))
  | fields (items : List Json)

/-- Reading a record field by field; `none` is failure. -/
abbrev Reader := StateT Record Option

/-- The value of the next field, if it is written. -/
def nextField (name : String) : Reader (Option Json) := do
  match ← get with
  | .members members =>
    match members.filter fun m => m.1 == name with
    | [] => return none
    | [m] => return some m.2
    | _ => failure
  | .fields [] => return none
  | .fields (item :: items) =>
    set (Record.fields items)
    return some item

/-- A field that has to be written. -/
def required {α : Type} (name : String) (decode : Json → Option α) : Reader α := do
  match ← nextField name with
  | some value => decode value
  | none => failure

/-- A field with a value of its own when it is not written. -/
def withDefault {α : Type} (name : String) (default : α) (decode : Json → Option α) :
    Reader α := do
  match ← nextField name with
  | some value => decode value
  | none => return default

/-- A value that may be `null`. -/
def nullable {α : Type} (decode : Json → Option α) : Json → Option (Option α)
  | null => some none
  | value => (decode value).map some

def optional {α : Type} (name : String) (decode : Json → Option α) : Reader (Option α) :=
  withDefault name none (nullable decode)

/-- A field that may be `null`, or missing from an object; an array of the fields has an item for
it. -/
def orNull {α : Type} (name : String) (decode : Json → Option α) : Reader (Option α) := do
  match ← get with
  | .fields [] => failure
  | _ => optional name decode

def decodeRecord {α : Type} (reader : Reader α) : Json → Option α
  | obj members => (reader.run (.members members)).map (·.1)
  | arr items =>
    match reader.run (.fields items) with
    | some (a, .fields []) => some a
    | _ => none
  | _ => none

def decodeList {α : Type} (decode : Json → Option α) : Json → Option (List α)
  | arr items => items.mapM decode
  | _ => none

def decodeString : Json → Option String := asString?

def decodeText (value : Json) : Option (List Char) := value.asString?.map String.toList

def decodeBool : Json → Option Bool
  | bool b => some b
  | _ => none

/-- A natural number below a bound, such as `UInt32.size`. -/
def decodeNat (bound : Nat) (value : Json) : Option Nat := value.asNat?.filter (· < bound)

def decodeInt32 : Json → Option Int
  | int n => if -0x80000000 ≤ n && n < 0x80000000 then some n else none
  | _ => none

/-- The name of a plain alternative: a string, or an object that maps the name to `null`. -/
def decodeTag : Json → Option String
  | str s => some s
  | obj [(name, null)] => some name
  | _ => none

end PhoenixLens.Json
