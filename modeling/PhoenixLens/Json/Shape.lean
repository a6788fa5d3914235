import PhoenixLens.Json.Decode

/-!
# Shapes of JSON values

What a value has to look like where it is read only to be checked. A record has the two written
forms that decoding knows: an object, or an array of all its fields in order.
-/

namespace PhoenixLens

/-- Which values are of a shape. -/
abbrev Shape := Json → Bool

namespace Shape

structure Field where
  name : String
  /-- Whether the field may be missing from an object, or be `null`. -/
  isOptional : Bool
  shape : Shape

/-- A field that has to be written. -/
def must (name : String) (shape : Shape) : Field := { name, isOptional := false, shape }

/-- A field that may be missing or `null`. -/
def may (name : String) (shape : Shape) : Field := { name, isOptional := true, shape }

/-- Fields of the same shape that may be missing or `null`. -/
def mays (shape : Shape) (names : List String) : List Field := names.map (may · shape)

def Field.holds (field : Field) : Shape
  | .null => field.isOptional || field.shape .null
  | value => field.shape value

def members (fields : List Field) : Shape
  | .obj written =>
    fields.all fun field =>
      match written.filter (·.1 == field.name) with
      | [] => field.isOptional
      | [m] => field.holds m.2
      | _ => false
  | _ => false

def record (fields : List Field) : Shape
  | .arr items =>
    items.length == fields.length && (fields.zip items).all fun (field, item) => field.holds item
  | value => members fields value

def any : Shape := fun _ => true

def string (value : Json) : Bool := value.asString?.isSome

def bool (value : Json) : Bool := (Json.decodeBool value).isSome

def number : Shape
  | .int _ | .decimal _ => true
  | _ => false

/-- A natural number of 32 bits. -/
def nat32 (value : Json) : Bool := (Json.decodeNat UInt32.size value).isSome

/-- An integer of 32 bits. -/
def int32 (value : Json) : Bool := (Json.decodeInt32 value).isSome

def oneOf (names : List String) (value : Json) : Bool := (Json.decodeTag value).any names.contains

def list (shape : Shape) : Shape
  | .arr items => items.all shape
  | _ => false

/-- An object that maps names of one shape to values of another one. -/
def map (name value : Shape) : Shape
  | .obj members => members.all fun m => name (.str m.1) && value m.2
  | _ => false

def either (shape other : Shape) : Shape := fun value => shape value || other value

end Shape

end PhoenixLens
