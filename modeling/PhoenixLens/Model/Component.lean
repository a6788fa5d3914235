import PhoenixLens.Path.Basic

/-!
# Components

A function component with its declared attributes and slots. A component may be written in several
clauses; the declarations of a later clause add what the earlier ones did not declare.
-/

namespace PhoenixLens

/-- The slot that takes the content of a tag outside any named slot. -/
def innerBlock : String := "inner_block"

structure Attribute where
  name : String
  type : String
  required : Bool := false
  default : Option String := none
  values : Option (List String) := none
  doc : Option String := none
deriving DecidableEq, Repr

structure Slot where
  name : String
  required : Bool := false
  doc : Option String := none
  attributes : List Attribute := []
deriving DecidableEq, Repr

structure Component where
  name : String
  moduleName : String
  filePath : Path := ⟨""⟩
  line : Nat
  attributes : List Attribute := []
  slots : List Slot := []
deriving DecidableEq, Repr

namespace Attribute

/-- Attributes of type `global` stand for any HTML attribute. -/
def isGlobal (declared : Attribute) : Bool := declared.type == "global"

def encode (declared : Attribute) : Json :=
  .obj [("name", .str declared.name), ("type", .str declared.type),
    ("required", .bool declared.required), ("default", .option .str declared.default),
    ("values", .option (.list .str) declared.values), ("doc", .option .str declared.doc)]

def decode : Json → Option Attribute := Json.decodeRecord do
  return {
    name := ← Json.required "name" Json.decodeString
    type := ← Json.required "type" Json.decodeString
    required := ← Json.withDefault "required" false Json.decodeBool
    default := ← Json.optional "default" Json.decodeString
    values := ← Json.optional "values" (Json.decodeList Json.decodeString)
    doc := ← Json.optional "doc" Json.decodeString }

end Attribute

namespace Slot

def encode (slot : Slot) : Json :=
  .obj [("name", .str slot.name), ("required", .bool slot.required),
    ("doc", .option .str slot.doc), ("attributes", .list Attribute.encode slot.attributes)]

def decode : Json → Option Slot := Json.decodeRecord do
  return {
    name := ← Json.required "name" Json.decodeString
    required := ← Json.withDefault "required" false Json.decodeBool
    doc := ← Json.optional "doc" Json.decodeString
    attributes := ← Json.withDefault "attributes" [] (Json.decodeList Attribute.decode) }

end Slot

namespace Component

def encode (component : Component) : Json :=
  .obj [("name", .str component.name), ("moduleName", .str component.moduleName),
    ("filePath", component.filePath.encode), ("line", .nat component.line),
    ("attributes", .list Attribute.encode component.attributes),
    ("slots", .list Slot.encode component.slots)]

def decode : Json → Option Component := Json.decodeRecord do
  return {
    name := ← Json.required "name" Json.decodeString
    moduleName := ← Json.required "moduleName" Json.decodeString
    filePath := ← Json.withDefault "filePath" ⟨""⟩ Path.decode
    line := ← Json.required "line" (Json.decodeNat UInt32.size)
    attributes := ← Json.withDefault "attributes" [] (Json.decodeList Attribute.decode)
    slots := ← Json.withDefault "slots" [] (Json.decodeList Slot.decode) }

def findAttribute? (component : Component) (name : String) : Option Attribute :=
  component.attributes.find? (·.name == name)

def findSlot? (component : Component) (name : String) : Option Slot :=
  component.slots.find? (·.name == name)

/-- The component takes HTML attributes that it does not declare. -/
def acceptsGlobal (component : Component) : Bool := component.attributes.any Attribute.isGlobal

/-- The component takes content for the slot; every component takes an inner block. -/
def acceptsSlot (component : Component) (name : String) : Bool :=
  name == innerBlock || (component.findSlot? name).isSome

/-- The attributes that every use of the component has to give. -/
def requiredAttributes (component : Component) : List Attribute :=
  component.attributes.filter fun a => a.required && !a.isGlobal

/-- The slots that every use of the component has to fill. -/
def requiredSlots (component : Component) : List Slot := component.slots.filter (·.required)

/-- Appends the items whose names are not taken yet. -/
def addNew {α : Type} (name : α → String) (items more : List α) : List α :=
  more.foldl (fun items a => if items.any (name · == name a) then items else items ++ [a]) items

/-- Adds a later clause: what it declares under a new name. -/
def mergeClause (component other : Component) : Component :=
  { component with
    attributes := addNew Attribute.name component.attributes other.attributes
    slots := addNew Slot.name component.slots other.slots }

/-- The name with its module, as it is written from elsewhere. -/
def qualifiedName (component : Component) : String :=
  component.moduleName ++ "." ++ component.name

/-- Both are clauses of one component. -/
def isClauseOf (component other : Component) : Bool :=
  component.moduleName == other.moduleName && component.name == other.name

end Component

end PhoenixLens
