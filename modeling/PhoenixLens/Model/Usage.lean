import PhoenixLens.Json.Decode
import PhoenixLens.Text.Basic

/-!
# Uses of components

A tag that calls a component, with the byte ranges of its parts in the template. An open tag reaches
from `openTagStart` to `openTagEnd`; the block reaches on to `blockEnd`, the end of the closing tag
if there is one.
-/

namespace PhoenixLens

/-- An attribute as a tag gives it. The range of a quoted value leaves out the quotes; the value of
an expression keeps its braces. -/
structure UsageAttribute where
  name : String
  nameStart : Nat
  nameEnd : Nat
  value : Option String := none
  valueStart : Option Nat := none
  valueEnd : Option Nat := none
deriving DecidableEq, Repr

structure UsageSlot where
  name : String
  start : Nat
  openTagEnd : Nat
  stop : Nat
  attributes : List UsageAttribute := []
  selfClosing : Bool := false
deriving DecidableEq, Repr

/-- A tag that calls a component. -/
structure ComponentUsage where
  componentName : String
  /-- The module that the tag names. -/
  moduleContext : Option String := none
  isLocal : Bool
  openTagStart : Nat
  openTagEnd : Nat
  nameStart : Nat
  nameEnd : Nat
  attributes : List UsageAttribute := []
  slots : List UsageSlot := []
  selfClosing : Bool
  contentStart : Option Nat := none
  contentEnd : Option Nat := none
  blockEnd : Nat
  providedSlotNames : List String := []
deriving DecidableEq, Repr

namespace UsageAttribute

/-- The value is an expression in braces. -/
def isExpression (given : UsageAttribute) : Bool :=
  given.value.any fun v => Text.startsWith "\x7b" v.toList

/-- The expression between the braces, without white space around it. -/
def expression? (given : UsageAttribute) : Option String := do
  let inner ← Text.stripPrefix? "\x7b" (← given.value).toList
  return String.ofList (Text.trim (← Text.stripSuffix? "\x7d" inner))

def encode (given : UsageAttribute) : Json :=
  .obj [("name", .str given.name), ("nameStart", .nat given.nameStart),
    ("nameEnd", .nat given.nameEnd), ("value", .option .str given.value),
    ("valueStart", .option .nat given.valueStart),
    ("valueEnd", .option .nat given.valueEnd)]

def decode : Json → Option UsageAttribute := Json.decodeRecord do
  return {
    name := ← Json.required "name" Json.decodeString
    nameStart := ← Json.required "nameStart" (Json.decodeNat UInt64.size)
    nameEnd := ← Json.required "nameEnd" (Json.decodeNat UInt64.size)
    value := ← Json.optional "value" Json.decodeString
    valueStart := ← Json.optional "valueStart" (Json.decodeNat UInt64.size)
    valueEnd := ← Json.optional "valueEnd" (Json.decodeNat UInt64.size) }

end UsageAttribute

namespace UsageSlot

def encode (slot : UsageSlot) : Json :=
  .obj [("name", .str slot.name), ("start", .nat slot.start), ("openTagEnd", .nat slot.openTagEnd),
    ("end", .nat slot.stop), ("attributes", .list UsageAttribute.encode slot.attributes),
    ("selfClosing", .bool slot.selfClosing)]

def decode : Json → Option UsageSlot := Json.decodeRecord do
  return {
    name := ← Json.required "name" Json.decodeString
    start := ← Json.required "start" (Json.decodeNat UInt64.size)
    openTagEnd := ← Json.required "openTagEnd" (Json.decodeNat UInt64.size)
    stop := ← Json.required "end" (Json.decodeNat UInt64.size)
    attributes := ← Json.withDefault "attributes" [] (Json.decodeList UsageAttribute.decode)
    selfClosing := ← Json.withDefault "selfClosing" false Json.decodeBool }

end UsageSlot

namespace ComponentUsage

/-- The block of the tag contains the offset, ends included. -/
def contains (usage : ComponentUsage) (offset : Nat) : Bool :=
  usage.openTagStart ≤ offset && offset ≤ usage.blockEnd

/-- The offset stands behind the name and before the end of the open tag. -/
def inOpenTag (usage : ComponentUsage) (offset : Nat) : Bool :=
  usage.nameEnd < offset && offset < max usage.openTagEnd (usage.nameEnd + 1)

def findAttribute? (usage : ComponentUsage) (name : String) : Option UsageAttribute :=
  usage.attributes.find? (·.name == name)

def providesSlot (usage : ComponentUsage) (name : String) : Bool :=
  usage.providedSlotNames.contains name

def tagName (usage : ComponentUsage) : String :=
  match usage.moduleContext with
  | some moduleName => moduleName ++ "." ++ usage.componentName
  | none => "." ++ usage.componentName

def encode (usage : ComponentUsage) : Json :=
  .obj [("componentName", .str usage.componentName),
    ("moduleContext", .option .str usage.moduleContext), ("isLocal", .bool usage.isLocal),
    ("openTagStart", .nat usage.openTagStart), ("openTagEnd", .nat usage.openTagEnd),
    ("nameStart", .nat usage.nameStart), ("nameEnd", .nat usage.nameEnd),
    ("attributes", .list UsageAttribute.encode usage.attributes),
    ("slots", .list UsageSlot.encode usage.slots), ("selfClosing", .bool usage.selfClosing),
    ("contentStart", .option .nat usage.contentStart),
    ("contentEnd", .option .nat usage.contentEnd), ("blockEnd", .nat usage.blockEnd),
    ("providedSlotNames", .list .str usage.providedSlotNames)]

def decode : Json → Option ComponentUsage := Json.decodeRecord do
  return {
    componentName := ← Json.required "componentName" Json.decodeString
    moduleContext := ← Json.optional "moduleContext" Json.decodeString
    isLocal := ← Json.required "isLocal" Json.decodeBool
    openTagStart := ← Json.required "openTagStart" (Json.decodeNat UInt64.size)
    openTagEnd := ← Json.required "openTagEnd" (Json.decodeNat UInt64.size)
    nameStart := ← Json.required "nameStart" (Json.decodeNat UInt64.size)
    nameEnd := ← Json.required "nameEnd" (Json.decodeNat UInt64.size)
    attributes := ← Json.withDefault "attributes" [] (Json.decodeList UsageAttribute.decode)
    slots := ← Json.withDefault "slots" [] (Json.decodeList UsageSlot.decode)
    selfClosing := ← Json.required "selfClosing" Json.decodeBool
    contentStart := ← Json.optional "contentStart" (Json.decodeNat UInt64.size)
    contentEnd := ← Json.optional "contentEnd" (Json.decodeNat UInt64.size)
    blockEnd := ← Json.required "blockEnd" (Json.decodeNat UInt64.size)
    providedSlotNames := ←
      Json.withDefault "providedSlotNames" [] (Json.decodeList Json.decodeString) }

end ComponentUsage

end PhoenixLens
