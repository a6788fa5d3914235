import PhoenixLens.Path.Basic

/-!
# Schemas

A database schema with its fields and its associations with other schemas.
-/

namespace PhoenixLens

inductive AssociationType where
  | belongsTo
  | hasOne
  | hasMany
  | manyToMany
  | embedsOne
  | embedsMany
deriving DecidableEq, Repr

structure SchemaField where
  name : String
  type : String
  default : Option String := none
deriving DecidableEq, Repr

structure Association where
  fieldName : String
  targetModule : String
  type : AssociationType
deriving DecidableEq, Repr

structure SchemaInfo where
  moduleName : String
  tableName : Option String := none
  filePath : Path := ⟨""⟩
  line : Nat := 0
  fields : List SchemaField := []
  associations : List Association := []
deriving DecidableEq, Repr

namespace AssociationType

/-- The macro that declares an association of the type. -/
def tag : AssociationType → String
  | belongsTo => "belongs_to"
  | hasOne => "has_one"
  | hasMany => "has_many"
  | manyToMany => "many_to_many"
  | embedsOne => "embeds_one"
  | embedsMany => "embeds_many"

def ofTag? : String → Option AssociationType
  | "belongs_to" => some belongsTo
  | "has_one" => some hasOne
  | "has_many" => some hasMany
  | "many_to_many" => some manyToMany
  | "embeds_one" => some embedsOne
  | "embeds_many" => some embedsMany
  | _ => none

/-- The association leads to a list. -/
def isMany : AssociationType → Bool
  | hasMany | manyToMany | embedsMany => true
  | _ => false

theorem ofTag?_tag (t : AssociationType) : ofTag? t.tag = some t := by cases t <;> rfl

end AssociationType

namespace SchemaField

def encode (field : SchemaField) : Json :=
  .obj [("name", .str field.name), ("type", .str field.type),
    ("default", .option .str field.default)]

def decode : Json → Option SchemaField := Json.decodeRecord do
  return {
    name := ← Json.required "name" Json.decodeString
    type := ← Json.required "type" Json.decodeString
    default := ← Json.optional "default" Json.decodeString }

end SchemaField

namespace Association

def encode (association : Association) : Json :=
  .obj [("fieldName", .str association.fieldName), ("targetModule", .str association.targetModule),
    ("type", .str association.type.tag)]

def decode : Json → Option Association := Json.decodeRecord do
  return {
    fieldName := ← Json.required "fieldName" Json.decodeString
    targetModule := ← Json.required "targetModule" Json.decodeString
    type := ← Json.required "type" fun v => Json.decodeTag v >>= AssociationType.ofTag? }

end Association

namespace SchemaInfo

def findField? (schema : SchemaInfo) (name : String) : Option SchemaField :=
  schema.fields.find? (·.name == name)

def findAssociation? (schema : SchemaInfo) (name : String) : Option Association :=
  schema.associations.find? (·.fieldName == name)

def encode (schema : SchemaInfo) : Json :=
  .obj [("moduleName", .str schema.moduleName), ("tableName", .option .str schema.tableName),
    ("filePath", schema.filePath.encode), ("line", .nat schema.line),
    ("fields", .list SchemaField.encode schema.fields),
    ("associations", .list Association.encode schema.associations)]

def decode : Json → Option SchemaInfo := Json.decodeRecord do
  return {
    moduleName := ← Json.required "moduleName" Json.decodeString
    tableName := ← Json.optional "tableName" Json.decodeString
    filePath := ← Json.withDefault "filePath" ⟨""⟩ Path.decode
    line := ← Json.withDefault "line" 0 (Json.decodeNat UInt32.size)
    fields := ← Json.withDefault "fields" [] (Json.decodeList SchemaField.decode)
    associations := ← Json.withDefault "associations" [] (Json.decodeList Association.decode) }

end SchemaInfo

end PhoenixLens
