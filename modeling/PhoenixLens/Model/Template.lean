import PhoenixLens.Path.Basic

/-!
# Templates

A template and the module that renders it.
-/

namespace PhoenixLens

/-- How a template belongs to its module. -/
inductive TemplateKind where
  /-- Taken in by a pattern of file names. -/
  | embedded
  /-- Written inside a function. -/
  | function
  /-- Beside the module's file, under the same name. -/
  | colocated
deriving DecidableEq, Repr

structure TemplateInfo where
  name : String
  moduleName : String
  filePath : Path
  moduleFile : Path := ⟨""⟩
  line : Nat := 0
  kind : TemplateKind
  format : String := "html"
deriving DecidableEq, Repr

namespace TemplateKind

def tag : TemplateKind → String
  | embedded => "embedded"
  | function => "function"
  | colocated => "colocated"

def ofTag? : String → Option TemplateKind
  | "embedded" => some embedded
  | "function" => some function
  | "colocated" => some colocated
  | _ => none

end TemplateKind

namespace TemplateInfo

def encode (template : TemplateInfo) : Json :=
  .obj [("name", .str template.name), ("moduleName", .str template.moduleName),
    ("filePath", template.filePath.encode), ("moduleFile", template.moduleFile.encode),
    ("line", .nat template.line), ("kind", .str template.kind.tag),
    ("format", .str template.format)]

def decode : Json → Option TemplateInfo := Json.decodeRecord do
  return {
    name := ← Json.required "name" Json.decodeString
    moduleName := ← Json.required "moduleName" Json.decodeString
    filePath := ← Json.required "filePath" Path.decode
    moduleFile := ← Json.withDefault "moduleFile" ⟨""⟩ Path.decode
    line := ← Json.withDefault "line" 0 (Json.decodeNat UInt32.size)
    kind := ← Json.required "kind" fun v => Json.decodeTag v >>= TemplateKind.ofTag?
    format := ← Json.withDefault "format" "html" Json.decodeString }

end TemplateInfo

end PhoenixLens
