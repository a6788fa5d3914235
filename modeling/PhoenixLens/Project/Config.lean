import PhoenixLens.Json.Parser
import PhoenixLens.Project.SourceFilter

/-!
# Configuration

The settings of a project, from the file `phxlsp.json` in its root. A file that is missing or cannot
be read as settings gives the defaults.
-/

namespace PhoenixLens

structure ParserConfig where
  exact : Bool := true
  command : String := "elixir"
  scriptsDir : Option String := none
  maxConcurrent : Nat := 10
  probeTimeoutMs : Nat := 2000
  parseTimeoutMs : Nat := 10000
  fileCacheSize : Nat := 200
  contentCacheSize : Nat := 100
deriving DecidableEq, Repr

/-- Which diagnostics are given, and how severe they are. -/
structure DiagnosticsConfig where
  enabled : Bool := true
  severity : String := "warning"
  unknownComponents : Bool := true
  unknownAttributes : Bool := true
  missingRequired : Bool := true
  loopKeys : Bool := true
  verifiedRoutes : Bool := true
deriving DecidableEq, Repr

structure Config where
  inclusions : List String := []
  exclusions : List String := []
  cache : Bool := false
  debounceMs : Nat := 300
  parser : ParserConfig := {}
  diagnostics : DiagnosticsConfig := {}
deriving DecidableEq, Repr

namespace ParserConfig

def encode (config : ParserConfig) : Json :=
  .obj [("exact", .bool config.exact), ("command", .str config.command),
    ("scriptsDir", .option .str config.scriptsDir), ("maxConcurrent", .nat config.maxConcurrent),
    ("probeTimeoutMs", .nat config.probeTimeoutMs),
    ("parseTimeoutMs", .nat config.parseTimeoutMs), ("fileCacheSize", .nat config.fileCacheSize),
    ("contentCacheSize", .nat config.contentCacheSize)]

def decode : Json → Option ParserConfig :=
  Json.decodeRecord do
    return {
      exact := ← Json.withDefault "exact" true Json.decodeBool
      command := ← Json.withDefault "command" "elixir" Json.decodeString
      scriptsDir := ← Json.optional "scriptsDir" Json.decodeString
      maxConcurrent := ← Json.withDefault "maxConcurrent" 10 (Json.decodeNat UInt64.size)
      probeTimeoutMs := ← Json.withDefault "probeTimeoutMs" 2000 (Json.decodeNat UInt64.size)
      parseTimeoutMs := ← Json.withDefault "parseTimeoutMs" 10000 (Json.decodeNat UInt64.size)
      fileCacheSize := ← Json.withDefault "fileCacheSize" 200 (Json.decodeNat UInt64.size)
      contentCacheSize := ← Json.withDefault "contentCacheSize" 100 (Json.decodeNat UInt64.size) }

end ParserConfig

namespace DiagnosticsConfig

def encode (config : DiagnosticsConfig) : Json :=
  .obj [("enabled", .bool config.enabled), ("severity", .str config.severity),
    ("unknownComponents", .bool config.unknownComponents),
    ("unknownAttributes", .bool config.unknownAttributes),
    ("missingRequired", .bool config.missingRequired), ("loopKeys", .bool config.loopKeys),
    ("verifiedRoutes", .bool config.verifiedRoutes)]

def decode : Json → Option DiagnosticsConfig :=
  Json.decodeRecord do
    return {
      enabled := ← Json.withDefault "enabled" true Json.decodeBool
      severity := ← Json.withDefault "severity" "warning" Json.decodeString
      unknownComponents := ← Json.withDefault "unknownComponents" true Json.decodeBool
      unknownAttributes := ← Json.withDefault "unknownAttributes" true Json.decodeBool
      missingRequired := ← Json.withDefault "missingRequired" true Json.decodeBool
      loopKeys := ← Json.withDefault "loopKeys" true Json.decodeBool
      verifiedRoutes := ← Json.withDefault "verifiedRoutes" true Json.decodeBool }

end DiagnosticsConfig

namespace Config

def encode (config : Config) : Json :=
  .obj [("include", .list .str config.inclusions), ("exclude", .list .str config.exclusions),
    ("cache", .bool config.cache), ("debounceMs", .nat config.debounceMs),
    ("parser", config.parser.encode), ("diagnostics", config.diagnostics.encode)]

def decode : Json → Option Config :=
  Json.decodeRecord do
    return {
      inclusions := ← Json.withDefault "include" [] (Json.decodeList Json.decodeString)
      exclusions := ← Json.withDefault "exclude" [] (Json.decodeList Json.decodeString)
      cache := ← Json.withDefault "cache" false Json.decodeBool
      debounceMs := ← Json.withDefault "debounceMs" 300 (Json.decodeNat UInt64.size)
      parser := ← Json.withDefault "parser" {} ParserConfig.decode
      diagnostics := ← Json.withDefault "diagnostics" {} DiagnosticsConfig.decode }

def ofText (text : String) : Config := ((Json.skim? text).bind decode).getD {}

def fileName : String := "phxlsp.json"

def load (disk : Disk) (directory : Path) : Config :=
  match disk.read? (directory.join fileName) with
  | some text => ofText text
  | none => {}

def sourceFilter (config : Config) : Except FilterError SourceFilter :=
  SourceFilter.ofPatterns config.inclusions config.exclusions

end Config

/-- The value of an environment variable switches something on. -/
def isFlagSet (value : Option String) : Bool :=
  value.any fun v =>
    ["1", "true", "yes"].contains (String.ofList (Text.asciiLowercase (Text.trim v.toList)))

/-- The exact parser is used, unless an environment variable switches it off. -/
def ParserConfig.exactEnabled (config : ParserConfig) (disabled : Option String) : Bool :=
  config.exact && !isFlagSet disabled

end PhoenixLens
