import PhoenixLens.Components.Resolution
import PhoenixLens.Editor.Location
import PhoenixLens.Markup.Extractor
import PhoenixLens.Markup.Mask
import PhoenixLens.Routing.Match

/-!
# Diagnostics

What is wrong with the templates of a file: unknown components, unknown and missing attributes,
missing slots, loops without keys, and verified routes that no route matches.
-/

namespace PhoenixLens

inductive Severity where
  | error
  | warning
  | information
  | hint
deriving DecidableEq, Repr

namespace Severity

def number : Severity → Nat
  | error => 1
  | warning => 2
  | information => 3
  | hint => 4

/-- The severity of a name in upper or lower case; other names mean warnings. -/
def ofName (name : String) : Severity :=
  match String.ofList (Text.asciiLowercase name.toList) with
  | "error" => error
  | "hint" => hint
  | "information" | "info" => information
  | _ => warning

end Severity

/-- What a diagnostic is about. -/
inductive Finding where
  | unknownComponent (tag : String)
  | unknownAttribute (name tag : String)
  | missingAttribute (name tag : String)
  | missingSlot (name tag : String)
  | missingLoopKey
  /-- Items of a stream need the given variable as their identifier. -/
  | missingStreamKey (variableName : String)
  | unknownRoute (path : String)
deriving DecidableEq, Repr

namespace Finding

def code : Finding → String
  | unknownComponent _ => "unknown-component"
  | unknownAttribute _ _ => "unknown-attribute"
  | missingAttribute _ _ => "missing-attribute"
  | missingSlot _ _ => "missing-slot"
  | missingLoopKey | missingStreamKey _ => "missing-loop-key"
  | unknownRoute _ => "unknown-route"

def message : Finding → String
  | unknownComponent tag => "Unknown component <" ++ tag ++ ">"
  | unknownAttribute name tag => "Unknown attribute '" ++ name ++ "' for <" ++ tag ++ ">"
  | missingAttribute name tag =>
    "Missing required attribute '" ++ name ++ "' for <" ++ tag ++ ">"
  | missingSlot name tag => "Missing required slot '" ++ name ++ "' for <" ++ tag ++ ">"
  | missingLoopKey => "Missing :key or id for :for comprehension"
  | missingStreamKey variableName =>
    "Stream items rendered with :for need id=\x7b" ++ variableName ++ "\x7d"
  | unknownRoute path => "No route matches " ++ path

end Finding

/-- A finding with its offsets in the text. -/
structure Diagnostic where
  start : Nat
  stop : Nat
  finding : Finding
deriving DecidableEq, Repr

def Diagnostic.encode (text : List Char) (severity : Severity) (diagnostic : Diagnostic) : Json :=
  .obj [("range", (Text.rangeOfOffsets text diagnostic.start diagnostic.stop).encode),
    ("severity", .nat severity.number), ("code", .str diagnostic.finding.code),
    ("source", .str "phoenix-lsp"), ("message", .str diagnostic.finding.message)]

namespace DiagnosticsConfig

def isKnownAttribute (component : Component) (name : String) : Bool :=
  isAlwaysAllowed name || (component.findAttribute? name).isSome ||
    (component.acceptsGlobal && isHtmlAttribute name)

/-- What is wrong with the use of a component. -/
def checkUsage (config : DiagnosticsConfig) (usage : ComponentUsage) (component : Component) :
    List Diagnostic :=
  let tag := usage.tagName
  let atName := fun finding => { start := usage.nameStart, stop := usage.nameEnd, finding }
  let unknown := (usage.attributes.filter fun a => !isKnownAttribute component a.name).map fun a =>
    { start := a.nameStart, stop := a.nameEnd, finding := .unknownAttribute a.name tag }
  let attributes := component.requiredAttributes.filter fun a =>
    (usage.findAttribute? a.name).isNone
  let slots := component.requiredSlots.filter fun s => !usage.providesSlot s.name
  (if config.unknownAttributes then unknown else []) ++
    (if config.missingRequired then
      (attributes.map fun a => atName (.missingAttribute a.name tag)) ++
        slots.map fun s => atName (.missingSlot s.name tag)
    else [])

/-- What is wrong with a tag that means a component or nothing. -/
def checkTag (config : DiagnosticsConfig) (disk : Disk) (index : Index) (file : Path)
    (text : List Char) (usage : ComponentUsage) : List Diagnostic :=
  let query : ComponentQuery :=
    { file, name := usage.componentName, moduleName := usage.moduleContext
      content := some (String.ofList text) }
  match query.resolve? disk index with
  | some component => config.checkUsage usage component
  | none =>
    if config.unknownComponents then
      [{ start := usage.nameStart, stop := usage.nameEnd
         finding := .unknownComponent usage.tagName }]
    else []

/-! ### Loops -/

/-- The generator of a loop without the braces and white space around it. -/
def generatorOf (value : String) : List Char :=
  let cs := value.toList
  Text.trim (((Text.stripPrefix? "\x7b" cs).bind (Text.stripSuffix? "\x7d")).getD cs)

/-- The variable for the identifiers of items, where a loop goes over a stream:
`\x7bid, item\x7d <- @streams.items`. -/
def streamVariable? (cs : List Char) : Option (List Char) := do
  let (name, rest) ← Text.takeSome? Text.isWord (Text.trimStart (← Text.stripPrefix? "\x7b" cs))
  if !name.head?.any Text.startsIdentifier then failure
  let rest ← Text.stripPrefix? "," (Text.trimStart rest)
  let rest ← Text.stripPrefix? "\x7d" (rest.dropWhile (· != '\x7d'))
  let rest ← Text.stripPrefix? "<-" (Text.trimStart rest)
  let _ ← Text.stripPrefix? "@streams." (Text.trimStart rest)
  return name

/-- What is wrong with the loop of a tag. -/
def checkLoop (tag : Markup.OpenTag) : Option Diagnostic := do
  let given := fun name => tag.attributes.find? fun a : UsageAttribute => a.name == name
  let loop ← given ":for"
  if tag.name.head? == some ':' || (given ":key").isSome then failure
  let report := fun finding =>
    ({ start := loop.nameStart, stop := loop.nameEnd, finding } : Diagnostic)
  match streamVariable? (generatorOf (loop.value.getD "")) with
  | some name =>
    if ((given "id").bind UsageAttribute.expression?) == some (String.ofList name) then failure
    else return report (.missingStreamKey (String.ofList name))
  | none => if (given "id").isSome then failure else return report .missingLoopKey

/-! ### Routes -/

/-- The verified routes of a text that no route matches. Without any routes, none are missed. -/
def checkRoutes (index : Index) (text : List Char) : List Diagnostic :=
  if index.routes.entityCount == 0 then []
  else
    ((Routing.verifiedRoutes text).filter fun r => (index.routeFor? r.path).isNone).map fun r =>
      { start := r.start, stop := r.stop, finding := .unknownRoute (String.ofList r.path) }

/-- What is wrong with a template, given the uses of components in it. -/
def checkTemplate (config : DiagnosticsConfig) (disk : Disk) (index : Index) (file : Path)
    (text template : List Char) (usages : List ComponentUsage) : List Diagnostic :=
  usages.flatMap (config.checkTag disk index file text) ++
    (if config.loopKeys then (Markup.openTags 0 template).filterMap checkLoop else [])

/-- What is wrong with a file. The uses of components in its template are asked of the
extractor. -/
def diagnose (config : DiagnosticsConfig) (disk : Disk) (index : Index)
    (extractor : Markup.UsageExtractor) (key : String) (file : Path) (text : List Char) :
    List Diagnostic × Markup.UsageExtractor :=
  if !config.enabled then ([], extractor)
  else
    let routes := if config.verifiedRoutes then checkRoutes index text else []
    if Markup.hasTemplate file text then
      let template := Markup.templateText file text
      let (usages, _) := extractor.usages key template
      (config.checkTemplate disk index file text template usages ++ routes, extractor.touch key)
    else (routes, extractor)

def encodeAll (config : DiagnosticsConfig) (text : List Char) (found : List Diagnostic) : Json :=
  .list (Diagnostic.encode text (Severity.ofName config.severity)) found

end DiagnosticsConfig

end PhoenixLens
