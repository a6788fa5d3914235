import PhoenixLens.Components.Resolution
import PhoenixLens.Editor.Location
import PhoenixLens.Markup.Extractor
import PhoenixLens.Markup.Mask
import PhoenixLens.Routing.Match

/-!
# Definitions

Where the route of a verified path or the component that a tag names is defined.
-/

namespace PhoenixLens

/-- The definition of the route whose path stands at an offset. -/
def routeDefinition? (index : Index) (text : List Char) (offset : Nat) : Option Location := do
  let written ← (Routing.verifiedRoutes text).find? fun r => r.start ≤ offset && offset ≤ r.stop
  let route ← index.routeForPartial? written.path
  Location.ofLine? route.filePath route.line

/-- The definition of the component whose name stands at an offset. The framework's own components
have none. -/
def componentDefinition? (disk : Disk) (index : Index) (file : Path) (text : List Char)
    (stack : List ComponentUsage) (offset : Nat) : Option Location := do
  let usage ← stack.reverse.find? fun u => u.nameStart ≤ offset && offset ≤ u.nameEnd
  let query : ComponentQuery :=
    { file, name := usage.componentName, moduleName := usage.moduleContext
      content := some (String.ofList text) }
  let component ← query.resolve? disk index
  if component.filePath.text.isEmpty then failure
  Location.ofLine? component.filePath component.line

/-- The definition of what stands at an offset. The uses of components around it are asked of the
extractor unless a route is defined there. -/
def definition? (disk : Disk) (index : Index) (extractor : Markup.UsageExtractor) (key : String)
    (file : Path) (text : List Char) (offset : Nat) : Option Location × Markup.UsageExtractor :=
  match routeDefinition? index text offset with
  | some location => (some location, extractor)
  | none =>
    let stack := extractor.stackAt key (Markup.templateText file text) offset
    (componentDefinition? disk index file text stack offset, extractor.touch key)

end PhoenixLens
