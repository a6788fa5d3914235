import PhoenixLens.Components.Resolution
import PhoenixLens.Markup.Extractor
import PhoenixLens.Markup.Mask
import PhoenixLens.Schemas.Assigns
import PhoenixLens.Text.Position

/-!
# Completion

What can be written at a place in a file. The text of the line before it tells what is being
written: the path of a route, an assign, a field of one, or the name of a component. Elsewhere the
tag around the place tells which slots and attributes can come.
-/

namespace PhoenixLens

/-- What an offer stands for. -/
inductive OfferKind where
  | component
  | schemaField
  | assign
  | association
  | property
  | slot
  | route
deriving DecidableEq, Repr

def OfferKind.number : OfferKind → Nat
  | component => 3
  | schemaField => 5
  | assign => 6
  | association => 9
  | property => 10
  | slot => 15
  | route => 18

/-- What is told of an offer. -/
inductive Documentation where
  | plain (text : String)
  | markdown (text : String)
deriving DecidableEq, Repr

def Documentation.encode : Documentation → Json
  | plain text => .str text
  | markdown text => .obj [("kind", .str "markdown"), ("value", .str text)]

/-- Something that can be written at a place. -/
structure Offer where
  label : String
  kind : OfferKind
  detail : Option String := none
  documentation : Option Documentation := none
  /-- What is written, if not the label. -/
  insertText : Option String := none
  /-- The text by which offers are ordered, if not by the label. -/
  sortText : Option String := none
  description : Option String := none
deriving DecidableEq, Repr

/-- An offer without what is not told of it. -/
def Offer.encode (offer : Offer) : Json :=
  let member := fun (name : String) (value : Option Json) => (value.map fun v => (name, v)).toList
  .obj ([("label", .str offer.label), ("kind", .nat offer.kind.number)] ++
    member "detail" (offer.detail.map .str) ++
    member "documentation" (offer.documentation.map Documentation.encode) ++
    member "insertText" (offer.insertText.map .str) ++
    member "sortText" (offer.sortText.map .str) ++
    member "labelDetails" (offer.description.map fun d => .obj [("description", .str d)]))

/-- What is being written at a place. -/
inductive WritingContext where
  | route (beginning : List Char)
  | assignField (base : List Char) (steps : List (List Char))
  | assignName
  | componentName
  /-- Something inside a tag or its content; `isSlot` if it is the name of a slot. -/
  | markup (isSlot : Bool)
deriving DecidableEq, Repr

namespace WritingContext

/-- What stands before the last occurrence of a character and what stands behind it. -/
def cutAtLast? (c : Char) (cs : List Char) : Option (List Char × List Char) :=
  let behind := (cs.reverse.takeWhile (· != c)).reverse
  if behind.length == cs.length then none
  else some (cs.take (cs.length - behind.length - 1), behind)

/-- The beginning of a path in quotes, behind the sigil of verified routes or an attribute for
links. -/
def routeBeginning? (line : List Char) : Option (List Char) := do
  let (before, written) ← cutAtLast? '"' line
  let opens := ["~p", "navigate=", "patch=", "href="].any fun s => Text.endsWith s before
  if opens && !written.any Text.isBlank then return written else failure

/-- The assign and the steps of a path behind which a field comes. -/
def assignSteps? (line : List Char) : Option (List Char × List (List Char)) := do
  let (_, written) ← cutAtLast? '@' line
  let parts := Text.splitAt '.' written
  let steps := parts.dropLast
  let field ← parts.getLast?
  match steps with
  | base :: steps =>
    if (base :: steps).all isVariable && field.all Text.isWord then return (base, steps)
    else failure
  | [] => failure

/-- The line ends in the given opening and the beginning of a name. -/
def endsInName (opening : String) (line : List Char) : Bool :=
  Text.endsWith opening (Text.dropEndWhile Text.isWord line)

/-- What is being written behind the given beginning of a line. -/
def ofLine (line : List Char) : WritingContext :=
  match routeBeginning? line, assignSteps? line with
  | some beginning, _ => route beginning
  | none, some (base, steps) => assignField base steps
  | none, none =>
    if endsInName "@" line then assignName
    else if endsInName "<." line then componentName
    else markup (endsInName "<:" line)

end WritingContext

/-- A place in a file for which offers are made. -/
structure CompletionPlace where
  file : Path
  text : List Char
  offset : Nat

namespace CompletionPlace

/-- The place of a position in a file. -/
def ofPosition (file : Path) (text : List Char) (position : Text.Position) : CompletionPlace :=
  { file, text, offset := Text.offsetOfPosition text position }

/-- What is being written at the place. -/
def context (place : CompletionPlace) : WritingContext :=
  .ofLine (Text.lastLine (Text.takeBytes place.offset place.text))

def enclosing? (index : Index) (place : CompletionPlace) : Option Component :=
  let line := (Text.takeBytes place.offset place.text).count '\n' + 1
  index.enclosingComponent? place.file line

/-- Keeps the first of several items of one name. -/
def firstOfName {α : Type} (name : α → String) (items : List α) : List α :=
  Component.addNew name [] items

/-! ### Routes -/

/-- What serves a route. -/
def routeTarget? (route : Route) : Option String :=
  match route.liveModule, route.controller, route.action with
  | some live, _, _ => some live
  | none, some controller, some action => some (controller ++ " :" ++ action)
  | none, some controller, none => some controller
  | none, none, _ => none

def routeOffers (index : Index) (beginning : List Char) : List Offer :=
  let beginning := if beginning.isEmpty then ['/'] else beginning
  (index.routesWithBeginning beginning).map fun route =>
    { label := route.path, kind := .route, detail := some route.detail
      documentation := (routeTarget? route).map .plain }

/-! ### Components -/

/-- The components that can be called by name alone in a file. -/
def callable (disk : Disk) (index : Index) (place : CompletionPlace) : List Component :=
  let moduleFile := owningModuleFile? disk index place.file
  let query : ComponentQuery :=
    { file := place.file, name := "", content := some (String.ofList place.text) }
  let own := (moduleFile.map index.components.fromFile).getD []
  let imported := ((query.header disk moduleFile).imports.map String.ofList).flatMap fun m =>
    if m == builtinModule then [] else index.componentsOfModule m
  firstOfName Component.name (own ++ imported ++ builtinComponents)

def componentOffers (disk : Disk) (index : Index) (place : CompletionPlace) : List Offer :=
  (place.callable disk index).map fun c =>
    { label := c.name, kind := .component, detail := some c.qualifiedName }

/-! ### Assigns -/

/-- The attributes of the component around the place, and what controllers pass. -/
def assignOffers (index : Index) (place : CompletionPlace) : List Offer :=
  let component := place.enclosing? index
  let declared := ((component.map Component.attributes).getD []).filter fun a => !a.isGlobal
  let passed := index.assignsAt place.file component
  firstOfName Offer.label
    ((declared.map fun a =>
        { label := a.name, kind := .assign, detail := some ("attr :" ++ a.type) : Offer }) ++
      passed.map fun a => { label := a.name, kind := .assign, detail := a.value })

/-- The fields and associations of the schema that a path of steps leads to. -/
def fieldOffers (index : Index) (place : CompletionPlace) (base : List Char)
    (steps : List (List Char)) : List Offer :=
  let context : AssignContext := { component := place.enclosing? index, file := some place.file }
  let target := index.assignTarget? (String.ofList base) (steps.map String.ofList) context
  match target.bind AssignTarget.current? with
  | none => []
  | some schema =>
    (schema.fields.map fun f =>
        { label := f.name, kind := .schemaField, detail := some (":" ++ f.type) : Offer }) ++
      schema.associations.map fun a =>
        { label := a.fieldName, kind := .association
          detail := some (a.type.tag ++ " " ++ a.targetModule) }

/-! ### Slots and attributes -/

def slotOffers (component : Component) (usage : ComponentUsage) : List Offer :=
  (component.slots.filter (·.name != innerBlock)).map fun slot =>
    let used := if usage.providesSlot slot.name then " (already used)" else ""
    { label := slot.name, kind := .slot
      detail := some ("slot of " ++ component.qualifiedName ++ used)
      documentation := slot.doc.map .plain }

/-- The attributes of a component or of one of its slots that a tag does not give yet. -/
def attributeOffers (component : Component) (declared : List Attribute)
    (given : List UsageAttribute) : List Offer :=
  (declared.filter fun a => !a.isGlobal && !given.any (·.name == a.name)).map fun a =>
    { label := a.name, kind := .property
      detail := some (":" ++ a.type ++ (if a.required then " (required)" else ""))
      documentation := a.doc.map .markdown
      insertText := some (a.name ++ "=")
      sortText := some ((if a.required then "0" else "1") ++ a.name)
      description := some component.qualifiedName }

/-- The offers inside a tag: slots, or attributes of the slot or the component that it opens. -/
def markupOffers? (place : CompletionPlace) (isSlot : Bool) (component : Component)
    (usage : ComponentUsage) : Option (List Offer) :=
  let slot := usage.slots.find? fun s => s.start < place.offset && place.offset < s.openTagEnd
  if isSlot then some (slotOffers component usage)
  else
    match slot with
    | some slot =>
      let declared := ((component.findSlot? slot.name).map Slot.attributes).getD []
      some (attributeOffers component declared slot.attributes)
    | none =>
      if usage.inOpenTag place.offset then
        some (attributeOffers component component.attributes usage.attributes)
      else none

/-- The component that the innermost tag around the place means, and that tag. -/
def tagAt? (disk : Disk) (index : Index) (extractor : Markup.UsageExtractor) (key : String)
    (place : CompletionPlace) : Option (Component × ComponentUsage) := do
  let template := Markup.templateText place.file place.text
  let usage ← extractor.innermostAt? key template place.offset
  let query : ComponentQuery :=
    { file := place.file, name := usage.componentName, moduleName := usage.moduleContext
      content := some (String.ofList place.text) }
  return (← query.resolve? disk index, usage)

/-- What can be written at the place, if it is a place for offers. The uses of components around it
are asked of the extractor only where nothing else tells. -/
def offers? (disk : Disk) (index : Index) (extractor : Markup.UsageExtractor) (key : String)
    (place : CompletionPlace) : Option (List Offer) × Markup.UsageExtractor :=
  match place.context with
  | .route beginning => (some (routeOffers index beginning), extractor)
  | .assignField base steps => (some (place.fieldOffers index base steps), extractor)
  | .assignName => (some (place.assignOffers index), extractor)
  | .componentName => (some (place.componentOffers disk index), extractor)
  | .markup isSlot =>
    ((place.tagAt? disk index extractor key).bind fun (component, usage) =>
        place.markupOffers? isSlot component usage,
      extractor.touch key)

end CompletionPlace

end PhoenixLens
