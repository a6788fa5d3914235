import PhoenixLens.Model.Component
import PhoenixLens.Model.Controller
import PhoenixLens.Model.Event
import PhoenixLens.Model.Route
import PhoenixLens.Model.Schema
import PhoenixLens.Model.Template

/-!
# Kinds of entities

The six kinds of things that are read from source files, each with its type of entity and with the
rule by which an entity belongs to the file that it was read from.
-/

namespace PhoenixLens

/-- What is read from source files. -/
inductive EntityKind where
  | components
  | routes
  | events
  | schemas
  | templates
  | controllers
deriving DecidableEq, Repr

namespace EntityKind

def all : List EntityKind := [components, routes, events, schemas, templates, controllers]

theorem mem_all (kind : EntityKind) : kind ∈ all := by cases kind <;> simp [all]

def name : EntityKind → String
  | components => "components"
  | routes => "routes"
  | events => "events"
  | schemas => "schemas"
  | templates => "templates"
  | controllers => "controllers"

abbrev Entity : EntityKind → Type
  | components => Component
  | routes => Route
  | events => Event
  | schemas => SchemaInfo
  | templates => TemplateInfo
  | controllers => ControllerInfo

def encodeEntity : (kind : EntityKind) → kind.Entity → Json
  | components => Component.encode
  | routes => Route.encode
  | events => Event.encode
  | schemas => SchemaInfo.encode
  | templates => TemplateInfo.encode
  | controllers => ControllerInfo.encode

def decodeEntity : (kind : EntityKind) → Json → Option kind.Entity
  | components => Component.decode
  | routes => Route.decode
  | events => Event.decode
  | schemas => SchemaInfo.decode
  | templates => TemplateInfo.decode
  | controllers => ControllerInfo.decode

end EntityKind

/-- Adds a clause of a component: to the clauses before it, or as a component of its own. -/
def addComponent (components : List Component) (component : Component) : List Component :=
  if components.any (·.isClauseOf component) then
    mergeFirst components
  else components ++ [component]
where
  /-- Adds the clause to the first component that it belongs to. -/
  mergeFirst : List Component → List Component
    | [] => []
    | c :: cs =>
      if c.isClauseOf component then c.mergeClause component :: cs else c :: mergeFirst cs

/-- Adds an event, unless its module handles events of that name and kind already. -/
def addEvent (events : List Event) (event : Event) : List Event :=
  let isSame := fun e : Event =>
    e.moduleName == event.moduleName && e.name == event.name && e.kind == event.kind
  if events.any isSame then events else events ++ [event]

/-- The entities of a file, as they were read from it. Clauses of one component are joined, and
events are listed once. A template without a file of its own stands in the file of its module. -/
def EntityKind.ofFile (path : Path) : (kind : EntityKind) → List kind.Entity → List kind.Entity
  | .components, found =>
    (found.map fun c : Component => { c with filePath := path }).foldl addComponent []
  | .routes, found => found.map fun r : Route => { r with filePath := path }
  | .events, found => (found.map fun e : Event => { e with filePath := path }).foldl addEvent []
  | .schemas, found => found.map fun s : SchemaInfo => { s with filePath := path }
  | .templates, found =>
    found.map fun t : TemplateInfo =>
      { t with
        moduleFile := path
        filePath := if t.filePath.text.isEmpty then path else t.filePath }
  | .controllers, found => found.map fun c : ControllerInfo => { c with filePath := path }

/-! ### Candidate files -/

/-- The file name ends in the given way. -/
def Path.nameEndsWith (path : Path) (ending : String) : Bool :=
  path.fileName?.any fun n => Text.endsWith ending n.toList

/-- The names of the directories that a path goes through. -/
def Path.directoryNames (path : Path) : List String :=
  (path.parent?.map fun p => p.segments.map Segment.text).getD []

/-- The path goes through a directory of web code. -/
def Path.isInWebDirectory (path : Path) : Bool :=
  path.directoryNames.any fun d => Text.endsWith "_web" d.toList

/-- The file may hold entities of the kind, by its path alone. -/
def EntityKind.takes (path : Path) : EntityKind → Bool
  | .components =>
    path.extension? == some "ex" && (path.isInWebDirectory || path.nameEndsWith "components.ex")
  | .routes => path.nameEndsWith "router.ex"
  | .events =>
    path.extension? == some "ex" &&
      (path.nameEndsWith "_live.ex" || path.parent?.any (·.nameEndsWith "_live"))
  | .schemas =>
    path.extension? == some "ex" && path.directoryNames.contains "lib" && !path.isInWebDirectory
  | .templates => path.nameEndsWith "_html.ex" || path.nameEndsWith "_live.ex"
  | .controllers => path.nameEndsWith "_controller.ex"

end PhoenixLens
