import PhoenixLens.Exact.Gateway
import PhoenixLens.Index.Registry

/-!
# The index of a project

One registry for each kind of entity. A file is offered to the registries whose kind it may hold;
each of them parses it anew if its content has changed.
-/

namespace PhoenixLens

/-- What is known of a project. -/
structure Index where
  components : FileRegistry Component := {}
  routes : FileRegistry Route := {}
  events : FileRegistry Event := {}
  schemas : FileRegistry SchemaInfo := {}
  templates : FileRegistry TemplateInfo := {}
  controllers : FileRegistry ControllerInfo := {}

namespace Index

def registry (index : Index) : (kind : EntityKind) → FileRegistry kind.Entity
  | .components => index.components
  | .routes => index.routes
  | .events => index.events
  | .schemas => index.schemas
  | .templates => index.templates
  | .controllers => index.controllers

def withRegistry (index : Index) : (kind : EntityKind) → FileRegistry kind.Entity → Index
  | .components, registry => { index with components := registry }
  | .routes, registry => { index with routes := registry }
  | .events, registry => { index with events := registry }
  | .schemas, registry => { index with schemas := registry }
  | .templates, registry => { index with templates := registry }
  | .controllers, registry => { index with controllers := registry }

@[simp] theorem registry_withRegistry (index : Index) (kind : EntityKind)
    (r : FileRegistry kind.Entity) : (index.withRegistry kind r).registry kind = r := by
  cases kind <;> rfl

@[simp] theorem withRegistry_self (index : Index) (kind : EntityKind) :
    index.withRegistry kind (index.registry kind) = index := by
  cases kind <;> rfl

@[simp] theorem withRegistry_withRegistry (index : Index) (kind : EntityKind)
    (r s : FileRegistry kind.Entity) :
    (index.withRegistry kind r).withRegistry kind s = index.withRegistry kind s := by
  cases kind <;> rfl

theorem registry_withRegistry_of_ne (index : Index) {kind other : EntityKind} (h : other ≠ kind)
    (r : FileRegistry kind.Entity) :
    (index.withRegistry kind r).registry other = index.registry other := by
  cases kind <;> cases other <;> first | rfl | exact absurd rfl h

def mapRegistries (index : Index)
    (f : (kind : EntityKind) → FileRegistry kind.Entity → FileRegistry kind.Entity) : Index :=
  { components := f .components index.components
    routes := f .routes index.routes
    events := f .events index.events
    schemas := f .schemas index.schemas
    templates := f .templates index.templates
    controllers := f .controllers index.controllers }

theorem registry_mapRegistries (index : Index)
    (f : (kind : EntityKind) → FileRegistry kind.Entity → FileRegistry kind.Entity)
    (kind : EntityKind) : (index.mapRegistries f).registry kind = f kind (index.registry kind) := by
  cases kind <;> rfl

def remove (index : Index) (path : Path) : Index := index.mapRegistries fun _ r => r.remove path

/-- Something is known of a file. -/
def knows (index : Index) (path : Path) : Bool :=
  EntityKind.all.any fun kind => (index.registry kind).knows path

def clear (index : Index) : Index := index.mapRegistries fun _ r => r.clear

/-! ### Updates -/

section

variable {m : Type → Type} [Monad m]

/-- Updates the registry of a kind to a text; says whether the text was new to it. -/
def updateKind (disk : Disk) (index : Index) (kind : EntityKind) (path : Path) (text : String) :
    Parsing m (Index × Bool) := do
  match (index.registry kind).startUpdate path text with
  | (registry, none) => return (index.withRegistry kind registry, false)
  | (registry, some update) =>
    let (found, _) ← Gateway.parse disk (.entities kind) path text
    let registry := registry.finishUpdate update (kind.ofFile path found)
    return (index.withRegistry kind registry, true)

/-- Updates the index to the text of a file; says whether the text was new to a registry. -/
def update (disk : Disk) (index : Index) (path : Path) (text : String) :
    Parsing m (Index × Bool) :=
  (EntityKind.all.filter (·.takes path)).foldlM
    (fun (index, changed) kind => do
      let (index, isNew) ← updateKind disk index kind path text
      return (index, changed || isNew))
    (index, false)

/-- Reads a file anew for the registry of a kind; says whether there is such a file. -/
def scanFile (disk : Disk) (kind : EntityKind) (registry : FileRegistry kind.Entity)
    (path : Path) : Parsing m (FileRegistry kind.Entity × Bool) := do
  match disk.read? path with
  | none => return (registry, false)
  | some text =>
    match registry.startUpdate path text with
    | (registry, none) => return (registry, true)
    | (registry, some update) =>
      let (found, _) ← Gateway.parseFile disk (.entities kind) path text
      return (registry.finishUpdate update (kind.ofFile path found), true)

/-- Reads the files of a project for the registry of a kind; gives the number of files read. -/
def scanKind (disk : Disk) (root : Path) (files : List Path) (kind : EntityKind)
    (registry : FileRegistry kind.Entity) : Parsing m (FileRegistry kind.Entity × Nat) :=
  (files.filter (kind.takes ·)).foldlM
    (fun (registry, count) path => do
      let (registry, isRead) ← scanFile disk kind registry path
      return (registry, if isRead then count + 1 else count))
    (registry.setRoot root, 0)

/-- Reads the files of a project; gives the number of files read, each once for every registry. -/
def scan (disk : Disk) (index : Index) (root : Path) (files : List Path) :
    Parsing m (Index × Nat) :=
  EntityKind.all.foldlM
    (fun (index, count) kind => do
      let (registry, more) ← scanKind disk root files kind (index.registry kind)
      return (index.withRegistry kind registry, count + more))
    (index, 0)

/-- The files of a directory whose modules own templates. -/
def templateOwnersIn (index : Index) (directory : Path) : List Path :=
  index.templates.files.filter fun file => file.parent?.any (·.same directory)

/-- Reads the template list of a module file anew. -/
def refreshOwner (disk : Disk) (index : Index) (file : Path) : Parsing m Index := do
  let index := index.withRegistry .templates (index.templates.remove file)
  match disk.read? file with
  | none => return index
  | some text => return (← updateKind disk index .templates file text).1

/-- A template file has come or gone: reads the modules anew that may own it. They stand in its
directory or in the one above. -/
def refreshTemplatesNear (disk : Disk) (index : Index) (template : Path) : Parsing m Index :=
  let directories := template.parent?.toList ++ (template.parent?.bind Path.parent?).toList
  directories.foldlM
    (fun index directory => (index.templateOwnersIn directory).foldlM (refreshOwner disk) index)
    index

end

end Index

/-! ### Snapshots -/

/-- What an index holds, for keeping it on disk. -/
structure IndexSnapshot where
  components : RegistrySnapshot Component := {}
  routes : RegistrySnapshot Route := {}
  events : RegistrySnapshot Event := {}
  schemas : RegistrySnapshot SchemaInfo := {}
  templates : RegistrySnapshot TemplateInfo := {}
  controllers : RegistrySnapshot ControllerInfo := {}

namespace IndexSnapshot

/-- Keeps the first of paths that follow each other and lead the same way. -/
def dropRepeated : List Path → List Path
  | [] => []
  | path :: paths =>
    match dropRepeated paths with
    | next :: rest => if path.same next then path :: rest else path :: next :: rest
    | [] => [path]

/-- The files that something is known of, in order. -/
def files (snapshot : IndexSnapshot) : List Path :=
  dropRepeated (Path.sort (snapshot.components.files ++ snapshot.routes.files ++
    snapshot.events.files ++ snapshot.schemas.files ++ snapshot.templates.files ++
    snapshot.controllers.files))

def retain (snapshot : IndexSnapshot) (keep : Path → Bool) : IndexSnapshot :=
  { components := snapshot.components.retain keep
    routes := snapshot.routes.retain keep
    events := snapshot.events.retain keep
    schemas := snapshot.schemas.retain keep
    templates := snapshot.templates.retain keep
    controllers := snapshot.controllers.retain keep }

def encode (snapshot : IndexSnapshot) : Json :=
  .obj [("components", snapshot.components.encode Component.encode),
    ("routes", snapshot.routes.encode Route.encode),
    ("events", snapshot.events.encode Event.encode),
    ("schemas", snapshot.schemas.encode SchemaInfo.encode),
    ("templates", snapshot.templates.encode TemplateInfo.encode),
    ("controllers", snapshot.controllers.encode ControllerInfo.encode)]

def decode : Json → Option IndexSnapshot := Json.decodeRecord do
  return {
    components := ← Json.withDefault "components" {} (RegistrySnapshot.decode Component.decode)
    routes := ← Json.withDefault "routes" {} (RegistrySnapshot.decode Route.decode)
    events := ← Json.withDefault "events" {} (RegistrySnapshot.decode Event.decode)
    schemas := ← Json.withDefault "schemas" {} (RegistrySnapshot.decode SchemaInfo.decode)
    templates := ← Json.withDefault "templates" {} (RegistrySnapshot.decode TemplateInfo.decode)
    controllers := ←
      Json.withDefault "controllers" {} (RegistrySnapshot.decode ControllerInfo.decode) }

end IndexSnapshot

namespace Index

def snapshot (index : Index) : IndexSnapshot :=
  { components := index.components.snapshot
    routes := index.routes.snapshot
    events := index.events.snapshot
    schemas := index.schemas.snapshot
    templates := index.templates.snapshot
    controllers := index.controllers.snapshot }

/-- Puts what was kept in place of what is known. -/
def restore (index : Index) (snapshot : IndexSnapshot) : Index :=
  { components := index.components.restore snapshot.components
    routes := index.routes.restore snapshot.routes
    events := index.events.restore snapshot.events
    schemas := index.schemas.restore snapshot.schemas
    templates := index.templates.restore snapshot.templates
    controllers := index.controllers.restore snapshot.controllers }

end Index

end PhoenixLens
