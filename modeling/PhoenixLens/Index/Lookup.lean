import PhoenixLens.Index.Basic
import PhoenixLens.Routing.Match
import PhoenixLens.Text.Casing

/-!
# Looking things up in an index

What the index knows under a name, a module or a path. Modules may be meant by the last parts of
their names; a module of exactly the given name comes first.
-/

namespace PhoenixLens.Index

/-- A module is meant by a name: it has that name or ends in it. -/
def isModuleMeant (name moduleName : String) : Bool :=
  Text.hasModuleSuffix moduleName.toList name.toList

/-! ### Components -/

def componentsNamed (index : Index) (name : String) : List Component :=
  index.components.filter (·.name == name)

def componentsOfModule (index : Index) (moduleName : String) : List Component :=
  index.components.filter (·.moduleName == moduleName)

def findComponent? (index : Index) (moduleName name : String) : Option Component :=
  (index.components.find? fun c => c.name == name && c.moduleName == moduleName).or
    (index.components.find? fun c => c.name == name && isModuleMeant moduleName c.moduleName)

/-! ### Routes -/

/-- All routes, in order of their files. -/
def allRoutes (index : Index) : List Route :=
  (Path.sort index.routes.files).flatMap index.routes.fromFile

/-- The route for a path that may still be unfinished. -/
def routeForPartial? (index : Index) (path : List Char) : Option Route :=
  Routing.routeForPartial? index.allRoutes path

/-- The route for a finished path. -/
def routeFor? (index : Index) (path : List Char) : Option Route :=
  Routing.routeFor? index.allRoutes path

def routesOfHelper (index : Index) (helper : String) : List Route :=
  index.allRoutes.filter (·.helperBase == helper)

/-- The actions of the resources with a helper, each once. -/
def resourceActions (index : Index) (helper : String) : List String :=
  let routes := (index.routesOfHelper helper).filter (·.isResource)
  (routes.filterMap Route.action).eraseDups

/-- The routes whose paths begin in the given way, one for each verb and path. -/
def routesWithBeginning (index : Index) (beginning : List Char) : List Route :=
  (index.allRoutes.filter fun r => beginning.isPrefixOf r.path.toList).foldl
    (fun kept r =>
      if kept.any fun k => k.verb == r.verb && k.path == r.path then kept else kept ++ [r])
    []

/-! ### Events -/

def eventsOfModule (index : Index) (moduleName : String) : List Event :=
  index.events.filter (·.moduleName == moduleName)

/-- The events of a module that nothing sends, in order of their lines. -/
def unusedEvents (index : Index) (moduleName : String) (sent : List String) : List Event :=
  let unused := (index.eventsOfModule moduleName).filter fun e =>
    e.isUnusedCandidate && !sent.contains e.name
  unused.mergeSort fun a b => a.line ≤ b.line

/-! ### Schemas -/

def schemaOfModule? (index : Index) (moduleName : String) : Option SchemaInfo :=
  index.schemas.find? (·.moduleName == moduleName)

/-- The schema whose module is meant by a name; of several, the first by module name. -/
def schemaFor? (index : Index) (name : String) : Option SchemaInfo :=
  let candidates := index.schemas.filter fun s => isModuleMeant name s.moduleName
  (index.schemaOfModule? name).or
    (candidates.mergeSort fun a b => !(b.moduleName < a.moduleName)).head?

/-! ### Templates -/

def templatesOfModule (index : Index) (moduleName : String) : List TemplateInfo :=
  index.templates.filter (·.moduleName == moduleName)

def templatesIn (index : Index) (file : Path) : List TemplateInfo :=
  index.templates.filter (·.filePath.same file)

def templateIn? (index : Index) (file : Path) : Option TemplateInfo :=
  index.templates.find? (·.filePath.same file)

/-! ### Controllers -/

/-- The renders of a template of a view, in order of their lines. -/
def rendersOf (index : Index) (view template : String) : List RenderInfo :=
  let renders := index.controllers.all.flatMap fun controller =>
    controller.renders.filter fun r => r.template == template && controller.viewFor r == view
  renders.mergeSort fun a b => a.line ≤ b.line

/-- Adds an assign; one of that name stays, and takes its value from it if it has none. -/
def addAssign (assigns : List RenderAssign) (assign : RenderAssign) : List RenderAssign :=
  if assigns.any (·.name == assign.name) then
    assigns.map fun a =>
      if a.name == assign.name then { a with value := a.value.or assign.value } else a
  else assigns ++ [assign]

/-- The assigns that a template of a view is given. -/
def assignsOf (index : Index) (view template : String) : List RenderAssign :=
  ((index.rendersOf view template).flatMap RenderInfo.assigns).foldl addAssign []

end PhoenixLens.Index
