import PhoenixLens.Elixir.FunctionComponents
import PhoenixLens.Elixir.ModuleHeader
import PhoenixLens.Index.Lookup

/-!
# Finding the component that a tag means

A tag with a module means a component of that module, in full or by a short name. A tag without one
means a component of the module that the template belongs to, then one of the framework's own, then
one of an imported module. Where the index knows none, the directory of components is searched.
-/

namespace PhoenixLens

/-- A tag to be resolved: the file it stands in, and what it names. -/
structure ComponentQuery where
  file : Path
  name : String
  /-- The module that the tag names. -/
  moduleName : Option String := none
  /-- The text of the file, if it is not to be read from disk. -/
  content : Option String := none
deriving DecidableEq, Repr

/-- The file of the module that a template belongs to. A template file belongs to the module whose
list of templates has it, then to the module beside it, then to that beside its directory. -/
def owningModuleFile? (disk : Disk) (index : Index) (file : Path) : Option Path :=
  if !file.isTemplate then some file
  else
    match index.templateIn? file with
    | some template => some template.moduleFile
    | none => do
      let stem := (← file.fileName?).toList.takeWhile (· != '.')
      let sibling := file.withFileName (String.ofList stem ++ ".ex")
      if disk.isFile sibling then return sibling
      let directory ← file.parent?
      let owner := directory.withFileName ((← directory.fileName?) ++ ".ex")
      if disk.isFile owner then return owner else failure

namespace ComponentQuery

/-- The text of a module file, which may be the one under query. -/
def sourceOf? (disk : Disk) (query : ComponentQuery) (moduleFile : Path) : Option String :=
  (if moduleFile.same query.file then query.content else none).or (disk.read? moduleFile)

/-- The header of the module that the template belongs to. -/
def header (disk : Disk) (query : ComponentQuery) (moduleFile : Option Path) :
    Elixir.ModuleHeader :=
  ((moduleFile.bind (query.sourceOf? disk)).map fun source =>
    Elixir.ModuleHeader.parse source.toList).getD {}

/-- The component of a module in full. -/
def remote? (index : Index) (moduleName name : String) : Option Component :=
  (if moduleName == builtinModule then builtinComponent? name else none).or
    (index.findComponent? moduleName name)

/-- The component that is meant by its name alone. -/
def local? (index : Index) (imports : List String) (moduleFile : Option Path) (name : String) :
    Option Component :=
  let own := moduleFile.bind fun file =>
    (index.components.fromFile file).find? fun c => c.name == name
  (own.or (builtinComponent? name)).or
    (imports.findSome? fun moduleName => index.findComponent? moduleName name)

/-- The paths in a directory, if there is such a directory. -/
def pathsIn? (disk : Disk) (directory : Path) : Option (List Path) :=
  (disk.names? directory).map fun names => names.map directory.join

/-- The directory of components as seen from a directory on the way to the file: the one in a
directory of web code, whether the way leads through that or only past it. -/
def componentsDirectoryAt? (disk : Disk) (directory : Path) : Option (Option Path) :=
  let within := fun web : Path =>
    let found := web.join "components"
    if disk.isDirectory found then some found else none
  let name := directory.fileName?.getD ""
  if Text.endsWith "_web" name.toList then some (within directory)
  else if name == "lib" then
    let web := ((pathsIn? disk directory).getD []).find? fun p =>
      disk.isDirectory p && p.nameEndsWith "_web"
    some (web.bind within)
  else none

/-- The directories that a path lies in, the innermost first. -/
def ancestors (path : Path) : List Path :=
  go path.segments.length path
where
  /-- Goes up at most so many steps. -/
  go : Nat → Path → List Path
    | 0, _ => []
    | n + 1, path =>
      match path.parent? with
      | some up => up :: go n up
      | none => []

/-- The directory of components that goes with a file. -/
def componentsDirectory? (disk : Disk) (file : Path) : Option Path :=
  ((ancestors file).findSome? (componentsDirectoryAt? disk)).join

/-- Searches the sources in the directory of components. -/
def searchDirectory? (disk : Disk) (file : Path) (moduleName : Option String) (name : String) :
    Option Component := do
  let paths ← pathsIn? disk (← componentsDirectory? disk file)
  (Path.sort (paths.filter fun p => p.extension? == some "ex")).findSome? fun path => do
    let source ← disk.read? path
    (Elixir.componentsOf path source.toList).find? fun c =>
      c.name == name && moduleName.all fun m => Index.isModuleMeant m c.moduleName

/-- The component that a tag means. -/
def resolve? (disk : Disk) (index : Index) (query : ComponentQuery) : Option Component :=
  let moduleFile := owningModuleFile? disk index query.file
  let header := query.header disk moduleFile
  let moduleName := query.moduleName.map fun m => String.ofList (header.expand m.toList)
  let found := match moduleName with
    | some moduleName => remote? index moduleName query.name
    | none => local? index (header.imports.map String.ofList) moduleFile query.name
  found.or (searchDirectory? disk query.file moduleName query.name)

end ComponentQuery

end PhoenixLens
