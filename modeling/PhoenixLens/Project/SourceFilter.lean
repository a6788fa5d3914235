import PhoenixLens.Glob.Match
import PhoenixLens.Path.Disk

/-!
# The files of a project

Which files of a project are read. Build products, dependencies and hidden directories never are;
patterns for paths to include and to exclude narrow the rest down.
-/

namespace PhoenixLens

/-- Patterns for the files of a project; without patterns to include, all files are. -/
structure SourceFilter where
  inclusions : Option (List Glob) := none
  exclusions : Option (List Glob) := none

structure FilterError where
  pattern : String
  cause : GlobError
deriving DecidableEq, Repr

def FilterError.message (error : FilterError) : String :=
  "Invalid glob pattern '" ++ error.pattern ++ "': error parsing glob '" ++ error.pattern ++
    "': " ++ error.cause.reason

/-- Directories that are left out wherever they stand. -/
def excludedDirectories : List String := ["_build", "deps", "node_modules", "cover"]

def Path.names (path : Path) : List String :=
  path.segments.filterMap fun
    | .name s => some s
    | _ => none

/-- The directory or one that it lies in is hidden, or holds build products or dependencies. -/
def isArtifactDirectory (path : Path) : Bool :=
  let names := path.names
  names.any (fun n => Text.startsWith "." n.toList || excludedDirectories.contains n) ||
    (names.zip names.tail).contains ("priv", "static")

namespace SourceFilter

/-- Reads patterns; no patterns at all are no restriction. -/
def readPatterns (patterns : List String) : Except FilterError (Option (List Glob)) :=
  if patterns.isEmpty then .ok none
  else some <$> patterns.mapM fun p => (Glob.parse p).mapError fun cause => ⟨p, cause⟩

/-- The filter for patterns to include and to exclude. -/
def ofPatterns (inclusions exclusions : List String) : Except FilterError SourceFilter := do
  return {
    inclusions := ← readPatterns inclusions
    exclusions := ← readPatterns exclusions }

def isExcluded (filter : SourceFilter) (path : Path) : Bool :=
  filter.exclusions.any fun globs => globs.any (·.isMatch path.text)

def isIncluded (filter : SourceFilter) (path : Path) : Bool :=
  filter.inclusions.all fun globs => globs.any (·.isMatch path.text)

/-- The directory, seen from the root of the project, is searched for files. -/
def enters (filter : SourceFilter) (directory : Path) : Bool :=
  !isArtifactDirectory directory && !filter.isExcluded directory

/-- The file, seen from the root of the project, is read. -/
def accepts (filter : SourceFilter) (path : Path) : Bool :=
  path.isSource && !path.parent?.any isArtifactDirectory && !filter.isExcluded path &&
    filter.isIncluded path

/-- The file belongs to the project. Without a root its name alone decides. -/
def tracks (filter : SourceFilter) (path : Path) (root : Option Path) : Bool :=
  match root with
  | some root => (path.relativeTo? root).any filter.accepts
  | none => path.isSource

end SourceFilter

/-- Goes through the entries of a directory, in any order, `depth` directories deep at most. -/
def walkFiles (disk : Disk) (filter : SourceFilter) (root : Path) : Nat → Path → List Path
  | 0, _ => []
  | depth + 1, directory =>
    ((disk.names? directory).getD []).flatMap fun name =>
      let path := directory.join name
      let relative := (path.relativeTo? root).getD path
      if disk.isDirectory path then
        if filter.enters relative then walkFiles disk filter root depth path else []
      else if filter.accepts relative then [path]
      else []

/-- The files of a project in order of their paths. No directory lies deeper than there are
entries. -/
def collectFiles (disk : Disk) (filter : SourceFilter) (root : Path) : List Path :=
  Path.sort (walkFiles disk filter root (disk.entries.length + 1) root)

end PhoenixLens
