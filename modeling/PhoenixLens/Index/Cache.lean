import PhoenixLens.Index.Basic
import PhoenixLens.Json.Parser
import PhoenixLens.Json.Printer
import PhoenixLens.Path.Disk

/-!
# An index kept on disk

What an index holds is written to the directory of its project together with the sizes and times of
the files it comes from. What is read back counts for the files that have not changed since.
-/

namespace PhoenixLens

/-- The time in seconds of the last change of a file, and its length in bytes. -/
structure FileStamp where
  modified : Nat
  size : Nat
deriving DecidableEq, Repr

/-- When and for what a cache was written. -/
structure CacheMetadata where
  version : Nat
  toolVersion : String
  /-- The time in seconds at which it was written. -/
  timestamp : Nat
  workspaceRoot : Path
  /-- The stamps of the files, by path as written. -/
  files : List (String × FileStamp)
deriving DecidableEq, Repr

/-- The content of a cache. -/
structure CacheDocument where
  metadata : CacheMetadata
  index : IndexSnapshot := {}

/-- Why a cache cannot be used. -/
inductive CacheError where
  | unreadable
  | malformed
  | versionMismatch
  | notFound
  /-- It was written for another project. -/
  | otherWorkspace (root : Path)
deriving DecidableEq, Repr

/-- The files of a cache: those that have not changed, and the others. -/
structure CacheValidation where
  valid : List Path
  invalid : List Path
deriving DecidableEq, Repr

def cacheVersion : Nat := 1

def programVersion : String := "0.1.0"

def Disk.stamp? (disk : Disk) (path : Path) : Option FileStamp :=
  (disk.file? path).map fun (content, modified) => { modified, size := content.utf8ByteSize }

namespace FileStamp

def encode (stamp : FileStamp) : Json :=
  .obj [("mtime", .nat stamp.modified), ("size", .nat stamp.size)]

def decode : Json → Option FileStamp := Json.decodeRecord do
  return {
    modified := ← Json.required "mtime" (Json.decodeNat UInt64.size)
    size := ← Json.required "size" (Json.decodeNat UInt64.size) }

end FileStamp

namespace CacheMetadata

def encode (metadata : CacheMetadata) : Json :=
  .obj [("version", .nat metadata.version), ("toolVersion", .str metadata.toolVersion),
    ("timestamp", .nat metadata.timestamp), ("workspaceRoot", metadata.workspaceRoot.encode),
    ("files", .obj (metadata.files.map fun (path, stamp) => (path, stamp.encode)))]

/-- Reads stamps by path; of several for one path, the last one counts. -/
def decodeStamps : Json → Option (List (String × FileStamp))
  | .obj members => do
    let stamps ← members.mapM fun (path, value) => do return (path, ← FileStamp.decode value)
    return stamps.foldl (fun kept s => kept.filter (fun k => k.1 != s.1) ++ [s]) []
  | _ => none

def decode : Json → Option CacheMetadata := Json.decodeRecord do
  return {
    version := ← Json.required "version" (Json.decodeNat UInt32.size)
    toolVersion := ← Json.required "toolVersion" Json.decodeString
    timestamp := ← Json.required "timestamp" (Json.decodeNat UInt64.size)
    workspaceRoot := ← Json.required "workspaceRoot" Path.decode
    files := ← Json.required "files" decodeStamps }

/-- The cache was written by this version of the program. -/
def isCompatible (metadata : CacheMetadata) : Bool :=
  metadata.version == cacheVersion && metadata.toolVersion == programVersion

/-- The file is as it was recorded, and was so when the cache was written. -/
def isFresh (metadata : CacheMetadata) (path : Path) (current : FileStamp) : Bool :=
  metadata.files.lookup path.text == some current && current.modified ≤ metadata.timestamp

end CacheMetadata

namespace CacheDocument

def encode (document : CacheDocument) : Json :=
  .obj [("metadata", document.metadata.encode), ("index", document.index.encode)]

def decode : Json → Option CacheDocument := Json.decodeRecord do
  return {
    metadata := ← Json.required "metadata" CacheMetadata.decode
    index := ← Json.withDefault "index" {} IndexSnapshot.decode }

/-- A file of the cache has not changed. -/
def isValid (disk : Disk) (document : CacheDocument) (path : Path) : Bool :=
  (disk.stamp? path).any (document.metadata.isFresh path)

/-- Tells the files of the cache apart. -/
def validate (disk : Disk) (document : CacheDocument) : CacheValidation :=
  { valid := document.index.files.filter (document.isValid disk)
    invalid := document.index.files.filter fun path => !document.isValid disk path }

end CacheDocument

namespace CacheError

def kind : CacheError → String
  | unreadable => "io"
  | malformed => "deserialize"
  | versionMismatch => "version_mismatch"
  | notFound => "not_found"
  | otherWorkspace _ => "stale"

/-- What went wrong, unless only the system knows. -/
def message? : CacheError → Option String
  | unreadable | malformed => none
  | versionMismatch => some "Cache version mismatch"
  | notFound => some "Cache not found"
  | otherWorkspace root => some ("Stale cache: workspace " ++ root.text)

end CacheError

namespace Index

/-- The directory of a project that its cache is written to. -/
def cacheDirectory (root : Path) : Path := root.join ".phoenix-lsp"

def cacheFile (root : Path) : Path := (cacheDirectory root).join "cache.json"

/-- What the cache of an index holds if it is written at the given time. -/
def cacheDocument (disk : Disk) (now : Nat) (root : Path) (index : Index) : CacheDocument :=
  let snapshot := index.snapshot
  { metadata :=
      { version := cacheVersion
        toolVersion := programVersion
        timestamp := now
        workspaceRoot := root
        files := snapshot.files.filterMap fun path =>
          (disk.stamp? path).map fun stamp => (path.text, stamp) }
    index := snapshot }

/-- The file that a cache is written to before it takes the place of the one before. -/
def draftFile (root : Path) : Path := (cacheDirectory root).join "cache.json.tmp"

/-- Writes the cache of an index at the given time. -/
def saveCache (disk : Disk) (now : Nat) (root : Path) (index : Index) : Except DiskError Disk := do
  let prepared ← disk.makeDirectory? (cacheDirectory root)
  if prepared.isDirectory (draftFile root) || prepared.isDirectory (cacheFile root) then
    throw .isDirectory
  return prepared.write (cacheFile root) (index.cacheDocument disk now root).encode.compact now

def readCache (disk : Disk) (root : Path) : Except CacheError CacheDocument :=
  match disk.find? (cacheFile root) with
  | none => .error .notFound
  | some .directory => .error .unreadable
  | some (.file content _) =>
    match (Json.skim? content).bind CacheDocument.decode with
    | none => .error .malformed
    | some document =>
      if !document.metadata.isCompatible then .error .versionMismatch
      else if !document.metadata.workspaceRoot.same root then
        .error (.otherWorkspace document.metadata.workspaceRoot)
      else .ok document

/-- Takes over from the cache of a project what has not changed. -/
def loadCache (disk : Disk) (root : Path) (index : Index) :
    Except CacheError (Index × CacheValidation) := do
  let document ← readCache disk root
  let validation := document.validate disk
  let kept := document.index.retain fun path => validation.valid.any path.same
  return (index.restore kept, validation)

end Index

end PhoenixLens
