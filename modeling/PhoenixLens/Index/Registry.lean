import PhoenixLens.Path.Basic
import PhoenixLens.Text.Digest

/-!
# Registries of files

A registry keeps what is known of each file: its entities and the digest of the content that they
come from. Updates of one file may overlap; each update begins a generation of the file, and only
the result of the latest one is taken.
-/

namespace PhoenixLens

/-- Entities and digests by file. -/
structure FileRegistry (α : Type) where
  entries : PathTable (List α) := {}
  digests : PathTable String := {}
  generations : PathTable Nat := {}
  root : Option Path := none
deriving DecidableEq, Repr

/-- What a registry holds, for keeping it on disk. -/
structure RegistrySnapshot (α : Type) where
  entries : List (Path × List α) := []
  digests : List (Path × String) := []
  root : Option Path := none
deriving DecidableEq, Repr

/-- An update of a file that has begun and whose result is still to come. -/
structure PendingUpdate where
  path : Path
  digest : String
  generation : Nat
deriving DecidableEq, Repr

namespace FileRegistry

variable {α : Type}

def digest? (registry : FileRegistry α) (path : Path) : Option String :=
  registry.digests.get? path

/-- The content of the given digest is what the file is known by. -/
def hasDigest (registry : FileRegistry α) (path : Path) (digest : String) : Bool :=
  registry.digest? path == some digest

def commit (registry : FileRegistry α) (path : Path) (entities : List α) (digest : String) :
    FileRegistry α :=
  { registry with
    entries := registry.entries.set path entities
    digests := registry.digests.set path digest }

/-- The number of updates that the file has begun. -/
def generation (registry : FileRegistry α) (path : Path) : Nat :=
  (registry.generations.get? path).getD 0

/-- Begins an update of a file; its generation is the new one of the file. -/
def beginUpdate (registry : FileRegistry α) (path : Path) : FileRegistry α :=
  { registry with generations := registry.generations.set path (registry.generation path + 1) }

/-- The update is the last one that the file has begun. -/
def isCurrent (registry : FileRegistry α) (path : Path) (generation : Nat) : Bool :=
  registry.generations.get? path == some generation

/-- Takes the result of an update if no later one has begun. -/
def commitIfCurrent (registry : FileRegistry α) (path : Path) (generation : Nat)
    (entities : List α) (digest : String) : FileRegistry α :=
  if registry.isCurrent path generation then registry.commit path entities digest else registry

/-- Begins an update of a file to a content, unless the file is known by that content already. An
update that need not go on has begun all the same, so that it supersedes those before it. -/
def startUpdate (registry : FileRegistry α) (path : Path) (content : String) :
    FileRegistry α × Option PendingUpdate :=
  let begun := registry.beginUpdate path
  let digest := Text.contentDigest content
  (begun,
    if begun.hasDigest path digest then none
    else some { path, digest, generation := begun.generation path })

/-- Takes the result of an update that has gone on. -/
def finishUpdate (registry : FileRegistry α) (update : PendingUpdate) (entities : List α) :
    FileRegistry α :=
  registry.commitIfCurrent update.path update.generation entities update.digest

def knows (registry : FileRegistry α) (path : Path) : Bool :=
  registry.entries.contains path || registry.digests.contains path

/-- Forgets a file, and any update of it that is under way. -/
def remove (registry : FileRegistry α) (path : Path) : FileRegistry α :=
  let begun := registry.beginUpdate path
  { begun with entries := begun.entries.erase path, digests := begun.digests.erase path }

def all (registry : FileRegistry α) : List α := registry.entries.values.flatten

def fromFile (registry : FileRegistry α) (path : Path) : List α :=
  (registry.entries.get? path).getD []

def find? (registry : FileRegistry α) (p : α → Bool) : Option α := registry.all.find? p

def filter (registry : FileRegistry α) (p : α → Bool) : List α := registry.all.filter p

def files (registry : FileRegistry α) : List Path := registry.entries.keys

def fileCount (registry : FileRegistry α) : Nat := registry.digests.size

def entityCount (registry : FileRegistry α) : Nat := registry.all.length

/-- Forgets all files. Updates that are under way stay current. -/
def clear (registry : FileRegistry α) : FileRegistry α :=
  { registry with entries := {}, digests := {} }

def setRoot (registry : FileRegistry α) (root : Path) : FileRegistry α :=
  { registry with root := some root }

/-- What the registry holds, in order of paths. -/
def snapshot (registry : FileRegistry α) : RegistrySnapshot α :=
  { entries := registry.entries.sorted
    digests := registry.digests.sorted
    root := registry.root }

def restore (registry : FileRegistry α) (snapshot : RegistrySnapshot α) : FileRegistry α :=
  { registry with
    entries := .ofList snapshot.entries
    digests := .ofList snapshot.digests
    root := snapshot.root.or registry.root }

end FileRegistry

namespace RegistrySnapshot

variable {α : Type}

def files (snapshot : RegistrySnapshot α) : List Path := snapshot.digests.map (·.1)

def retain (snapshot : RegistrySnapshot α) (keep : Path → Bool) : RegistrySnapshot α :=
  { snapshot with
    entries := snapshot.entries.filter fun e => keep e.1
    digests := snapshot.digests.filter fun e => keep e.1 }

def encode (encodeEntity : α → Json) (snapshot : RegistrySnapshot α) : Json :=
  .obj [
    ("entries", .list (fun (path, entities) =>
      .arr [path.encode, .list encodeEntity entities]) snapshot.entries),
    ("hashes", .list (fun (path, digest) => .arr [path.encode, .str digest]) snapshot.digests),
    ("workspaceRoot", .option Path.encode snapshot.root)]

/-- A path and a value, written as an array of two. -/
def decodePair {β : Type} (decodeValue : Json → Option β) : Json → Option (Path × β)
  | .arr [path, value] => do return (← Path.decode path, ← decodeValue value)
  | _ => none

def decode (decodeEntity : Json → Option α) : Json → Option (RegistrySnapshot α) :=
  Json.decodeRecord do
    return {
      entries := ←
        Json.required "entries" (Json.decodeList (decodePair (Json.decodeList decodeEntity)))
      digests := ← Json.required "hashes" (Json.decodeList (decodePair Json.decodeString))
      root := ← Json.withDefault "workspaceRoot" none (Json.nullable Path.decode) }

end RegistrySnapshot

end PhoenixLens
