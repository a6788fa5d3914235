import PhoenixLens.Path.Basic

/-!
# Files and directories

A disk as a value: what stands at which absolute path. Paths are resolved step by step, so a `..`
needs the directory before it to exist. Every file carries the time of its last change.
-/

namespace PhoenixLens

/-- What stands at a path. -/
inductive DiskEntry where
  | directory
  | file (content : String) (modified : Nat)
deriving DecidableEq, Repr

/-- Why a disk refuses a change. -/
inductive DiskError where
  | alreadyExists
  | notDirectory
  | isDirectory
deriving DecidableEq, Repr

/-- What the system says of an error, with its number. -/
def DiskError.message : DiskError → String
  | alreadyExists => "File exists (os error 17)"
  | notDirectory => "Not a directory (os error 20)"
  | isDirectory => "Is a directory (os error 21)"

/-- The names from the root to an entry. -/
abbrev Trail := List String

/-- Entries below the root, each at most once. -/
structure Disk where
  entries : List (Trail × DiskEntry) := []
deriving DecidableEq, Repr

namespace Disk

/-- The entry at a trail; the root is a directory. -/
def entry? (disk : Disk) (trail : Trail) : Option DiskEntry :=
  if trail.isEmpty then some .directory else disk.entries.lookup trail

def isDirectoryAt (disk : Disk) (trail : Trail) : Bool := disk.entry? trail == some .directory

def follow (disk : Disk) (trail : Trail) : Segment → Option Trail
  | .root => some []
  | .here => some trail
  | .up => some trail.dropLast
  | .name s =>
    let next := trail ++ [s]
    if (disk.entry? next).isSome then some next else none

/-- Follows steps one by one; only from directories can one go on. -/
def followAll (disk : Disk) (trail : Trail) : List Segment → Option Trail
  | [] => some trail
  | segment :: segments =>
    if disk.isDirectoryAt trail then
      match disk.follow trail segment with
      | some next => disk.followAll next segments
      | none => none
    else none

/-- The trail that an absolute path leads along, if it leads to something. A path that ends in a
slash or a `.` leads to directories only. -/
def trail? (disk : Disk) (path : Path) : Option Trail := do
  if !path.isAbsolute then failure
  let trail ← disk.followAll [] path.segments
  if path.pieces.getLast?.any Path.isIdle && !disk.isDirectoryAt trail then failure
  return trail

def find? (disk : Disk) (path : Path) : Option DiskEntry := do disk.entry? (← disk.trail? path)

def isDirectory (disk : Disk) (path : Path) : Bool := disk.find? path == some .directory

/-- The content of a file and the time of its last change. -/
def file? (disk : Disk) (path : Path) : Option (String × Nat) :=
  match disk.find? path with
  | some (.file content modified) => some (content, modified)
  | _ => none

/-- The time of the last change of what stands at a path; that of a directory is not kept. -/
def modified? (disk : Disk) (path : Path) : Option Nat :=
  (disk.find? path).map fun
    | .directory => 0
    | .file _ modified => modified

def isFile (disk : Disk) (path : Path) : Bool := (disk.file? path).isSome

def read? (disk : Disk) (path : Path) : Option String := (disk.file? path).map (·.1)

def names? (disk : Disk) (path : Path) : Option (List String) := do
  let trail ← disk.trail? path
  if !disk.isDirectoryAt trail then failure
  return disk.entries.filterMap fun (t, _) =>
    if t.dropLast == trail then t.getLast? else none

/-- The names of an absolute path without `..`. -/
def trailOf (path : Path) : Trail :=
  path.normalize.segments.filterMap fun
    | .name s => some s
    | _ => none

/-- Puts an entry in place of what stood at its trail. -/
def put (disk : Disk) (trail : Trail) (entry : DiskEntry) : Disk :=
  if trail.isEmpty then disk
  else if (disk.entries.lookup trail).isSome then
    { entries := disk.entries.map fun (t, e) => if t == trail then (t, entry) else (t, e) }
  else { entries := disk.entries ++ [(trail, entry)] }

/-- Makes a directory and the directories that it lies in. -/
def makeDirectory (disk : Disk) (path : Path) : Disk :=
  (List.range (trailOf path).length).foldl
    (fun disk n =>
      let trail := (trailOf path).take (n + 1)
      if (disk.entry? trail).isSome then disk else disk.put trail .directory)
    disk

/-- The file that is in the way of a directory: one at its trail, or one that it would lie in. -/
def obstacle? (disk : Disk) (path : Path) : Option DiskError :=
  let trail := trailOf path
  (List.range trail.length).findSome? fun n =>
    match disk.entry? (trail.take (n + 1)) with
    | some (.file _ _) => some (if n + 1 == trail.length then .alreadyExists else .notDirectory)
    | _ => none

/-- Makes a directory unless a file is in the way. -/
def makeDirectory? (disk : Disk) (path : Path) : Except DiskError Disk :=
  match disk.obstacle? path with
  | some error => .error error
  | none => .ok (disk.makeDirectory path)

/-- Writes a file, and makes the directories that it lies in. -/
def write (disk : Disk) (path : Path) (content : String) (modified : Nat) : Disk :=
  (disk.makeDirectory (path.parent?.getD ⟨"/"⟩)).put (trailOf path) (.file content modified)

def removeFile (disk : Disk) (path : Path) : Disk :=
  if disk.isFile path then
    { entries := disk.entries.filter fun (t, _) => t != trailOf path }
  else disk

end Disk

end PhoenixLens
