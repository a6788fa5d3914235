import PhoenixLens.Json.Decode
import PhoenixLens.Text.Basic

/-!
# Paths

A path is kept as it was written and compared by its segments, so that repeated and trailing
slashes and inner `.` segments make no difference. A `.` counts only at the beginning of a
relative path. In a table from paths to values, paths that lead the same way are one key, and the
spelling that came first is shown.
-/

namespace PhoenixLens

structure Path where
  text : String
deriving DecidableEq, Repr, Inhabited

/-- One step of a path. -/
inductive Segment where
  /-- The slash that an absolute path begins with. -/
  | root
  /-- A `.` at the beginning. -/
  | here
  /-- A `..` anywhere. -/
  | up
  | name (s : String)
deriving DecidableEq, Repr

namespace Segment

/-- The place of a kind of segment in the order of paths. -/
def rank : Segment → Nat
  | root => 0
  | here => 1
  | up => 2
  | name _ => 3

/-- Segments are ordered by kind and names by their characters. -/
def before (a b : Segment) : Bool :=
  match a, b with
  | name s, name t => s < t
  | a, b => a.rank < b.rank

def text : Segment → String
  | root => "/"
  | here => "."
  | up => ".."
  | name s => s

/-- The segment of a piece between slashes that is neither empty nor `.`. -/
def ofPiece (piece : List Char) : Segment :=
  if piece == ['.', '.'] then up else name (String.ofList piece)

end Segment

namespace Path

def isAbsolute (path : Path) : Bool := Text.startsWith "/" path.text.toList

/-- The steps of a path, by which paths are compared. -/
def segments (path : Path) : List Segment :=
  let pieces := Text.splitAt '/' path.text.toList
  let named := (pieces.filter fun p => !p.isEmpty && p != ['.']).map Segment.ofPiece
  if path.isAbsolute then .root :: named
  else if pieces.head? == some ['.'] then .here :: named
  else named

/-- Both paths lead the same way. -/
def same (a b : Path) : Bool := a.segments == b.segments

/-- The order of paths: segment by segment, a path before its extensions. -/
def segmentsBefore : List Segment → List Segment → Bool
  | [], [] => false
  | [], _ :: _ => true
  | _ :: _, [] => false
  | a :: as, b :: bs => if a == b then segmentsBefore as bs else a.before b

/-- The path `a` comes before `b` or leads the same way. -/
def atMost (a b : Path) : Bool := !segmentsBefore b.segments a.segments

/-- Paths in ascending order. -/
def sort (paths : List Path) : List Path := paths.mergeSort atMost

/-- The path with the given segments, written with single slashes. -/
def ofSegments : List Segment → Path
  | .root :: rest => ⟨"/" ++ "/".intercalate (rest.map Segment.text)⟩
  | segments => ⟨"/".intercalate (segments.map Segment.text)⟩

/-- Resolves `.` and `..` by the text alone; a `..` with nothing before it goes. -/
def normalize (path : Path) : Path :=
  ofSegments (path.segments.foldl step [])
where
  /-- Takes one more segment. -/
  step (done : List Segment) : Segment → List Segment
    | .here => done
    | .up => if done == [.root] then done else done.dropLast
    | segment => done ++ [segment]

def fileName? (path : Path) : Option String :=
  match path.segments.getLast? with
  | some (.name s) => some s
  | _ => none

/-- A file name cut at its last dot: the stem and, if there is a dot that does not begin the name,
the extension. -/
def cutName (name : String) : List Char × Option (List Char) :=
  let cs := name.toList
  let extension := (cs.reverse.takeWhile (· != '.')).reverse
  let stem := cs.take (cs.length - extension.length - 1)
  if stem.isEmpty || extension.length == cs.length then (cs, none) else (stem, some extension)

def stem? (path : Path) : Option String := path.fileName?.map fun n => String.ofList (cutName n).1

/-- The part of the file name after its last dot. -/
def extension? (path : Path) : Option String := do
  let extension ← (cutName (← path.fileName?)).2
  some (String.ofList extension)

/-- A piece between slashes that leads nowhere. -/
def isIdle (piece : List Char) : Bool := piece.isEmpty || piece == ['.']

/-- The pieces of a path between slashes, behind the slash or the `.` that it begins with. -/
def pieces (path : Path) : List (List Char) :=
  match Text.splitAt '/' path.text.toList with
  | first :: rest => if isIdle first then rest else first :: rest
  | [] => []

/-- The text that a path begins with before its pieces: a slash, a `.`, or nothing. -/
def lead (path : Path) : List Char :=
  if path.isAbsolute then ['/'] else if path.segments.head? == some .here then ['.', '/'] else []

/-- Leaves out the pieces at the end that lead nowhere. -/
def dropIdleEnd (pieces : List (List Char)) : List (List Char) :=
  (pieces.reverse.dropWhile isIdle).reverse

/-- The path without its last segment, as written; the root and the empty path have none. -/
def parent? (path : Path) : Option Path :=
  let text := path.lead
  match dropIdleEnd path.pieces with
  | [] => if text == ['.', '/'] then some ⟨""⟩ else none
  | pieces =>
    match dropIdleEnd pieces.dropLast with
    | [] => some ⟨String.ofList (if text == ['/'] then text else text.dropLast)⟩
    | rest => some ⟨String.ofList (text ++ Text.join ['/'] rest)⟩

def join (path : Path) (inner : String) : Path :=
  if Text.startsWith "/" inner.toList then ⟨inner⟩
  else if path.text.isEmpty || Text.endsWith "/" path.text.toList then ⟨path.text ++ inner⟩
  else ⟨path.text ++ "/" ++ inner⟩

def withFileName (path : Path) (name : String) : Path :=
  if path.fileName?.isSome then (path.parent?.getD ⟨""⟩).join name else path.join name

/-- What is left of pieces behind the given number of those that lead somewhere. -/
def dropPieces : Nat → List (List Char) → List (List Char)
  | _, [] => []
  | n, piece :: pieces =>
    if isIdle piece then dropPieces n pieces
    else
      match n with
      | 0 => piece :: pieces
      | n + 1 => dropPieces n pieces

/-- The path seen from a directory that it lies in, as written. -/
def relativeTo? (path directory : Path) : Option Path :=
  if directory.segments.isPrefixOf path.segments then
    let rest := if directory.segments.isEmpty then Text.splitAt '/' path.text.toList else
      dropPieces (directory.segments.filter fun s => s != .root && s != .here).length path.pieces
    some ⟨String.ofList (Text.join ['/'] (dropIdleEnd rest))⟩
  else none

/-- The path leads to the directory or into it. -/
def isWithin (path directory : Path) : Bool :=
  directory.segments.isPrefixOf path.segments

/-- Files of Elixir source: the extension is `ex` or `exs`. -/
def isElixir (path : Path) : Bool := path.extension? == some "ex" || path.extension? == some "exs"

/-- Template files: the name ends in `.heex`. -/
def isTemplate (path : Path) : Bool := path.fileName?.any fun n => Text.endsWith ".heex" n.toList

/-- Files of a project that are indexed. -/
def isSource (path : Path) : Bool := path.isElixir || path.isTemplate

def encode (path : Path) : Json := .str path.text

def decode (value : Json) : Option Path := value.asString?.map Path.mk

end Path

/-! ### Tables by path -/

/-- Values by path, in order of insertion. -/
structure PathTable (α : Type) where
  entries : List (Path × α) := []
deriving DecidableEq, Repr

namespace PathTable

variable {α : Type}

def get? (table : PathTable α) (path : Path) : Option α :=
  (table.entries.find? fun e => e.1.same path).map (·.2)

def contains (table : PathTable α) (path : Path) : Bool := (table.get? path).isSome

/-- Puts a value in place of what the path had. -/
def set (table : PathTable α) (path : Path) (value : α) : PathTable α :=
  if table.contains path then
    { entries := table.entries.map fun e => if e.1.same path then (e.1, value) else e }
  else { entries := table.entries ++ [(path, value)] }

def erase (table : PathTable α) (path : Path) : PathTable α :=
  { entries := table.entries.filter fun e => !e.1.same path }

def keys (table : PathTable α) : List Path := table.entries.map (·.1)

def values (table : PathTable α) : List α := table.entries.map (·.2)

def size (table : PathTable α) : Nat := table.entries.length

/-- The entries in order of their paths. -/
def sorted (table : PathTable α) : List (Path × α) :=
  table.entries.mergeSort fun a b => a.1.atMost b.1

/-- The table of a list of entries, of which later ones win. -/
def ofList (entries : List (Path × α)) : PathTable α :=
  entries.foldl (fun table e => table.set e.1 e.2) {}

/-- Tables of no entries hold nothing. -/
@[simp] theorem get?_empty (path : Path) : ({} : PathTable α).get? path = none := rfl

end PathTable

end PhoenixLens
