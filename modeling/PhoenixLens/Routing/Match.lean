import PhoenixLens.Markup.Tag
import PhoenixLens.Model.Route
import PhoenixLens.Text.Basic

/-!
# Routes for a path

A path as a template writes it is looked up among routes: first as it stands, then with parameters
of the route standing for any segment, and last, for a path that is still being written, as the
beginning of a route. Interpolated parts of a path count as one segment that matches any other. The
paths that a text writes with the sigil `~p` have to have a route.
-/

namespace PhoenixLens.Routing

/-- Puts the segment `:_` in place of each interpolation. -/
def replaceInterpolations (cs : List Char) : List Char :=
  go 0 0 cs
where
  /-- Continues at `resume`. -/
  go (resume pos : Nat) : List Char → List Char
    | [] => []
    | c :: cs =>
      let next := pos + c.utf8Size
      if pos < resume then go resume next cs
      else if c == '#' && cs.head? == some '{' then
        match Markup.expressionEnd? next cs with
        | some stop => ':' :: '_' :: go stop next cs
        | none => [':', '_']
      else c :: go resume next cs

/-- A path without query, fragment and slashes at its end, with `:_` for interpolations. -/
def normalizePath (path : List Char) : List Char :=
  let plain := (replaceInterpolations path).takeWhile fun c => c != '?' && c != '#'
  match Text.dropEndWhile (· == '/') plain with
  | [] => ['/']
  | trimmed => trimmed

/-- The segments of a path that are not empty. -/
def segments (path : List Char) : List (List Char) :=
  (Text.splitAt '/' path).filter (!·.isEmpty)

def isParameter (segment : List Char) : Bool := segment.head? == some ':'

def isGlobSegment (segment : List Char) : Bool := segment.head? == some '*'

/-- The segments of a route match those of a path. -/
def segmentsMatch : List (List Char) → List (List Char) → Bool
  | [], path => path.isEmpty
  | expected :: pattern, path =>
    if isGlobSegment expected then true
    else
      match path with
      | [] => false
      | actual :: path =>
        (isParameter expected || isParameter actual || expected == actual) &&
          segmentsMatch pattern path

def pathMatches (pattern path : List Char) : Bool :=
  segmentsMatch (segments pattern) (segments path)

/-- The segments of a path that is still being written are the first ones of a route. The last one
may itself be unfinished. -/
def segmentsBegin (lastIsOpen : Bool) : List (List Char) → List (List Char) → Bool
  | _, [] => true
  | [], _ :: _ => false
  | expected :: pattern, actual :: path =>
    let isWild := isParameter expected || isGlobSegment expected || isParameter actual
    let agrees := if path.isEmpty && lastIsOpen then actual.isPrefixOf expected
      else expected == actual
    (isWild || agrees) && segmentsBegin lastIsOpen pattern path

/-- The beginning of a path matches the path of a route. -/
def pathBegins (pattern path : List Char) : Bool :=
  let written := segments path
  !written.isEmpty && segmentsBegin (path.getLast? != some '/') (segments pattern) written

/-- The route for a finished path: one that is written alike, or else one that matches. -/
def routeFor? (routes : List Route) (path : List Char) : Option Route :=
  let path := normalizePath path
  (routes.find? fun r => normalizePath r.path.toList == path).or
    (routes.find? fun r => pathMatches r.path.toList path)

def leastBy? {α : Type} (measure : α → Nat) (items : List α) : Option α :=
  items.foldl (fun best item =>
    match best with
    | some b => if measure item < measure b then some item else some b
    | none => some item) none

/-- The route for a path that may still be unfinished; of several that it begins, the shortest. -/
def routeForPartial? (routes : List Route) (path : List Char) : Option Route :=
  let written := normalizePath path
  (routeFor? routes path).or
    (leastBy? (fun r => (segments r.path.toList).length)
      (routes.filter fun r => pathBegins r.path.toList written))

/-! ### Verified routes -/

/-- A path with its offsets in the text. -/
structure VerifiedRoute where
  path : List Char
  start : Nat
  stop : Nat
deriving DecidableEq, Repr

/-- The path of a sigil that a text begins with. -/
def verifiedPath? (cs : List Char) : Option (List Char × List Char) := do
  let rest ← Text.stripPrefix? "~p\"" cs
  let path := rest.takeWhile fun c => c != '"' && c != '\n'
  match rest.drop path.length with
  | '"' :: rest => return (path, rest)
  | _ => failure

def verifiedRoutes (cs : List Char) : List VerifiedRoute :=
  (Text.matchesWithOffsets (fun _ => verifiedPath?) cs).map fun (pos, path) =>
    { path, start := pos + 3, stop := pos + 3 + Text.byteLength path }

end PhoenixLens.Routing
