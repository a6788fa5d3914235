import PhoenixLens.Path.Basic
import PhoenixLens.Uri.Host

/-!
# URIs

Documents are named by URIs and files by paths. A URI is kept in its normal form: scheme in lower
case, host folded, `.` and `..` resolved, and characters that may not stand in it written as bytes
in hexadecimal. Names of files turn into URIs and back.
-/

namespace PhoenixLens

namespace Uri

/-- A host and what stands beside it. -/
structure Authority where
  /-- User and password, encoded. -/
  credentials : String := ""
  host : Host := .absent
  /-- The port, unless it is the usual one of the scheme. -/
  port : Option Nat := none
deriving DecidableEq, Repr

end Uri

/-- A URI in normal form. -/
structure Uri where
  scheme : String
  /-- `none` where no host can be written. -/
  authority : Option Uri.Authority := none
  /-- The path; one that does not begin with a slash is opaque. -/
  path : String
  /-- Query and fragment, with the marks that they begin with. -/
  suffix : String := ""
deriving DecidableEq, Repr

namespace Uri

/-! ### Segments -/

/-- A letter and the colon or bar behind it, which name a drive. -/
def isDrive : List Char → Bool
  | [letter, mark] => Text.isAsciiLetter letter && (mark == ':' || mark == '|')
  | _ => false

/-- A segment that `..` does not leave: a drive, or one behind whose name a backslash stands. -/
def staysIn (segment : List Char) : Bool :=
  isDrive (segment.take 2) && (segment.length == 2 || segment[2]? == some '\\')

/-- The step that a segment of a path stands for, with encoded dots read as dots. -/
def plainDots (segment : List Char) : List Char :=
  Text.replaceAll ['%', '2', 'e'] ['.'] 0 (Text.asciiLowercase segment)

/-- The segments, in reverse, after going up. -/
def goUp : List (List Char) → List (List Char)
  | [] => []
  | segment :: done => if staysIn segment then segment :: done else done

/-- Resolves the segments of a path behind those that are done, in reverse; a `.` or `..` at the end
leaves a slash there. In a path of files a drive at the beginning is written with a colon. -/
def resolveSegments (ofFile : Bool) (done : List (List Char)) :
    List (List Char) → List (List Char)
  | [] => done.reverse
  | segment :: rest =>
    if plainDots segment == ['.', '.'] then
      resolveSegments ofFile (if rest.isEmpty then [] :: goUp done else goUp done) rest
    else if plainDots segment == ['.'] then
      resolveSegments ofFile (if rest.isEmpty then [] :: done else done) rest
    else if ofFile && done.isEmpty && isDrive segment then
      resolveSegments ofFile ((segment.take 1 ++ [':']) :: done) rest
    else resolveSegments ofFile (encodeChars isPathSpecial segment :: done) rest

/-- The segments of the path that stands behind its first slash. -/
def segmentsOf (ofFile : Bool) (cs : List Char) : List (List Char) :=
  resolveSegments ofFile [] (Text.splitAt '/' cs)

/-- The path with the given segments. -/
def joinSegments (segments : List (List Char)) : List Char := '/' :: Text.join ['/'] segments

/-! ### Reading -/

/-- Schemes whose URIs have a domain and read backslashes as slashes, and the usual ports. -/
def specialSchemes : List (String × Option Nat) :=
  [("file", none), ("http", some 80), ("https", some 443), ("ws", some 80), ("wss", some 443),
    ("ftp", some 21)]

def isSpecial (scheme : String) : Bool := specialSchemes.any (·.1 == scheme)

/-- The port that is meant where none is written. -/
def usualPort? (scheme : String) : Option Nat := (specialSchemes.lookup scheme).join

/-- The scheme that a text begins with, in lower case, and what follows its colon. -/
def scheme? (cs : List Char) : Option (String × List Char) :=
  let isSchemeChar := fun c => Text.isAsciiAlphanumeric c || c == '+' || c == '-' || c == '.'
  match cs.dropWhile isSchemeChar with
  | ':' :: rest =>
    if cs.head?.any Text.isAsciiLetter then
      some (String.ofList (Text.asciiLowercase (cs.takeWhile isSchemeChar)), rest)
    else none
  | _ => none

def isSlash (special : Bool) (c : Char) : Bool := c == '/' || (special && c == '\\')

/-- The normal form of query and fragment. -/
def normalSuffix (special : Bool) (cs : List Char) : List Char :=
  let query := cs.takeWhile (· != '#')
  let fragment := cs.dropWhile (· != '#')
  let query := match query with
    | '?' :: q => '?' :: encodeChars (isQuerySpecial special) q
    | q => q
  let fragment := match fragment with
    | '#' :: f => '#' :: encodeChars isFragmentSpecial f
    | f => f
  query ++ fragment

/-- User and password. A colon without a password behind it is left out. -/
def credentialsOf (cs : List Char) : List Char :=
  let encode := encodeChars isCredentialSpecial
  match cs.dropWhile (· != ':') with
  | ':' :: password =>
    encode (cs.takeWhile (· != ':')) ++
      (if password.isEmpty then [] else ':' :: encode password)
  | _ => encode cs

/-- The part before the last `@` of an authority, if there is one, and the part behind it. -/
def cutCredentials (cs : List Char) : Option (List Char) × List Char :=
  if cs.contains '@' then
    let host := (cs.reverse.takeWhile (· != '@')).reverse
    (some (cs.take (cs.length - host.length - 1)), host)
  else (none, cs)

/-- The length of a host: up to a colon that does not stand in brackets. -/
def hostLength (inBrackets : Bool) : List Char → Nat
  | [] => 0
  | c :: cs =>
    if c == ':' && !inBrackets then 0
    else hostLength (c == '[' || (c != ']' && inBrackets)) cs + 1

/-- The port that digits name, if there are any. -/
def port? (digits : List Char) : Option (Option Nat) :=
  if digits.isEmpty then some none
  else ((Host.number? 10 digits).filter (· < 65536)).map some

/-- Reads an authority. A backslash behind the digits of a port begins the path; what is left is the
second part of the result. -/
def authority? (scheme : String) (cs : List Char) (atEnd : Bool) :
    Option (Authority × List Char) := do
  let special := isSpecial scheme
  let (user, rest) := cutCredentials cs
  if user == some [] && rest.isEmpty && !atEnd then failure
  let credentials := credentialsOf (user.getD [])
  let hostText := rest.take (hostLength false rest)
  let portText := rest.drop (hostLength false rest)
  if hostText.isEmpty && (special || !portText.isEmpty || !credentials.isEmpty) then failure
  let host ← if special then Host.ofDomain? hostText else Host.ofText? hostText
  let digits := portText.tail.takeWhile Text.isAsciiDigit
  let left := portText.tail.dropWhile Text.isAsciiDigit
  if !(left.isEmpty || left.head? == some '\\') then failure
  let port ← port? digits
  return ({ credentials := String.ofList credentials, host
            port := port.filter (some · != usualPort? scheme) }, left)

/-- Reads what follows the scheme and two slashes. -/
def withAuthority? (scheme : String) (cs : List Char) (suffix : String) : Option Uri := do
  let special := isSpecial scheme
  let rest := cs.dropWhile (!isSlash special ·)
  let atEnd := rest.isEmpty && suffix.isEmpty
  let (authority, left) ← authority? scheme (cs.takeWhile (!isSlash special ·)) atEnd
  let path :=
    match left ++ rest with
    | [] => if special then ['/'] else []
    | c :: cs => joinSegments (segmentsOf false (if isSlash special c then cs else c :: cs))
  return { scheme, suffix, authority := some authority, path := String.ofList path }

/-- Reads the path of a file. Slashes at its beginning count as one, and a drive there leaves out
the host. -/
def ofFilePath (host : Host) (cs : List Char) (suffix : String) : Uri :=
  let segments := segmentsOf true cs
  let host := if segments.head?.any isDrive then Host.absent else host
  { scheme := "file", suffix
    authority := some { host }
    path := String.ofList ('/' :: (joinSegments segments).dropWhile (· == '/')) }

/-- Reads what follows the scheme of files. A drive in the place of the host begins the path. -/
def file? (cs : List Char) (suffix : String) : Option Uri :=
  match cs.map fun c => if c == '\\' then '/' else c with
  | '/' :: '/' :: rest =>
    let host := rest.takeWhile (· != '/')
    let path := rest.dropWhile (· != '/')
    if isDrive host then some (ofFilePath .absent rest suffix)
    else if host.isEmpty then some (ofFilePath .absent path suffix)
    else do
      let host ← Host.ofDomain? host
      if host.isLocal then some (ofFilePath .absent path suffix)
      else some (ofFilePath host path.tail suffix)
  | '/' :: rest => some (ofFilePath .absent rest suffix)
  | rest => some (ofFilePath .absent rest suffix)

/-- Reads a URI. Blanks around it and line breaks in it do not count. -/
def parse? (s : String) : Option Uri := do
  let isEdge := fun (c : Char) => c.toNat ≤ 0x20
  let cs := Text.dropEndWhile isEdge (s.toList.dropWhile isEdge)
  let cs := cs.filter fun c => c != '\t' && c != '\n' && c != '\r'
  let (scheme, rest) ← scheme? cs
  let special := isSpecial scheme
  let isBodyEnd := fun c => c == '?' || c == '#'
  let body := rest.takeWhile (!isBodyEnd ·)
  let suffix := String.ofList (normalSuffix special (rest.dropWhile (!isBodyEnd ·)))
  if scheme == "file" then file? body suffix
  else if special then
    let body := body.map fun c => if c == '\\' then '/' else c
    withAuthority? scheme (body.dropWhile (· == '/')) suffix
  else
    match body with
    | '/' :: '/' :: rest => withAuthority? scheme rest suffix
    | '/' :: rest =>
      some { scheme, suffix, path := String.ofList (joinSegments (segmentsOf false rest)) }
    | rest => some { scheme, suffix, path := String.ofList (encodeControls rest) }

/-! ### Writing -/

def Authority.text (authority : Authority) : String :=
  (if authority.credentials.isEmpty then "" else authority.credentials ++ "@") ++
    authority.host.text ++
    match authority.port with
    | some port => ":" ++ toString port
    | none => ""

/-- The URI as text. A path that begins with two slashes is kept apart from a host. -/
def text (uri : Uri) : String :=
  uri.scheme ++ ":" ++
    (match uri.authority with
      | some authority => "//" ++ authority.text
      | none => if Text.startsWith "//" uri.path.toList then "/." else "") ++
    uri.path ++ uri.suffix

/-! ### Files -/

/-- The path of the file that a URI names; URIs with an opaque path or on another host name none. -/
def toPath? (uri : Uri) : Option Path := do
  if !Text.startsWith "/" uri.path.toList then failure
  if !uri.authority.all (·.host.isLocal) then failure
  return (Path.mk (String.ofList (Text.ofBytes (percentDecode uri.path.toList)))).normalize

/-- The URI of a file, whose path has to be absolute. -/
def ofPath? (path : Path) : Option Uri :=
  if path.isAbsolute then
    let names := path.segments.tail.map fun s => encodeChars isSegmentSpecial s.text.toList
    some { scheme := "file"
           authority := some {}
           path := String.ofList ('/' :: Text.join ['/'] names) }
  else none

end Uri

end PhoenixLens
