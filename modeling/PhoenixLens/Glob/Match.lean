import PhoenixLens.Text.Basic

/-!
# Glob patterns

A pattern for paths: `*` and `?` stand for anything, slashes included; `**` as a whole component
stands for any number of components; `[…]` for one of some characters; `{…}` for one of some
patterns; a backslash takes the next character as it is. Reading a pattern is a fold over its
characters with the open groups and the open class between them.

Patterns match the bytes of a path, so `?` stands for one byte. A token is given by what may be left
of a text behind it; a pattern matches a text if nothing may be left. Patterns that ask for a name
or an extension match no path that ends in `..`, which is not the name of a file.
-/

namespace PhoenixLens

/-- A part of a pattern. -/
inductive GlobToken where
  | literal (c : Char)
  /-- `?` -/
  | any
  /-- `*` -/
  | zeroOrMore
  /-- `**/` at the beginning of a pattern or group. -/
  | leadingDirectories
  /-- `/**` at the end of a pattern or group. -/
  | everythingInside
  /-- `/**/` -/
  | innerDirectories
  | characterClass (negated : Bool) (ranges : List (Char × Char))
  | alternatives (branches : List (List GlobToken))
deriving Repr

/-- Why a text is not a pattern. -/
inductive GlobError where
  | unclosedClass
  | invalidRange (first last : Char)
  | unopenedGroup
  | unclosedGroup
  | danglingEscape
deriving DecidableEq, Repr

namespace GlobError

def reason : GlobError → String
  | unclosedClass => "unclosed character class; missing ']'"
  | invalidRange first last =>
    "invalid range; '" ++ first.toString ++ "' > '" ++ last.toString ++ "'"
  | unopenedGroup =>
    "unopened alternate group; missing '\x7b' (maybe escape '\x7d' with '[\x7d]'?)"
  | unclosedGroup =>
    "unclosed alternate group; missing '\x7d' (maybe escape '\x7b' with '[\x7b]'?)"
  | danglingEscape => "dangling '\\'"

end GlobError

namespace Glob

/-- A class whose end has not been reached. Ranges are kept last first; `inRange` behind a dash
that may begin the second half of a range. -/
structure OpenClass where
  negated : Bool
  ranges : List (Char × Char) := []
  inRange : Bool := false

/-- The tokens of a branch, last first. -/
abbrev Branch := List GlobToken

/-- A pattern or a group under reading: the finished branches, last first, and the current one. -/
structure OpenGroup where
  finished : List Branch := []
  current : Branch := []

/-- The groups that are open, innermost first; `outer` is the pattern itself. -/
structure Reading where
  outer : Branch := []
  groups : List OpenGroup := []

namespace Reading

def current (reading : Reading) : Branch :=
  match reading.groups with
  | [] => reading.outer
  | group :: _ => group.current

def setCurrent (reading : Reading) (branch : Branch) : Reading :=
  match reading.groups with
  | [] => { reading with outer := branch }
  | group :: groups => { reading with groups := { group with current := branch } :: groups }

def push (reading : Reading) (token : GlobToken) : Reading :=
  reading.setCurrent (token :: reading.current)

def openGroup (reading : Reading) : Reading :=
  { reading with groups := {} :: reading.groups }

def closeGroup (reading : Reading) : Except GlobError Reading :=
  match reading.groups with
  | [] => throw .unopenedGroup
  | group :: groups =>
    let branches := ((group.current :: group.finished).map List.reverse).reverse
    return { reading with groups }.push (.alternatives branches)

/-- A comma, which separates the branches of a group. -/
def comma (reading : Reading) : Reading :=
  match reading.groups with
  | [] => reading.push (.literal ',')
  | group :: groups =>
    { reading with groups := { finished := group.current :: group.finished } :: groups }

/-- Two stars that are not a component of their own. -/
def pushStars (reading : Reading) : Reading := (reading.push .zeroOrMore).push .zeroOrMore

/-- Puts a token for directories in place of the slash before it; next to another one of its kind
that one stays. -/
def replaceSlash (reading : Reading) (token : GlobToken) : Reading :=
  match reading.current with
  | [] => reading
  | .leadingDirectories :: _ => reading
  | .everythingInside :: _ => reading
  | _ :: rest => reading.setCurrent (token :: rest)

/-- Takes up two stars behind the character `previous` and before `next`. The flag says whether
`next` is taken up with them. -/
def doubleStar (reading : Reading) (previous next : Option Char) : Reading × Bool :=
  let inGroup := !reading.groups.isEmpty
  if reading.current.isEmpty then
    if next.all (· == '/') then (reading.push .leadingDirectories, true)
    else (reading.pushStars, false)
  else if previous != some '/' && !(inGroup && (previous == some ',' || previous == some '{')) then
    (reading.pushStars, false)
  else
    match next with
    | none => (reading.replaceSlash .everythingInside, false)
    | some c =>
      if c == '/' then (reading.replaceSlash .innerDirectories, true)
      else if inGroup && (c == ',' || c == '}') then (reading.replaceSlash .everythingInside, false)
      else (reading.pushStars, false)

end Reading

namespace OpenClass

/-- Takes up a character of a class; `none` is the end of the class. -/
def take (openClass : OpenClass) (c : Char) : Except GlobError (Option OpenClass) :=
  match openClass.ranges with
  | [] => return some { openClass with ranges := [(c, c)] }
  | (first, last) :: ranges =>
    if c == ']' then return none
    else if openClass.inRange then
      if c < first then throw (.invalidRange first c)
      else return some { openClass with ranges := (first, c) :: ranges, inRange := false }
    else if c == '-' then return some { openClass with inRange := true }
    else return some { openClass with ranges := (c, c) :: (first, last) :: ranges }

/-- The token of a class that is complete. A dash at the end stands for itself. -/
def token (openClass : OpenClass) : GlobToken :=
  let ranges := if openClass.inRange then ('-', '-') :: openClass.ranges else openClass.ranges
  .characterClass openClass.negated ranges.reverse

end OpenClass

/-- Reads on behind the character `previous`, with `skip` characters taken up already. -/
def readTokens (reading : Reading) (inClass : Option OpenClass) (skip : Nat)
    (previous : Option Char) : List Char → Except GlobError Reading
  | [] => if inClass.isSome then throw .unclosedClass else return reading
  | c :: cs =>
    match skip, inClass with
    | skip + 1, _ => readTokens reading inClass skip (some c) cs
    | 0, some openClass => do
      match ← openClass.take c with
      | some openClass => readTokens reading (some openClass) 0 (some c) cs
      | none => readTokens (reading.push openClass.token) none 0 (some c) cs
    | 0, none =>
      match c with
      | '?' => readTokens (reading.push .any) none 0 (some c) cs
      | '*' =>
        if cs.head? == some '*' then
          let (reading, takesNext) := reading.doubleStar previous cs.tail.head?
          readTokens reading none (if takesNext then 2 else 1) (some c) cs
        else readTokens (reading.push .zeroOrMore) none 0 (some c) cs
      | '[' =>
        let negated := cs.head? == some '!' || cs.head? == some '^'
        readTokens reading (some { negated }) negated.toNat (some c) cs
      | '{' => readTokens reading.openGroup none 0 (some c) cs
      | '}' => do readTokens (← reading.closeGroup) none 0 (some c) cs
      | ',' => readTokens reading.comma none 0 (some c) cs
      | '\\' =>
        match cs.head? with
        | some escaped => readTokens (reading.push (.literal escaped)) none 1 (some c) cs
        | none => throw .danglingEscape
      | c => readTokens (reading.push (.literal c)) none 0 (some c) cs

end Glob

/-- A pattern and its tokens. -/
structure Glob where
  pattern : String
  tokens : List GlobToken

namespace Glob

def parse (pattern : String) : Except GlobError Glob := do
  let reading ← readTokens {} none 0 none pattern.toList
  if reading.groups.isEmpty then return ⟨pattern, reading.outer.reverse⟩
  else throw .unclosedGroup

end Glob

/-! ### Matching glob patterns -/

def bytesOf (s : String) : List UInt8 := s.toList.flatMap String.utf8EncodeChar

def slashByte : UInt8 := 47

/-- What is left of a text behind each of its slashes. -/
def afterSlashes : List UInt8 → List (List UInt8)
  | [] => []
  | b :: bs => if b == slashByte then bs :: afterSlashes bs else afterSlashes bs

/-- The ends of a text, from the whole of it down to the empty one. -/
def suffixes : List UInt8 → List (List UInt8)
  | [] => [[]]
  | b :: bs => (b :: bs) :: suffixes bs

/-- The byte ranges of a character range. Of a character of several bytes each byte counts on its
own, and a range reaches from the last byte of its first character to the first byte of its last. -/
def byteRanges (range : Char × Char) : List (UInt8 × UInt8) :=
  let first := String.utf8EncodeChar range.1
  let last := String.utf8EncodeChar range.2
  let single := fun b => (b, b)
  if range.1 == range.2 then first.map single
  else
    match first.getLast?, last with
    | some low, high :: rest => first.dropLast.map single ++ (low, high) :: rest.map single
    | _, _ => []

namespace GlobToken

mutual

/-- The token matches nothing but the empty text because nothing is written in it. -/
def isVacuous : GlobToken → Bool
  | alternatives branches => areVacuous branches
  | _ => false

/-- The tokens match nothing but the empty text because nothing is written in them. -/
def isVacuousBranch : List GlobToken → Bool
  | [] => true
  | token :: tokens => token.isVacuous && isVacuousBranch tokens

def areVacuous : List (List GlobToken) → Bool
  | [] => true
  | branch :: branches => isVacuousBranch branch && areVacuous branches

end

mutual

/-- What may be left of a text behind a token. -/
def leftovers : GlobToken → List UInt8 → List (List UInt8)
  | literal c, bs => ((String.utf8EncodeChar c).isPrefixOf? bs).toList
  | any, bs => bs.tail?.toList
  | zeroOrMore, bs => suffixes bs
  | leadingDirectories, bs => bs :: afterSlashes bs
  | everythingInside, bs => if bs.head? == some slashByte then suffixes bs.tail else []
  | innerDirectories, bs =>
    if bs.head? == some slashByte then bs.tail :: afterSlashes bs.tail else []
  | characterClass negated ranges, bs =>
    match bs with
    | [] => []
    | b :: rest =>
      let isIn := (ranges.flatMap byteRanges).any fun (low, high) => low ≤ b && b ≤ high
      if isIn != negated then [rest] else []
  | alternatives branches, bs =>
    if areVacuous branches then [bs] else leftoversOfBranches branches bs

/-- What may be left of some texts behind tokens in a row, each possibility once. -/
def leftoversOfBranch : List GlobToken → List (List UInt8) → List (List UInt8)
  | [], texts => texts
  | token :: tokens, texts =>
    leftoversOfBranch tokens ((texts.flatMap fun bs => token.leftovers bs).eraseDups)

/-- What may be left of a text behind one of the branches. Branches in which nothing is written do
not count. -/
def leftoversOfBranches : List (List GlobToken) → List UInt8 → List (List UInt8)
  | [], _ => []
  | branch :: branches, bs =>
    (if isVacuousBranch branch then [] else leftoversOfBranch branch [bs]) ++
      leftoversOfBranches branches bs

end

end GlobToken

/-- The character that a token stands for, if it stands for one alone. -/
def GlobToken.literal? : GlobToken → Option Char
  | literal c => some c
  | _ => none

namespace Glob

/-- The characters behind a star are an extension: a dot and what may follow the last dot of a
name. -/
def isExtension (cs : List Char) : Bool :=
  cs.head? == some '.' && cs.tail.all fun c => c != '.' && c != '/'

/-- The pattern asks for the name of a file or for its extension. One that only asks for the end of
a path, behind a star or any directories, does so if that end is a name or an extension; any other
does so if it ends in a dot and literal characters. -/
def asksForName (tokens : List GlobToken) : Bool :=
  let inside := match tokens with
    | .leadingDirectories :: rest => rest
    | tokens => tokens
  let ending := match inside with
    | .zeroOrMore :: rest => rest
    | rest => rest
  match ending.mapM GlobToken.literal? with
  | some cs =>
    if ending.length < inside.length then isExtension cs
    else inside.length < tokens.length && !cs.contains '/'
  | none =>
    let behindDot := (tokens.reverse.map GlobToken.literal?).takeWhile fun c =>
      c.any fun c => c != '.' && c != '/'
    (tokens.reverse.map GlobToken.literal?)[behindDot.length]? == some (some '.')

/-- The path ends in a step to the directory above. -/
def endsInParent (path : String) : Bool :=
  path == ".." || Text.endsWith "/.." path.toList

/-- The pattern matches the whole path. A pattern of two stars matches every path. -/
def isMatch (glob : Glob) (path : String) : Bool :=
  match glob.tokens with
  | [.leadingDirectories] => true
  | tokens =>
    (GlobToken.leftoversOfBranch tokens [bytesOf path]).any List.isEmpty &&
      !(endsInParent path && asksForName tokens)

end Glob

end PhoenixLens
