import PhoenixLens.Elixir.Scan
import PhoenixLens.Exact.BoundedCache
import PhoenixLens.Exact.Payload
import PhoenixLens.Project.Config
import PhoenixLens.Text.Digest

/-!
# Parsing with and without an exact parser

The gateway asks the exact parser first, if there is one, and takes what a scanner finds if that
gives no result. Answers that could be decoded are kept: for a text by its digest, for a file by its
path and the time of its last change. What an exact parser does besides answering is left to the
monad `m`.
-/

namespace PhoenixLens

/-- How a result has come about. -/
inductive Strategy where
  | exact
  | scanned
deriving DecidableEq, Repr

/-- What a parser was asked about a file as it was at a time. -/
structure FileQuestion where
  kind : ParseKind
  path : Path
  modified : Nat

instance : BEq FileQuestion where
  beq a b := a.kind == b.kind && a.path.same b.path && a.modified == b.modified

/-- What a parser was asked about a text. -/
structure TextQuestion where
  kind : ParseKind
  digest : String
deriving DecidableEq, Repr

/-- An exact parser, if there is one, with the answers that are kept. -/
structure Gateway (m : Type → Type) where
  parser : Option (ExactParser m) := none
  fileAnswers : BoundedCache FileQuestion Json := { capacity := 0 }
  textAnswers : BoundedCache TextQuestion Json := { capacity := 0 }

/-- Computations that use a gateway. -/
abbrev Parsing (m : Type → Type) := StateT (Gateway m) m

namespace Gateway

variable {m : Type → Type} [Monad m]

/-- The gateway with an exact parser and with room for answers as the settings say. -/
def ofParser (parser : ExactParser m) (config : ParserConfig) : Gateway m :=
  { parser := some parser
    fileAnswers := { capacity := config.fileCacheSize }
    textAnswers := { capacity := config.contentCacheSize } }

/-- The exact parser, if there is one and it can be used. -/
def available? (gateway : Gateway m) : m (Option (ExactParser m)) := do
  match gateway.parser with
  | none => return none
  | some parser => return if ← parser.isAvailable then some parser else none

def parseExact (kind : ParseKind) (path : Path) (text : String) :
    Parsing m (Except ParseError (List kind.Found)) := do
  let gateway ← get
  match ← gateway.available? with
  | none => return .error .unavailable
  | some parser =>
    let question : TextQuestion := ⟨kind, Text.contentDigest text⟩
    match gateway.textAnswers.find? question with
    | some answer =>
      set { gateway with textAnswers := gateway.textAnswers.touch question }
      return decodePayload kind answer
    | none =>
      match ← parser.run kind (.content path text) with
      | .error error => return .error error
      | .ok answer =>
        let found := decodePayload kind answer
        if found.toBool then
          set { gateway with textAnswers := gateway.textAnswers.set question answer }
        return found

def parseFileExact (disk : Disk) (kind : ParseKind) (path : Path) :
    Parsing m (Except ParseError (List kind.Found)) := do
  let gateway ← get
  match ← gateway.available? with
  | none => return .error .unavailable
  | some parser =>
    match disk.modified? path with
    | none => return .error .notStarted
    | some modified =>
      let question : FileQuestion := ⟨kind, path, modified⟩
      match gateway.fileAnswers.find? question with
      | some answer =>
        set { gateway with fileAnswers := gateway.fileAnswers.touch question }
        return decodePayload kind answer
      | none =>
        match ← parser.run kind (.file path) with
        | .error error => return .error error
        | .ok answer =>
          let found := decodePayload kind answer
          if found.toBool then
            set { gateway with fileAnswers := gateway.fileAnswers.set question answer }
          return found

/-- What a scanner finds; uses of components are not its business. -/
def scan (disk : Disk) (path : Path) (text : String) : (kind : ParseKind) → List kind.Found
  | .entities kind => kind.scan disk path text.toList
  | .markup => []

/-- The exact result, or else that of the scanner. -/
def orScan {kind : ParseKind} (disk : Disk) (path : Path) (text : String) :
    Except ParseError (List kind.Found) → List kind.Found × Strategy
  | .ok found => (found, .exact)
  | .error _ => (scan disk path text kind, .scanned)

def parse (disk : Disk) (kind : ParseKind) (path : Path) (text : String) :
    Parsing m (List kind.Found × Strategy) := do
  return orScan disk path text (← parseExact kind path text)

/-- What is found in a file with the given text. -/
def parseFile (disk : Disk) (kind : ParseKind) (path : Path) (text : String) :
    Parsing m (List kind.Found × Strategy) := do
  return orScan disk path text (← parseFileExact disk kind path)

def clear (gateway : Gateway m) : Gateway m :=
  { gateway with
    fileAnswers := gateway.fileAnswers.clear
    textAnswers := gateway.textAnswers.clear }

end Gateway

end PhoenixLens
