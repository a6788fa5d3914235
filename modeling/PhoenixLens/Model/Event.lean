import PhoenixLens.Path.Basic

/-!
# Events

The clauses of the two callbacks by which a live view handles events from the page and messages
from other processes.
-/

namespace PhoenixLens

/-- The callback that handles an event. -/
inductive EventKind where
  | handleEvent
  | handleInfo
deriving DecidableEq, Repr

/-- How the name of an event is written. -/
inductive NameKind where
  | string
  | atom
deriving DecidableEq, Repr

/-- A clause that handles events of one name. -/
structure Event where
  name : String
  filePath : Path := ⟨""⟩
  moduleName : String
  line : Nat
  params : String := ""
  kind : EventKind
  doc : Option String := none
  nameKind : NameKind
deriving DecidableEq, Repr

namespace EventKind

def tag : EventKind → String
  | handleEvent => "handle_event"
  | handleInfo => "handle_info"

def ofTag? : String → Option EventKind
  | "handle_event" => some handleEvent
  | "handle_info" => some handleInfo
  | _ => none

end EventKind

namespace NameKind

def tag : NameKind → String
  | string => "string"
  | atom => "atom"

def ofTag? : String → Option NameKind
  | "string" => some string
  | "atom" => some atom
  | _ => none

end NameKind

namespace Event

/-- Events from the page with a string name: if no template mentions the name, nothing sends it. -/
def isUnusedCandidate (event : Event) : Bool :=
  event.kind == .handleEvent && event.nameKind == .string

def encode (event : Event) : Json :=
  .obj [("name", .str event.name), ("filePath", event.filePath.encode),
    ("moduleName", .str event.moduleName), ("line", .nat event.line),
    ("params", .str event.params), ("kind", .str event.kind.tag),
    ("doc", .option .str event.doc), ("nameKind", .str event.nameKind.tag)]

def decode : Json → Option Event := Json.decodeRecord do
  return {
    name := ← Json.required "name" Json.decodeString
    filePath := ← Json.withDefault "filePath" ⟨""⟩ Path.decode
    moduleName := ← Json.required "moduleName" Json.decodeString
    line := ← Json.required "line" (Json.decodeNat UInt32.size)
    params := ← Json.withDefault "params" "" Json.decodeString
    kind := ← Json.required "kind" fun v => Json.decodeTag v >>= EventKind.ofTag?
    doc := ← Json.optional "doc" Json.decodeString
    nameKind := ← Json.required "nameKind" fun v => Json.decodeTag v >>= NameKind.ofTag? }

end Event

end PhoenixLens
