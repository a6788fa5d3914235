import PhoenixLens.Model.Component
import PhoenixLens.Model.EntityKind
import PhoenixLens.Model.Usage

/-!
# What an exact parser answers

A report is flat: it names the slots that a use fills without saying where they stand, and it may
leave out offsets that can be worked out from the others. Reported offsets are 64-bit numbers, and
sums of them are taken as such.

An exact parser answers with a JSON object that lists what it has found under the name of its kind,
or that says what went wrong. The parser is something that may be available and that answers
questions, with whatever effects its monad has; beside it stands one that does not parse, but gives
prepared answers.
-/

namespace PhoenixLens

/-- An attribute in a report, from the start of its name to the end of its value. -/
structure ReportedAttribute where
  name : String
  start : Nat
  stop : Nat
  value : Option String := none
deriving DecidableEq, Repr

/-- A use of a component in a report. -/
structure ReportedUsage where
  name : String
  moduleContext : Option String := none
  isLocal : Bool := false
  start : Nat
  /-- The end of the open tag. -/
  stop : Nat
  nameStart : Option Nat := none
  nameEnd : Option Nat := none
  selfClosing : Bool := false
  blockEnd : Option Nat := none
  contentStart : Option Nat := none
  contentEnd : Option Nat := none
  attributes : List ReportedAttribute := []
  slots : List String := []
deriving DecidableEq, Repr

/-- The sum of two offsets as a 64-bit number. -/
def addOffsets (a b : Nat) : Nat := (a + b) % UInt64.size

namespace ReportedAttribute

def encode (reported : ReportedAttribute) : Json :=
  .obj [("name", .str reported.name), ("start", .nat reported.start), ("end", .nat reported.stop),
    ("value", .option .str reported.value)]

def decode : Json → Option ReportedAttribute := Json.decodeRecord do
  return {
    name := ← Json.required "name" Json.decodeString
    start := ← Json.required "start" (Json.decodeNat UInt64.size)
    stop := ← Json.required "end" (Json.decodeNat UInt64.size)
    value := ← Json.optional "value" Json.decodeString }

/-- The attribute with its ranges. A value ends where the attribute does. -/
def toUsageAttribute (reported : ReportedAttribute) : UsageAttribute :=
  { name := reported.name
    nameStart := reported.start
    nameEnd := addOffsets reported.start reported.name.utf8ByteSize
    value := reported.value
    valueStart := reported.value.map fun v => reported.stop - v.utf8ByteSize
    valueEnd := reported.value.map fun _ => reported.stop }

end ReportedAttribute

namespace ReportedUsage

def encode (reported : ReportedUsage) : Json :=
  .obj [("name", .str reported.name), ("moduleContext", .option .str reported.moduleContext),
    ("isLocal", .bool reported.isLocal), ("start", .nat reported.start),
    ("end", .nat reported.stop), ("nameStart", .option .nat reported.nameStart),
    ("nameEnd", .option .nat reported.nameEnd), ("selfClosing", .bool reported.selfClosing),
    ("blockEnd", .option .nat reported.blockEnd),
    ("contentStart", .option .nat reported.contentStart),
    ("contentEnd", .option .nat reported.contentEnd),
    ("attributes", .list ReportedAttribute.encode reported.attributes),
    ("slots", .list .str reported.slots)]

def decode : Json → Option ReportedUsage := Json.decodeRecord do
  return {
    name := ← Json.required "name" Json.decodeString
    moduleContext := ← Json.optional "moduleContext" Json.decodeString
    isLocal := ← Json.withDefault "isLocal" false Json.decodeBool
    start := ← Json.required "start" (Json.decodeNat UInt64.size)
    stop := ← Json.required "end" (Json.decodeNat UInt64.size)
    nameStart := ← Json.optional "nameStart" (Json.decodeNat UInt64.size)
    nameEnd := ← Json.optional "nameEnd" (Json.decodeNat UInt64.size)
    selfClosing := ← Json.withDefault "selfClosing" false Json.decodeBool
    blockEnd := ← Json.optional "blockEnd" (Json.decodeNat UInt64.size)
    contentStart := ← Json.optional "contentStart" (Json.decodeNat UInt64.size)
    contentEnd := ← Json.optional "contentEnd" (Json.decodeNat UInt64.size)
    attributes := ← Json.withDefault "attributes" [] (Json.decodeList ReportedAttribute.decode)
    slots := ← Json.withDefault "slots" [] (Json.decodeList Json.decodeString) }

/-- Something other than white space stands in the content before its first slot. -/
def hasBody (reported : ReportedUsage) (text : List Char) : Bool :=
  match reported.contentStart, reported.contentEnd with
  | some start, some stop =>
    (Text.span? text start stop).any fun body =>
      !Text.allBlank (((Text.cutAt? ['<', ':'] body).map (·.1)).getD body)
  | _, _ => false

/-- The use in the text that was parsed; a report about something beyond the text counts for
nothing. -/
def toUsage? (reported : ReportedUsage) (text : List Char) : Option ComponentUsage :=
  if reported.stop < reported.start || Text.byteLength text < reported.stop then none
  else
    let nameStart := reported.nameStart.getD (reported.start + 1)
    let nameLength := reported.name.utf8ByteSize + (if reported.isLocal then 1 else 0)
    some {
      componentName := reported.name
      moduleContext := reported.moduleContext
      isLocal := reported.isLocal
      openTagStart := reported.start
      openTagEnd := reported.stop
      nameStart
      nameEnd := reported.nameEnd.getD (addOffsets nameStart nameLength)
      attributes := reported.attributes.map ReportedAttribute.toUsageAttribute
      selfClosing := reported.selfClosing
      contentStart := reported.contentStart
      contentEnd := reported.contentEnd
      blockEnd := reported.blockEnd.getD reported.stop
      providedSlotNames :=
        if reported.hasBody text && !reported.slots.contains innerBlock then
          reported.slots ++ [innerBlock]
        else reported.slots }

end ReportedUsage

/-! ### What an exact parser answers -/

/-- What can be asked of a parser: the entities of a kind, or the uses of components in a
template. -/
inductive ParseKind where
  | entities (kind : EntityKind)
  | markup
deriving DecidableEq, Repr

namespace ParseKind

def name : ParseKind → String
  | entities kind => kind.name
  | markup => "markup"

abbrev Found : ParseKind → Type
  | entities kind => kind.Entity
  | markup => ReportedUsage

/-- The member of an answer that lists what has been found. -/
def member : ParseKind → String
  | entities kind => kind.name
  | markup => "usages"

def encodeFound : (kind : ParseKind) → kind.Found → Json
  | entities kind => kind.encodeEntity
  | markup => ReportedUsage.encode

def decodeFound : (kind : ParseKind) → Json → Option kind.Found
  | entities kind => kind.decodeEntity
  | markup => ReportedUsage.decode

/-- What has been found, as an answer lists it. -/
def encode (kind : ParseKind) (found : List kind.Found) : Json :=
  .obj [(kind.member, .list kind.encodeFound found)]

/-- What an answer lists; an answer without the member lists nothing. -/
def decode (kind : ParseKind) : Json → Option (List kind.Found) :=
  Json.decodeRecord (Json.withDefault kind.member [] (Json.decodeList kind.decodeFound))

end ParseKind

/-- Why an exact parser has given no result. -/
inductive ParseError where
  | unavailable
  /-- It could not be started, or the file could not be looked at. -/
  | notStarted
  /-- It took longer than the given number of milliseconds. -/
  | timeout (milliseconds : Nat)
  /-- It failed with a code, if it ended by itself, and a message. -/
  | failed (code : Option Int) (message : String)
  /-- It said that something is wrong with the source. -/
  | reported (type message : String)
  /-- Its answer cannot be read. -/
  | malformed
deriving DecidableEq, Repr

/-- A number of milliseconds, in seconds from one second on, without trailing zeros. -/
def durationText (milliseconds : Nat) : String :=
  if milliseconds == 0 then "0ns"
  else if milliseconds < 1000 then toString milliseconds ++ "ms"
  else
    let digits := (toString (1000 + milliseconds % 1000)).toList.drop 1
    let fraction := Text.dropEndWhile (· == '0') digits
    toString (milliseconds / 1000) ++
      (if fraction.isEmpty then "" else "." ++ String.ofList fraction) ++ "s"

namespace ParseError

def kind : ParseError → String
  | unavailable => "unavailable"
  | notStarted => "spawn"
  | timeout _ => "timeout"
  | failed _ _ => "exit"
  | reported _ _ => "reported"
  | malformed => "decode"

/-- What went wrong, unless only the system knows. -/
def message? : ParseError → Option String
  | unavailable => some "exact parser is unavailable"
  | timeout milliseconds => some ("exact parser timed out after " ++ durationText milliseconds)
  | failed (some code) message =>
    some ("exact parser exited with Some(" ++ toString code ++ "): " ++ message)
  | failed none message => some ("exact parser exited with None: " ++ message)
  | reported type message => some ("exact parser reported " ++ type ++ ": " ++ message)
  | notStarted | malformed => none

end ParseError

/-- The answer says that something went wrong: it has a member `error` that is neither `null` nor
`false`. -/
def isErrorPayload (answer : Json) : Bool :=
  match answer.field? "error" with
  | none | some .null | some (.bool false) => false
  | some _ => true

/-- A string member of an answer. -/
def stringMember (name default : String) (answer : Json) : String :=
  ((answer.field? name).bind Json.asString?).getD default

def decodePayload (kind : ParseKind) (answer : Json) : Except ParseError (List kind.Found) :=
  if isErrorPayload answer then
    .error (.reported (stringMember "type" "error" answer)
      (stringMember "message" "unknown error" answer))
  else
    match kind.decode answer with
    | some found => .ok found
    | none => .error .malformed

example : durationText 1250 = "1.25s" := by decide

/-! ### Parsers -/

/-- What is given to an exact parser. -/
inductive ExactInput where
  /-- A file on disk. -/
  | file (path : Path)
  /-- A text that is not on disk as it is. -/
  | content (path : Path) (text : String)

/-- A parser outside of this program. -/
structure ExactParser (m : Type → Type) where
  isAvailable : m Bool
  run : ParseKind → ExactInput → m (Except ParseError Json)

/-- The same parser with effects of another kind. -/
def ExactParser.lift {m n : Type → Type} [MonadLiftT m n] (parser : ExactParser m) :
    ExactParser n where
  isAvailable := liftM parser.isAvailable
  run kind input := liftM (parser.run kind input)

/-- Prepared answers, and the questions so far. -/
structure Replay where
  isUsable : Bool := true
  answers : List (Except ParseError Json) := []
  /-- What is answered when nothing else is left. -/
  lastAnswer : Json := .null
  asked : List (ParseKind × ExactInput) := []

namespace Replay

def respond (replay : Replay) (kind : ParseKind) (input : ExactInput) :
    Except ParseError Json × Replay :=
  (replay.answers.head?.getD (.ok replay.lastAnswer),
    { replay with answers := replay.answers.tail, asked := replay.asked ++ [(kind, input)] })

def parser {m : Type → Type} [Monad m] [MonadStateOf Replay m] : ExactParser m where
  isAvailable := return (← get).isUsable
  run kind input := modifyGet (·.respond kind input)

end Replay

end PhoenixLens
