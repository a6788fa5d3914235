import PhoenixLens.Json.Parser
import PhoenixLens.Json.Printer
import PhoenixLens.Session.Capabilities
import PhoenixLens.Session.Parameters

/-!
# Messages between an editor and a session

An editor sends queries, which are answered, and notices, which are not; both name a method and may
carry parameters. A session sends notices of its own and requests whose answers do not matter to it.

On the wire every message is a JSON object behind a header that gives its length in bytes. An object
with a method and an identifier is a request, one with a method alone a notice, and one without a
method the answer to a request of the session.
-/

namespace PhoenixLens

/-! ### What an editor sends -/

/-- How a file has changed on disk. -/
inductive FileChange where
  | created
  | changed
  | deleted
deriving DecidableEq, Repr

/-- What an editor asks. -/
inductive Query where
  | initialization (root : Option Uri)
  | shutdown
  | executeCommand (name : String)
  | completion (uri : Uri) (position : Text.Position)
  | definition (uri : Uri) (position : Text.Position)
  /-- A question that the protocol knows, but that is not answered here. -/
  | unsupported
deriving DecidableEq, Repr

/-- What an editor tells. -/
inductive Notice where
  | initialized
  | opened (uri : Uri) (text : String)
  /-- A document has changed to a text, if one is given. -/
  | edited (uri : Uri) (text : Option String)
  | saved (uri : Uri) (text : Option String)
  | closed (uri : Uri)
  | filesChanged (changes : List (Uri × FileChange))
  /-- Something that nothing follows from. -/
  | ignored
deriving DecidableEq, Repr

/-- A message as it is written: a request has an answer, if only an error. -/
structure EditorMessage where
  method : String
  params : Option Json := none
  isRequest : Bool

namespace EditorMessage

open Json

def decodeUri (value : Json) : Option Uri := value.asString?.bind Uri.parse?

/-- A value that is only checked. -/
def decodeShape (shape : Shape) (value : Json) : Option Unit :=
  if shape value then some () else none

/-- A document that is only named. -/
def decodeDocument : Json → Option Uri := decodeRecord (required "textDocument" identifier)
where
  identifier : Json → Option Uri := decodeRecord (required "uri" decodeUri)

def decodeMembers {α : Type} (reader : Reader α) (value : Json) : Option α :=
  match value with
  | .obj _ => decodeRecord reader value
  | _ => none

/-- A position in a document; the parameters have to be of a shape. -/
def decodePlace (shape : Shape) (value : Json) : Option (Uri × Text.Position) :=
  if shape value then
    decodeMembers (do
      let uri ← required "textDocument" decodeDocument.identifier
      return (uri, ← required "position" Text.Position.decode)) value
  else none

def decodeFolder : Json → Option Uri := decodeRecord do
  let uri ← required "uri" decodeUri
  let _ ← required "name" decodeString
  return uri

/-- The program that the editor is. -/
def decodeClient : Json → Option Unit := decodeRecord do
  let _ ← required "name" decodeString
  let _ ← orNull "version" decodeString

/-- How much is to be traced. -/
def decodeTrace (value : Json) : Option String :=
  (decodeTag value).filter ["off", "message", "messages", "verbose"].contains

/-- The root of the project, or else its first folder. -/
def decodeInitialize : Json → Option Query := decodeRecord do
  let _ ← orNull "processId" (decodeNat UInt32.size)
  let _ ← orNull "rootPath" decodeString
  let root ← orNull "rootUri" decodeUri
  let _ ← orNull "initializationOptions" some
  let _ ← required "capabilities" (decodeShape clientCapabilities)
  let _ ← orNull "trace" decodeTrace
  let folders ← orNull "workspaceFolders" (decodeList decodeFolder)
  let _ ← orNull "clientInfo" decodeClient
  let _ ← orNull "locale" decodeString
  return .initialization (root.or (folders.bind List.head?))

def decodeCommand : Json → Option Query := decodeMembers do
  let name ← required "command" decodeString
  let _ ← withDefault "arguments" [] (decodeList some)
  let _ ← optional "workDoneToken" (decodeShape Shape.token)
  return .executeCommand name

def decodeOpened : Json → Option Notice := decodeRecord (required "textDocument" item)
where
  /-- A document with its text. -/
  item : Json → Option Notice := decodeRecord do
    let uri ← required "uri" decodeUri
    let _ ← required "languageId" decodeString
    let _ ← required "version" decodeInt32
    return .opened uri (← required "text" decodeString)

def decodeEdited : Json → Option Notice := decodeRecord do
  let uri ← required "textDocument" versioned
  let texts ← required "contentChanges" (decodeList change)
  return .edited uri texts.head?
where
  /-- A document with the number of its version. -/
  versioned : Json → Option Uri := decodeRecord do
    let uri ← required "uri" decodeUri
    let _ ← required "version" decodeInt32
    return uri
  /-- A text that a document changes to. -/
  change : Json → Option String := decodeRecord do
    let _ ← orNull "range" (decodeShape Shape.range)
    let _ ← orNull "rangeLength" (decodeNat UInt32.size)
    required "text" decodeString

def decodeSaved : Json → Option Notice := decodeRecord do
  let uri ← required "textDocument" decodeDocument.identifier
  return .saved uri (← orNull "text" decodeString)

def decodeFilesChanged : Json → Option Notice :=
  decodeRecord (.filesChanged <$> required "changes" (decodeList change))
where
  /-- A change of a file. A kind of change that has no name counts as a new file. -/
  change : Json → Option (Uri × FileChange) := decodeRecord do
    let uri ← required "uri" decodeUri
    match ← required "type" decodeInt32 with
    | 2 => return (uri, .changed)
    | 3 => return (uri, .deleted)
    | _ => return (uri, .created)

/-- Methods of notices that nothing follows from. -/
def ignoredNotices : List String :=
  ["textDocument/willSave", "workspace/didChangeConfiguration",
    "workspace/didChangeWorkspaceFolders", "workspace/didCreateFiles",
    "workspace/didRenameFiles", "workspace/didDeleteFiles"]

/-- How the parameters of a query are read, if the method is one of a query. -/
def queryReader? (method : String) : Option (Option Json → Option Query) :=
  match method with
  | "initialize" => some (Option.bind · decodeInitialize)
  | "shutdown" => some fun params => if params.isNone then some .shutdown else none
  | "workspace/executeCommand" => some (Option.bind · decodeCommand)
  | "textDocument/completion" =>
    some (Option.bind · fun value =>
      (decodePlace completionParams value).map fun (uri, position) => .completion uri position)
  | "textDocument/definition" =>
    some (Option.bind · fun value =>
      (decodePlace placeParams value).map fun (uri, position) => .definition uri position)
  | _ =>
    (unanswered? method).map fun shape =>
      (Option.bind · fun value => (decodeShape shape value).map fun _ => .unsupported)

/-- How the parameters of a notice are read, if the method is one of a notice. -/
def noticeReader? (method : String) : Option (Option Json → Option Notice) :=
  match method with
  | "initialized" =>
    some (Option.bind · fun value =>
      (decodeShape (Shape.record []) value).map fun _ => .initialized)
  | "textDocument/didOpen" => some (Option.bind · decodeOpened)
  | "textDocument/didChange" => some (Option.bind · decodeEdited)
  | "textDocument/didSave" => some (Option.bind · decodeSaved)
  | "textDocument/didClose" => some (Option.bind · fun value => (decodeDocument value).map .closed)
  | "workspace/didChangeWatchedFiles" => some (Option.bind · decodeFilesChanged)
  | _ => if ignoredNotices.contains method then some fun _ => some .ignored else none

end EditorMessage

/-! ### What a session sends -/

/-- Why a request has no result. -/
inductive RequestError where
  | notInitialized
  /-- The request is not one for now, or the message should not have been a request. -/
  | invalidRequest
  | unknownMethod
  | invalidParams
deriving DecidableEq, Repr

namespace RequestError

def code : RequestError → Int
  | notInitialized => -32002
  | invalidRequest => -32600
  | unknownMethod => -32601
  | invalidParams => -32602

def message : RequestError → String
  | notInitialized => "Server not initialized"
  | invalidRequest => "Invalid request"
  | unknownMethod => "Method not found"
  | invalidParams => "Invalid params"

end RequestError

/-- What follows from a message of the editor. -/
inductive Reply where
  | silent
  | result (value : Json)
  | failed (error : RequestError)
  /-- The session is over and takes no message. -/
  | exited

/-- How serious a message to the user is. -/
inductive LogLevel where
  | warning
  | info
deriving DecidableEq, Repr

def LogLevel.number : LogLevel → Nat
  | warning => 2
  | info => 3

/-- How far the reading of a project is. -/
inductive Progress where
  | started
  | parsing (files : Nat)
  | finished (summary : String)
deriving DecidableEq, Repr

/-- A message from the session to the editor. -/
inductive ServerMessage where
  | log (level : LogLevel) (text : String)
  /-- Asks for notices about the files of a project. -/
  | watchFiles
  /-- Announces that the reading of a project will be reported on. -/
  | announceProgress
  | progress (stage : Progress)
  | diagnostics (uri : Uri) (found : Json)

/-- The name under which the reading of a project is reported on. -/
def progressToken : Json := .str "phoenix-indexing"

def Progress.encode : Progress → Json
  | started =>
    .obj [("kind", .str "begin"), ("title", .str "Indexing Phoenix project"),
      ("cancellable", .bool false), ("message", .str "Collecting files..."),
      ("percentage", .nat 0)]
  | parsing files =>
    .obj [("kind", .str "report"), ("cancellable", .bool false),
      ("message", .str ("Parsing " ++ toString files ++ " files")), ("percentage", .nat 10)]
  | finished summary => .obj [("kind", .str "end"), ("message", .str summary)]

namespace ServerMessage

def method : ServerMessage → String
  | log _ _ => "window/logMessage"
  | watchFiles => "client/registerCapability"
  | announceProgress => "window/workDoneProgress/create"
  | progress _ => "$/progress"
  | diagnostics _ _ => "textDocument/publishDiagnostics"

def params : ServerMessage → Json
  | log level text => .obj [("type", .nat level.number), ("message", .str text)]
  | watchFiles =>
    let watcher := Json.obj [("globPattern", .str "**/*.\x7bex,exs,heex\x7d")]
    .obj [("registrations", .arr [.obj [("id", .str "phoenix-lsp-watch"),
      ("method", .str "workspace/didChangeWatchedFiles"),
      ("registerOptions", .obj [("watchers", .arr [watcher])])]])]
  | announceProgress => .obj [("token", progressToken)]
  | progress stage => .obj [("token", progressToken), ("value", stage.encode)]
  | diagnostics uri found => .obj [("uri", .str uri.text), ("diagnostics", found)]

/-- The editor is to answer the message. -/
def isRequest : ServerMessage → Bool
  | watchFiles | announceProgress => true
  | log _ _ | progress _ | diagnostics _ _ => false

end ServerMessage

/-! ### On the wire -/

namespace Wire

/-- The length that a line of a header gives. -/
def lengthOf? (line : String) : Option Nat :=
  let (name, value) := line.toList.span (· != ':')
  if Text.asciiLowercase name == "content-length".toList then
    (String.ofList (Text.trim (value.drop 1))).toNat?
  else none

def frame (value : Json) : String :=
  let body := value.compact
  "Content-Length: " ++ toString body.utf8ByteSize ++ "\r\n\r\n" ++ body

/-- A message of the editor with the identifier that its answer has to carry. -/
structure Envelope where
  id : Option Json
  message : EditorMessage

/-- Reads a message; answers to requests of the session are none. -/
def envelope? (value : Json) : Option Envelope := do
  let value := value.distinct
  let method ← (value.field? "method").bind Json.asString?
  let id := value.field? "id"
  return { id, message := { method, params := value.field? "params", isRequest := id.isSome } }

def object (members : List (String × Json)) : Json := .obj (("jsonrpc", .str "2.0") :: members)

def encodeError (code : Int) (message : String) : Json :=
  .obj [("code", .int code), ("message", .str message)]

def answer? (id : Json) : Reply → Option Json
  | .silent | .exited => none
  | .result value => some (object [("result", value), ("id", id)])
  | .failed error =>
    some (object [("error", encodeError error.code error.message), ("id", id)])

/-- The answer to a text that is not JSON. -/
def unreadable : Json := object [("error", encodeError (-32700) "Parse error"), ("id", .null)]

/-- A message of the session; a request takes the number `id`. -/
def encode (id : Nat) (message : ServerMessage) : Json :=
  object ([("method", .str message.method), ("params", message.params)] ++
    if message.isRequest then [("id", .nat id)] else [])

/-- Messages of the session one after another, with the number of the next request. -/
def encodeAll (id : Nat) : List ServerMessage → List Json × Nat
  | [] => ([], id)
  | message :: messages =>
    let (rest, next) := encodeAll (if message.isRequest then id + 1 else id) messages
    (encode id message :: rest, next)

end Wire

end PhoenixLens
