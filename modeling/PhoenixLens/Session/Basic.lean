import PhoenixLens.Editor.Completion
import PhoenixLens.Editor.Definition
import PhoenixLens.Editor.Diagnostics
import PhoenixLens.Index.Cache
import PhoenixLens.Session.Debouncer
import PhoenixLens.Session.Message

/-!
# A session

A session holds what is known of a project and the documents that are open. An edit does not show at
once: it calls for a refresh of the document, which waits for further edits and then takes the
newest text. The disk and the time are given with every message; what the session writes to the
disk, and the messages that it sends, come back.
-/

namespace PhoenixLens

/-- Which messages a session takes. -/
inductive SessionPhase where
  | uninitialized
  | initialized
  | shutDown
  | exited
deriving DecidableEq, Repr

/-- A refresh of a document that has been called for. -/
structure PendingRefresh where
  uri : Uri
  version : Nat
  /-- The time in milliseconds at which it goes on. -/
  due : Nat
deriving DecidableEq, Repr

structure Session (m : Type → Type) where
  /-- How to get a gateway with the exact parser of some settings. -/
  connect : ParserConfig → m (Gateway m)
  phase : SessionPhase := .uninitialized
  root : Option Path := none
  config : Config := {}
  filter : SourceFilter := {}
  index : Index := {}
  extractor : Markup.UsageExtractor := {}
  gateway : Gateway m := {}
  /-- The documents that are open, with their newest texts. -/
  documents : List (Uri × String) := []
  debouncer : Debouncer Uri := { delay := ({} : Config).debounceMs }
  /-- The refreshes that wait, in the order in which they were called for. -/
  pending : List PendingRefresh := []

namespace Session

variable {m : Type → Type}

/-- The newest text of a document that is open. -/
def text? (session : Session m) (uri : Uri) : Option String := session.documents.lookup uri

def isOpen (session : Session m) (uri : Uri) : Bool := (session.text? uri).isSome

def drop (session : Session m) (uri : Uri) : Session m :=
  { session with documents := session.documents.filter fun d => d.1 != uri }

/-- Opens a document, or gives it a new text. -/
def store (session : Session m) (uri : Uri) (text : String) : Session m :=
  { session with documents := (session.drop uri).documents ++ [(uri, text)] }

/-- The file belongs to the project. -/
def tracks (session : Session m) (path : Path) : Bool :=
  session.filter.tracks path session.root

/-- Calls for a refresh of a document. -/
def schedule (session : Session m) (now : Nat) (uri : Uri) : Session m :=
  let debouncer := session.debouncer.bump uri
  let refresh : PendingRefresh :=
    { uri, version := debouncer.lastVersion, due := now + debouncer.delay }
  { session with debouncer, pending := session.pending ++ [refresh] }

/-- Without a delay every edit shows; with one, a later edit or the end of the document takes the
place of a refresh. -/
def mayRun (session : Session m) (refresh : PendingRefresh) : Bool :=
  session.debouncer.delay == 0 || session.debouncer.isCurrent refresh.uri refresh.version

end Session

/-- A session while it deals with a message. -/
structure Turn (m : Type → Type) where
  session : Session m
  disk : Disk
  /-- The time in milliseconds. -/
  now : Nat
  sent : List ServerMessage := []

/-- Computations of a session. -/
abbrev Serving (m : Type → Type) := StateT (Turn m) m

namespace Serving

variable {m : Type → Type} [Monad m]

def session : Serving m (Session m) := return (← get).session

def modifySession (f : Session m → Session m) : Serving m Unit :=
  modify fun turn => { turn with session := f turn.session }

def send (message : ServerMessage) : Serving m Unit :=
  modify fun turn => { turn with sent := turn.sent ++ [message] }

/-- Changes the index with the help of the gateway. -/
def indexing {α : Type} (action : Disk → Index → Parsing m (Index × α)) : Serving m α := do
  let turn ← get
  let ((index, a), gateway) ← (action turn.disk turn.session.index).run turn.session.gateway
  set { turn with session := { turn.session with index, gateway } }
  return a

/-! ### Documents -/

/-- Sends what is wrong with a document. -/
def publish (uri : Uri) (path : Path) (text : String) : Serving m Unit := do
  let turn ← get
  let session := turn.session
  let config := session.config.diagnostics
  let text := text.toList
  let (found, extractor) :=
    config.diagnose turn.disk session.index session.extractor uri.text path text
  modifySession fun s => { s with extractor }
  send (.diagnostics uri (config.encodeAll text found))

/-- Sends what is wrong with the other documents. -/
def publishOthers (uri : Uri) : Serving m Unit := do
  for (other, text) in (← session).documents do
    if other != uri then
      match other.toPath? with
      | some path => publish other path text
      | none => pure ()

/-- Keeps the tree of a document's template at hand. -/
def keepTree (uri : Uri) (path : Path) (text : String) : Serving m Unit :=
  modifySession fun s =>
    let cs := text.toList
    { s with extractor :=
        if Markup.hasTemplate path cs then
          s.extractor.rebuild uri.text (Markup.templateText path cs)
        else s.extractor.invalidate uri.text }

/-- Brings what is known up to the newest text of a document and sends what is wrong with it. If
that has changed the index, other documents may be affected. -/
def refresh (uri : Uri) : Serving m Unit := do
  let session ← session
  match session.text? uri, uri.toPath? with
  | some text, some path =>
    let changed ←
      if session.tracks path then indexing fun disk index => Index.update disk index path text
      else pure false
    keepTree uri path text
    publish uri path text
    if changed then publishOthers uri
  | _, _ => return ()

/-- A refresh goes on, unless it has been superseded. -/
def resume (waiting : PendingRefresh) : Serving m Unit := do
  if (← session).mayRun waiting then
    refresh waiting.uri
    modifySession fun s =>
      { s with debouncer := s.debouncer.complete waiting.uri waiting.version }

/-- The refreshes that are due up to a time go on. -/
def resumeUntil (time : Nat) : Serving m Unit := do
  let (due, later) := (← session).pending.partition fun r => r.due ≤ time
  modifySession fun s => { s with pending := later }
  for waiting in due do resume waiting

/-- Lets go on what is due now, while the session waits for something. -/
def giveWay : Serving m Unit := do resumeUntil (← get).now

/-- A document has been opened or edited. Without a file there is nothing to refresh. -/
def edit (uri : Uri) (text : String) : Serving m Unit := do
  let now := (← get).now
  modifySession fun s =>
    let s := s.store uri text
    if uri.toPath?.isSome then s.schedule now uri else s

/-! ### Files -/

/-- Reads a file anew if it can be read. -/
def reread (path : Path) : Serving m Unit := do
  giveWay
  match (← get).disk.read? path with
  | some text =>
    let _ ← indexing fun disk index => Index.update disk index path text
  | none => return ()

/-- A file has changed on disk. The text of an open document counts for more than its file. -/
def fileChanged (uri : Uri) (change : FileChange) : Serving m Unit := do
  let session ← session
  match uri.toPath?.filter session.tracks with
  | none => return ()
  | some path =>
    if change == .deleted then
      modifySession fun s =>
        { s with index := s.index.remove path, extractor := s.extractor.invalidate uri.text }
    else if !session.isOpen uri then reread path
    if path.isTemplate && change != .changed then
      indexing fun disk index => do
        return (← Index.refreshTemplatesNear disk index path, ())

/-- A document has been closed: what was not saved is forgotten, and its file counts again. -/
def close (uri : Uri) : Serving m Unit := do
  modifySession fun s =>
    { s.drop uri with
      debouncer := s.debouncer.cancel uri
      extractor := s.extractor.invalidate uri.text }
  fileChanged uri .changed

/-! ### Projects -/

/-- Writes the cache, if the settings ask for one. -/
def saveCache : Serving m Unit := do
  let turn ← get
  match turn.session.root.filter fun _ => turn.session.config.cache with
  | none => return ()
  | some root =>
    match turn.session.index.saveCache turn.disk (turn.now / 1000) root with
    | .ok disk => modify fun turn => { turn with disk }
    | .error error =>
      send (.log .warning ("Failed to save cache: Cache error: IO error: " ++ error.message))

/-- What has been found in a project. -/
def summaryOf (files : Nat) (index : Index) : String :=
  "Indexed " ++ toString files ++ " files: " ++
    toString index.components.entityCount ++ " components, " ++
    toString index.routes.entityCount ++ " routes, " ++
    toString index.schemas.entityCount ++ " schemas"

/-- Reads the files of the project. -/
def scanProject : Serving m Unit := do
  match (← session).root with
  | none => return ()
  | some root =>
    send (.log .info ("Scanning workspace: " ++ root.text))
    send .announceProgress
    giveWay
    send (.progress .started)
    let turn ← get
    let files := collectFiles turn.disk turn.session.filter root
    send (.progress (.parsing files.length))
    let _ ← indexing fun disk index => Index.scan disk index root files
    let summary := summaryOf files.length (← session).index
    send (.progress (.finished summary))
    send (.log .info summary)

/-- Takes over the settings of a project. Patterns that cannot be read leave the filter as it is. -/
def configure (root : Path) : Serving m Unit := do
  let turn ← get
  let config := Config.load turn.disk root
  let gateway ← (turn.session.connect config.parser : m (Gateway m))
  modifySession fun s =>
    { s with
      config, gateway
      filter := config.sourceFilter.toOption.getD s.filter
      debouncer := s.debouncer.withDelay config.debounceMs }

/-- Takes over what the cache of a project holds; one that cannot be used counts as none. -/
def restoreCache (root : Path) : Serving m Unit :=
  modify fun turn =>
    match Index.loadCache turn.disk root turn.session.index with
    | .ok (index, _) => { turn with session := { turn.session with index } }
    | .error _ => turn

/-- What this program can do, as editors read it. -/
def capabilities : Json :=
  .obj [("textDocumentSync", .nat 1), ("definitionProvider", .bool true),
    ("completionProvider",
      .obj [("triggerCharacters", .arr [.str ".", .str ":", .str "/", .str "\""])]),
    ("executeCommandProvider", .obj [("commands", .arr [.str "phoenix-lsp.refreshIndex"])])]

def setUp (root : Option Uri) : Serving m Json := do
  let root := root.bind Uri.toPath?
  match root with
  | none => pure ()
  | some root =>
    configure root
    if (← session).config.cache then restoreCache root
  modifySession fun s => { s with root }
  return .obj [("capabilities", capabilities),
    ("serverInfo", .obj [("name", .str "phoenix-lsp"), ("version", .str programVersion)])]

/-- The editor is ready: the project is read. -/
def begin : Serving m Unit := do
  send (.log .info "Phoenix Language Server initialized")
  send .watchFiles
  giveWay
  scanProject
  saveCache

/-- Forgets everything and reads the project anew. -/
def startOver : Serving m Unit := do
  modifySession fun s =>
    { s with
      index := s.index.clear, extractor := s.extractor.clear, gateway := s.gateway.clear }
  scanProject
  saveCache

/-! ### Answers -/

def executeCommand (name : String) : Serving m Json := do
  if name == "phoenix-lsp.refreshIndex" then
    startOver
    return .obj [("success", .bool true)]
  else
    send (.log .warning ("Unknown command: " ++ name))
    return .null

/-- Answers a question about a place in a document that is open and has a file. -/
def atPlace {α : Type} (uri : Uri) (position : Text.Position)
    (f : Turn m → CompletionPlace → Option α × Markup.UsageExtractor) : Serving m (Option α) := do
  let turn ← get
  match turn.session.text? uri, uri.toPath? with
  | some text, some path =>
    let (answer, extractor) := f turn (.ofPosition path text.toList position)
    modifySession fun s => { s with extractor }
    return answer
  | _, _ => return none

/-- What may be written at a place. -/
def complete (uri : Uri) (position : Text.Position) : Serving m (Option (List Offer)) :=
  atPlace uri position fun turn place =>
    place.offers? turn.disk turn.session.index turn.session.extractor uri.text

/-- Where what stands at a place is defined. -/
def findDefinition (uri : Uri) (position : Text.Position) : Serving m (Option Location) :=
  atPlace uri position fun turn place =>
    definition? turn.disk turn.session.index turn.session.extractor uri.text place.file place.text
      place.offset

end Serving

end PhoenixLens
