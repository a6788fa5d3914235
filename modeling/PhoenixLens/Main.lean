import PhoenixLens.Session.Dispatch
import PhoenixLens.Session.Message

/-!
# The language server

Serves an editor over standard input and output. The files of the project are the arguments of the
program and those that the editor names; the settings and the cache are read from the root. No
process is started, so the scanners find everything.
-/

namespace PhoenixLens.Server

/-- Reads the lines of a header up to an empty one, and gives the length of the message. -/
partial def readHeader (input : IO.FS.Stream) (length : Option Nat) : IO (Option Nat) := do
  let line ← input.getLine
  if line.isEmpty then return none
  else if line == "\r\n" || line == "\n" then
    match length with
    | some _ => return length
    | none => readHeader input none
  else readHeader input ((Wire.lengthOf? line).or length)

/-- Reads a number of bytes, or as many as there are. -/
partial def readBytes (input : IO.FS.Stream) (count : Nat) (bytes : ByteArray) : IO ByteArray := do
  if count ≤ bytes.size then return bytes
  let more ← input.read (count - bytes.size).toUSize
  if more.isEmpty then return bytes
  readBytes input count (bytes ++ more)

def readMessage (input : IO.FS.Stream) : IO (Option String) := do
  match ← readHeader input none with
  | none => return none
  | some count => return some ((String.fromUTF8? (← readBytes input count ⟨#[]⟩)).getD "")

/-- A session with what surrounds it. -/
structure State where
  session : Session IO := { connect := fun _ => return {} }
  disk : Disk := {}
  /-- The number of the next request to the editor. -/
  nextId : Nat := 0

/-- Brings what is known of a file up to what is on disk. -/
def observe (disk : Disk) (path : Path) : IO Disk := do
  let now ← IO.monoMsNow
  try return disk.write path (← IO.FS.readFile path.text) (now / 1000)
  catch _ => return disk.removeFile path

def filesOf (message : EditorMessage) : List Path :=
  let project := fun (root : Uri) =>
    root.toPath?.toList.flatMap fun path => [path.join Config.fileName, Index.cacheFile path]
  match (EditorMessage.queryReader? message.method).bind (· message.params),
    (EditorMessage.noticeReader? message.method).bind (· message.params) with
  | some (.initialization root), _ => root.toList.flatMap project
  | _, some (.filesChanged changes) => changes.filterMap (·.1.toPath?)
  | _, some (.closed uri) => uri.toPath?.toList
  | _, _ => []

/-- Writes the cache to disk if it has changed. -/
def keepCache (before after : Disk) (root : Option Path) : IO Unit := do
  match root with
  | none => return ()
  | some root =>
    let file := Index.cacheFile root
    match after.read? file with
    | none => return ()
    | some text =>
      if before.read? file != some text then
        try
          IO.FS.createDirAll (Index.cacheDirectory root).text
          IO.FS.writeFile file.text text
        catch _ => return ()

/-- Sends what the session has to say. -/
def deliver (state : State) (output : IO.FS.Stream) (turn : Turn IO) (answer : Option Json) :
    IO State := do
  let (messages, nextId) := Wire.encodeAll state.nextId (Serving.delivered turn)
  for message in messages ++ answer.toList do
    output.putStr (Wire.frame message)
  output.flush
  keepCache state.disk turn.disk turn.session.root
  return { session := turn.session, disk := turn.disk, nextId }

def take (state : State) (output : IO.FS.Stream) (text : String) : IO State := do
  let now ← IO.monoMsNow
  match Json.parse? text with
  | none =>
    output.putStr (Wire.frame Wire.unreadable)
    output.flush
    return state
  | some value =>
    match Wire.envelope? value with
    | none => return state
    | some envelope =>
      let disk ← (filesOf envelope.message).foldlM observe state.disk
      let (reply, turn) ← state.session.receive disk now envelope.message
      deliver state output turn (envelope.id.bind fun id => Wire.answer? id reply)

/-- Lets refreshes go on that are due. -/
def advance (state : State) (output : IO.FS.Stream) : IO State := do
  let turn ← state.session.advance state.disk (← IO.monoMsNow)
  deliver state output turn none

/-- Takes messages until the session is over, and lets refreshes go on in between. -/
partial def serve (input output : IO.FS.Stream) (state : State)
    (next : Task (Except IO.Error (Option String))) : IO Unit := do
  if state.session.pending.isEmpty || (← IO.hasFinished next) then
    match ← IO.wait next with
    | .ok (some text) =>
      let state ← take state output text
      if state.session.phase != .exited then
        serve input output state (← IO.asTask (readMessage input))
    | .ok none => return ()
    | .error error => throw error
  else
    IO.sleep 10
    serve input output (← advance state output) next

/-- Starts a session about the files at some absolute paths. -/
def start (files : List Path) : IO Unit := do
  let input ← IO.getStdin
  let output ← IO.getStdout
  serve input output { disk := ← files.foldlM observe {} } (← IO.asTask (readMessage input))

end PhoenixLens.Server

/-- Serves an editor about the files that are given as absolute paths. -/
def main (files : List String) : IO Unit := PhoenixLens.Server.start (files.map PhoenixLens.Path.mk)
