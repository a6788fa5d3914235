import PhoenixLens.Session.Basic

/-!
# The course of a session

Which messages a session takes depends on how far it is: it begins with one successful request to
initialize, and after a request to shut down nothing but the end of the session is left. The end may
come at any time.
-/

namespace PhoenixLens

/-- Why a message is refused in a phase. -/
def SessionPhase.refusal : SessionPhase → RequestError
  | uninitialized => .notInitialized
  | initialized | shutDown | exited => .invalidRequest

/-- The reply to a request; notices have none. -/
def EditorMessage.reply (message : EditorMessage) (reply : Reply) : Reply :=
  if message.isRequest then reply else .silent

namespace Serving

variable {m : Type → Type} [Monad m]

def answer : Query → Serving m Reply
  | .initialization root => return .result (← setUp root)
  | .shutdown => do
    saveCache
    return .result .null
  | .executeCommand name => return .result (← executeCommand name)
  | .completion uri position =>
    return .result (Json.option (Json.list Offer.encode) (← complete uri position))
  | .definition uri position =>
    return .result (Json.option Location.encode (← findDefinition uri position))
  | .unsupported => return .failed .unknownMethod

def follow : Notice → Serving m Unit
  | .initialized => begin
  | .opened uri text => edit uri text
  | .edited uri text | .saved uri text =>
    match text with
    | some text => edit uri text
    | none => return ()
  | .closed uri => close uri
  | .filesChanged changes => changes.forM fun (uri, change) => fileChanged uri change
  | .ignored => return ()

def enter (phase : SessionPhase) : Serving m Unit := modifySession fun s => { s with phase }

/-- Answers a query with the parameters of a message, if they can be read and an answer is
expected. -/
def answerMessage (message : EditorMessage) (read : Option Json → Option Query) :
    Serving m Reply := do
  if !message.isRequest then return .silent
  match read message.params with
  | some query => answer query
  | none => return .failed .invalidParams

/-- Takes a message with the method of a query. The session is initialized only if that has
succeeded; it is shut down even if the parameters were wrong. -/
def takeQuery (message : EditorMessage) (read : Option Json → Option Query) :
    Serving m Reply := do
  let phase := (← session).phase
  if message.method == "initialize" then
    if phase != .uninitialized then return message.reply (.failed .invalidRequest)
    let reply ← answerMessage message read
    match reply with
    | .result _ => enter .initialized
    | _ => pure ()
    return reply
  else if phase != .initialized then return message.reply (.failed phase.refusal)
  else
    if message.method == "shutdown" then enter .shutDown
    answerMessage message read

/-- Takes a message with the method of a notice. Parameters that cannot be read leave it without
effect. -/
def takeNotice (message : EditorMessage) (read : Option Json → Option Notice) :
    Serving m Reply := do
  let phase := (← session).phase
  if phase != .initialized then return message.reply (.failed phase.refusal)
  else if message.isRequest then return .failed .invalidRequest
  else
    match read message.params with
    | some notice => follow notice
    | none => pure ()
    return .silent

/-- Takes a message. Methods that begin with `$/` may go unanswered. -/
def take (message : EditorMessage) : Serving m Reply := do
  if (← session).phase == .exited then return .exited
  else if message.method == "exit" then
    enter .exited
    return .silent
  else if message.method == "$/cancelRequest" then
    return message.reply (.failed .invalidRequest)
  else
    match EditorMessage.queryReader? message.method, EditorMessage.noticeReader? message.method with
    | some read, _ => takeQuery message read
    | none, some read => takeNotice message read
    | none, none =>
      if Text.startsWith "$/" message.method.toList then return .silent
      else return message.reply (.failed .unknownMethod)

/-- The messages that reach the editor: none after the end of the session. -/
def delivered (turn : Turn m) : List ServerMessage :=
  if turn.session.phase == .exited then [] else turn.sent

end Serving

namespace Session

variable {m : Type → Type} [Monad m]

/-- Takes a message at a time; the refreshes that it calls for wait. -/
def receive (session : Session m) (disk : Disk) (now : Nat) (message : EditorMessage) :
    m (Reply × Turn m) :=
  (Serving.take message).run { session, disk, now }

/-- Lets the refreshes go on that are due up to a time. -/
def advance (session : Session m) (disk : Disk) (time : Nat) : m (Turn m) := do
  let (_, turn) ← (Serving.resumeUntil time).run { session, disk, now := time }
  return turn

/-- When the last of the refreshes is due. -/
def lastDue (session : Session m) : Nat :=
  session.pending.foldl (fun time r => max time r.due) 0

end Session

end PhoenixLens
