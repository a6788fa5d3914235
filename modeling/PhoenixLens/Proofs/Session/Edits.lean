import PhoenixLens.Proofs.Index.Interleaving
import PhoenixLens.Proofs.Session.Debouncer
import PhoenixLens.Session.Dispatch

/-!
# Edits that overlap

An edit stores the text of a document and calls for a refresh. What follows happens later and in any
order: the debouncer counts the call, the call wakes up and may go on, the refresh reads the
document and begins the updates of the registries, and each parse ends by itself. A step goes as far
as the program goes without waiting. Time is left out, so a call may wake up after any delay.
-/

namespace PhoenixLens

/-- What a parse of a text may find, by kind and path. -/
abbrev Parses := (kind : EntityKind) → Path → String → List kind.Entity → Prop

/-- The document and the text that a message edits. -/
def Notice.edit? : Notice → Option (Uri × String)
  | .opened uri text => some (uri, text)
  | .edited uri (some text) => some (uri, text)
  | .saved uri (some text) => some (uri, text)
  | _ => none

def Notice.edits (notices : List Notice) : List (Uri × String) := notices.filterMap edit?

/-- The last text that some messages give a document. -/
def Notice.lastText? (notices : List Notice) (uri : Uri) : Option String :=
  ((edits notices).filter (·.1 == uri)).getLast?.map (·.2)

/-- A session with everything that is under way. -/
structure EditRun (m : Type → Type) where
  session : Session m
  /-- Calls that have come and that the debouncer has not counted. -/
  called : List Uri := []
  /-- Refreshes that go on and have not read their documents. -/
  due : List PendingRefresh := []
  /-- Refreshes that have read their documents. -/
  running : List PendingRefresh := []
  /-- The updates that have begun, by kind and number. -/
  updates : EntityKind → List (Option PendingUpdate) := fun _ => []
  /-- The texts that they have begun with. -/
  texts : EntityKind → List String := fun _ => []

variable {m : Type → Type}

namespace EditRun

def registryRun (run : EditRun m) (kind : EntityKind) : RegistryRun kind.Entity :=
  ⟨run.session.index.registry kind, run.updates kind⟩

def settled (run : EditRun m) : Prop :=
  run.called = [] ∧ run.session.pending = [] ∧ run.due = [] ∧
    ∀ kind, (run.registryRun kind).settled

/-! ### Steps -/

def receive (run : EditRun m) (uri : Uri) (text : String) : EditRun m :=
  { run with
    session := run.session.store uri text
    called := if uri.toPath?.isSome then uri :: run.called else run.called }

/-- The debouncer counts a call, which now waits. -/
def count (run : EditRun m) (now : Nat) (uri : Uri) : EditRun m :=
  { run with session := run.session.schedule now uri, called := run.called.erase uri }

/-- A call wakes up and goes on, unless it has been superseded. -/
def wake (run : EditRun m) (refresh : PendingRefresh) : EditRun m :=
  { run with
    session := { run.session with pending := run.session.pending.erase refresh }
    due := if run.session.mayRun refresh then refresh :: run.due else run.due }

/-- Begins an update of every registry that takes the file. -/
def begin (run : EditRun m) (path : Path) (text : String) : EditRun m :=
  { run with
    session :=
      { run.session with
        index := run.session.index.mapRegistries fun kind registry =>
          if kind.takes path then (registry.startUpdate path text).1 else registry }
    updates := fun kind =>
      if kind.takes path then
        run.updates kind ++ [((run.session.index.registry kind).startUpdate path text).2]
      else run.updates kind
    texts := fun kind => if kind.takes path then run.texts kind ++ [text] else run.texts kind }

/-- A refresh that is due is under way. -/
def take (run : EditRun m) (refresh : PendingRefresh) : EditRun m :=
  { run with due := run.due.erase refresh, running := refresh :: run.running }

/-- A refresh reads its document, and begins updates if its file belongs to the project. -/
def read (run : EditRun m) (refresh : PendingRefresh) : EditRun m :=
  match run.session.text? refresh.uri, refresh.uri.toPath? with
  | some text, some path =>
    if run.session.tracks path then (run.take refresh).begin path text else run.take refresh
  | _, _ => run.take refresh

def finish (run : EditRun m) (kind : EntityKind) (number : Nat) (entities : List kind.Entity) :
    EditRun m :=
  let next := (run.registryRun kind).step (.ends number entities)
  { run with
    session := { run.session with index := run.session.index.withRegistry kind next.registry }
    updates := fun other => if other = kind then next.updates else run.updates other }

def complete (run : EditRun m) (refresh : PendingRefresh) : EditRun m :=
  { run with
    session :=
      { run.session with
        debouncer := run.session.debouncer.complete refresh.uri refresh.version }
    running := run.running.erase refresh }

end EditRun

/-! ### The steps of a session by itself -/

theorem Serving.follow_of_edit? [Monad m] {notice : Notice} {uri : Uri} {text : String}
    (h : notice.edit? = some (uri, text)) : (follow notice : Serving m Unit) = edit uri text := by
  cases notice with
  | opened => cases h; rfl
  | edited _ text => cases text <;> cases h; rfl
  | saved _ text => cases text <;> cases h; rfl
  | _ => cases h

/-- A session takes an edit and counts its call in a row. -/
theorem Serving.run_edit [Monad m] [LawfulMonad m] (uri : Uri) (text : String) (turn : Turn m) :
    (edit uri text).run turn = pure ((), { turn with
      session :=
        let received := ({ session := turn.session } : EditRun m).receive uri text
        if uri ∈ received.called then (received.count turn.now uri).session
        else received.session }) := by
  cases hPath : uri.toPath?.isSome with
  | false => simp [edit, modifySession, EditRun.receive, hPath]
  | true => simp [edit, modifySession, EditRun.receive, EditRun.count, hPath]

/-- One step of a session under edits, with the messages that it takes. -/
inductive EditStep (parses : Parses) :
    List Notice → EditRun m → EditRun m → Prop where
  | receives {run : EditRun m} {notice : Notice} {uri : Uri} {text : String}
      (hNotice : notice.edit? = some (uri, text)) :
      EditStep parses [notice] run (run.receive uri text)
  | counts {run : EditRun m} {uri : Uri} (now : Nat) (hCalled : uri ∈ run.called) :
      EditStep parses [] run (run.count now uri)
  | wakes {run : EditRun m} {refresh : PendingRefresh}
      (hWaits : refresh ∈ run.session.pending) : EditStep parses [] run (run.wake refresh)
  | reads {run : EditRun m} {refresh : PendingRefresh} (hDue : refresh ∈ run.due) :
      EditStep parses [] run (run.read refresh)
  | parses {run : EditRun m} {kind : EntityKind} {number : Nat} {update : PendingUpdate}
      {text : String} {found : List kind.Entity}
      (hUpdate : (run.registryRun kind).inFlight? number = some update)
      (hText : (run.texts kind)[number]? = some text)
      (hFound : parses kind update.path text found) :
      EditStep parses [] run (run.finish kind number (kind.ofFile update.path found))
  | completes {run : EditRun m} {refresh : PendingRefresh} (hRunning : refresh ∈ run.running) :
      EditStep parses [] run (run.complete refresh)

/-- Any number of steps, with the messages that they take, in order. -/
inductive EditSteps (parses : Parses) (first : EditRun m) :
    List Notice → EditRun m → Prop where
  | none : EditSteps parses first [] first
  | more {notices more : List Notice} {run next : EditRun m}
      (hSteps : EditSteps parses first notices run) (hStep : EditStep parses more run next) :
      EditSteps parses first (notices ++ more) next

end PhoenixLens
