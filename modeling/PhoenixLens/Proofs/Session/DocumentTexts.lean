import PhoenixLens.Proofs.Session.DocumentActs
import PhoenixLens.Proofs.Session.Files
import PhoenixLens.Proofs.Session.KeptDocuments

/-!
# The texts of documents

A session takes messages, and refreshes go on while it waits. From its initialization until it is
shut down its documents have the texts that the messages say, whatever else the messages are and
whatever the exact parser answers. Where an editor keeps to the protocol these are the texts that
the protocol means, but for documents whose last notice brings several changes.
-/

namespace PhoenixLens

variable {σ : Type}

/-! ### Computations that change documents -/

namespace Serving

theorem Keeps.text?_eq {α : Type} {serving : Serving (StateM σ) α} (h : serving.Keeps)
    (turn : Turn (StateM σ)) (state : σ) (uri : Uri) :
    (serving.outcome turn state).1.2.session.text? uri = turn.session.text? uri := by
  rw [Session.text?, Session.text?, (h turn state).1]

theorem text?_edit (uri : Uri) (text : String) (turn : Turn (StateM σ)) (state : σ)
    (other : Uri) :
    ((edit uri text).outcome turn state).1.2.session.text? other =
        (if uri = other then some text else turn.session.text? other) ∧
      ((edit uri text).outcome turn state).1.2.session.phase = turn.session.phase := by
  have hSession : ((edit uri text).outcome turn state).1.2.session =
      if uri.toPath?.isSome then (turn.session.store uri text).schedule turn.now uri
      else turn.session.store uri text := rfl
  rw [hSession, ← Session.text?_store]
  split
  · exact ⟨rfl, rfl⟩
  · exact ⟨rfl, rfl⟩

theorem text?_close (uri : Uri) (turn : Turn (StateM σ)) (state : σ) (other : Uri) :
    ((close uri).outcome turn state).1.2.session.text? other =
        (if uri = other then none else turn.session.text? other) ∧
      ((close uri).outcome turn state).1.2.session.phase = turn.session.phase := by
  have hFile := keeps_fileChanged (σ := σ) uri .changed
  rw [close, outcome_bind, ← Session.text?_drop]
  exact ⟨hFile.text?_eq _ _ other, (hFile _ _).2⟩

/-- What follows from a notice changes the texts by what the notice says of a document. -/
theorem text?_follow (notice : Notice) (turn : Turn (StateM σ)) (state : σ) (uri : Uri) :
    ((follow notice).outcome turn state).1.2.session.text? uri =
        (DocumentAct.ofNotice notice).elim (turn.session.text? uri)
          (DocumentAct.stored uri (turn.session.text? uri)) ∧
      ((follow notice).outcome turn state).1.2.session.phase = turn.session.phase := by
  have hKept {serving : Serving (StateM σ) Unit} (h : serving.Keeps) :=
    And.intro (h.text?_eq turn state uri) (h turn state).2
  have hNothing (other : Uri) :
      turn.session.text? uri = if other = uri then turn.session.text? uri
        else turn.session.text? uri := by
    rw [ite_self]
  cases notice with
  | initialized => exact hKept keeps_begin
  | opened other text => exact text?_edit other text turn state uri
  | edited other text =>
    cases text with
    | none => exact ⟨hNothing other, rfl⟩
    | some text => exact text?_edit other text turn state uri
  | saved other text =>
    cases text with
    | none => exact ⟨hNothing other, rfl⟩
    | some text => exact text?_edit other text turn state uri
  | closed other => exact text?_close other turn state uri
  | filesChanged changes => exact hKept (keeps_forM fun c => keeps_fileChanged c.1 c.2)
  | ignored => exact hKept (keeps_pure ())

end Serving

/-! ### Messages -/

namespace Serving

variable {message : EditorMessage} {turn : Turn (StateM σ)}

theorem keeps_answerMessage (message : EditorMessage) (read : Option Json → Option Query) :
    Keeps (answerMessage message read : Serving (StateM σ) Reply) := by
  rw [answerMessage]
  split
  · exact keeps_pure _
  · split
    · exact keeps_answer _
    · exact keeps_pure _

theorem outcome_session_bind {α : Type} (next : Session (StateM σ) → Serving (StateM σ) α)
    (turn : Turn (StateM σ)) (state : σ) :
    (session >>= next).outcome turn state = (next turn.session).outcome turn state := rfl

/-- A session that has been initialized keeps its documents behind a query, and its phase unless
the query shuts it down. -/
theorem text?_takeQuery (hPhase : turn.session.phase = .initialized)
    (read : Option Json → Option Query) (state : σ) (uri : Uri) :
    ((takeQuery message read).outcome turn state).1.2.session.text? uri =
        turn.session.text? uri ∧
      ((takeQuery message read).outcome turn state).1.2.session.phase =
        if message.method = "shutdown" then .shutDown else .initialized := by
  have hAnswer := keeps_answerMessage (σ := σ) message read
  rw [takeQuery, outcome_session_bind, hPhase]
  by_cases hInitialize : message.method = "initialize"
  · rw [if_pos (beq_iff_eq.mpr hInitialize), hInitialize]
    exact ⟨rfl, hPhase⟩
  · rw [if_neg (by simpa using hInitialize)]
    by_cases hShutdown : message.method = "shutdown"
    · rw [hShutdown]
      let shut := { turn with session := { turn.session with phase := .shutDown } }
      exact ⟨hAnswer.text?_eq shut state uri, (hAnswer shut state).2⟩
    · have hGoesOn : (message.method == "shutdown") = false := by simpa using hShutdown
      rw [hGoesOn, if_neg hShutdown]
      exact ⟨hAnswer.text?_eq turn state uri, (hAnswer turn state).2.trans hPhase⟩

theorem text?_takeNotice (hPhase : turn.session.phase = .initialized)
    {read : Option Json → Option Notice}
    (hRead : EditorMessage.noticeReader? message.method = some read) (state : σ) (uri : Uri) :
    ((takeNotice message read).outcome turn state).1.2.session.text? uri =
        message.act?.elim (turn.session.text? uri)
          (DocumentAct.stored uri (turn.session.text? uri)) ∧
      ((takeNotice message read).outcome turn state).1.2.session.phase = .initialized := by
  rw [takeNotice, outcome_session_bind, hPhase]
  cases hRequest : message.isRequest with
  | true =>
    rw [EditorMessage.act?, hRequest]
    exact ⟨rfl, hPhase⟩
  | false =>
    rw [EditorMessage.stored_act? hRequest hRead]
    cases hNotice : read message.params with
    | none => exact ⟨rfl, hPhase⟩
    | some notice =>
      obtain ⟨hText, hKept⟩ := text?_follow notice turn state uri
      exact ⟨hText, hKept.trans hPhase⟩

/-- A message changes the texts by what it says of a document. -/
theorem text?_take (hPhase : turn.session.phase = .initialized) (message : EditorMessage)
    (state : σ) (uri : Uri) :
    ((take message).outcome turn state).1.2.session.text? uri =
        message.act?.elim (turn.session.text? uri)
          (DocumentAct.stored uri (turn.session.text? uri)) ∧
      ((take message).outcome turn state).1.2.session.phase =
        if message.method = "exit" then .exited
        else if message.method = "shutdown" then .shutDown else .initialized := by
  rw [take, outcome_session_bind, hPhase, if_neg (by decide)]
  by_cases hExit : message.method = "exit"
  · have hNothing : message.act? = none :=
      EditorMessage.act?_of_noticeReader? (by rw [hExit]; rfl)
    rw [hNothing, hExit]
    exact ⟨rfl, rfl⟩
  rw [if_neg (by simpa using hExit), if_neg hExit]
  by_cases hCancel : message.method = "$/cancelRequest"
  · have hNothing : message.act? = none :=
      EditorMessage.act?_of_noticeReader? (by rw [hCancel]; rfl)
    rw [hNothing, hCancel]
    exact ⟨rfl, hPhase⟩
  have hShutdown (h : EditorMessage.queryReader? message.method = none) :
      message.method ≠ "shutdown" := by
    intro hMethod
    rw [hMethod] at h
    cases h
  rw [if_neg (by simpa using hCancel)]
  split
  · next read hRead =>
    rw [EditorMessage.act?_of_queryReader? hRead]
    exact text?_takeQuery hPhase read state uri
  · next read hQuery hRead =>
    rw [if_neg (hShutdown hQuery)]
    exact text?_takeNotice hPhase hRead state uri
  · next hQuery hRead =>
    rw [EditorMessage.act?_of_noticeReader? hRead, if_neg (hShutdown hQuery)]
    split
    · exact ⟨rfl, hPhase⟩
    · exact ⟨rfl, hPhase⟩

/-- A session that has been shut down keeps its documents and is not initialized again. -/
theorem text?_take_of_ended
    (hPhase : turn.session.phase = .shutDown ∨ turn.session.phase = .exited)
    (message : EditorMessage) (state : σ) (uri : Uri) :
    ((take message).outcome turn state).1.2.session.text? uri = turn.session.text? uri ∧
      (((take message).outcome turn state).1.2.session.phase = .shutDown ∨
        ((take message).outcome turn state).1.2.session.phase = .exited) := by
  obtain hShutDown | hExited := hPhase
  · rw [take, outcome_session_bind, hShutDown, if_neg (by decide)]
    split
    · exact ⟨rfl, .inr rfl⟩
    · split
      · exact ⟨rfl, .inl hShutDown⟩
      · split
        · rw [takeQuery, outcome_session_bind, hShutDown]
          split
          · exact ⟨rfl, .inl hShutDown⟩
          · exact ⟨rfl, .inl hShutDown⟩
        · rw [takeNotice, outcome_session_bind, hShutDown]
          exact ⟨rfl, .inl hShutDown⟩
        · split
          · exact ⟨rfl, .inl hShutDown⟩
          · exact ⟨rfl, .inl hShutDown⟩
  · rw [take, outcome_session_bind, hExited]
    exact ⟨rfl, .inr hExited⟩

end Serving

/-! ### Sessions -/

/-- What a session meets. The disk may be another one each time. -/
inductive SessionEvent where
  | takes (disk : Disk) (now : Nat) (message : EditorMessage)
  /-- The refreshes that are due up to a time go on. -/
  | waits (disk : Disk) (time : Nat)

namespace SessionEvent

def act? : SessionEvent → Option DocumentAct
  | takes _ _ message => message.act?
  | waits _ _ => none

def ends : SessionEvent → Bool
  | takes _ _ message => message.ends
  | waits _ _ => false

theorem act?_of_ends (event : SessionEvent) (h : event.ends = true) : event.act? = none := by
  cases event with
  | takes disk now message => exact EditorMessage.act?_of_ends h
  | waits => cases h

/-- What is said of documents before the session is shut down. -/
def acts (events : List SessionEvent) : List DocumentAct :=
  (events.takeWhile (!·.ends)).filterMap act?

def saying (names : Uri → String) (acts : List DocumentAct) : List SessionEvent :=
  acts.map fun act => .takes {} 0 (.ofAct (names act.uri) 1 act)

/-- Whatever an editor has to say of documents that have names, there are messages for it. -/
theorem acts_saying {names : Uri → String} {said : List DocumentAct}
    (h : ∀ act ∈ said, Uri.parse? (names act.uri) = some act.uri) :
    acts (saying names said) = said := by
  induction said with
  | nil => rfl
  | cons act said ih =>
    obtain ⟨hAct, hSaid⟩ := List.forall_mem_cons.mp h
    have hGoesOn : (EditorMessage.ofAct (names act.uri) 1 act).ends = false := by
      cases act <;> rfl
    have hVersion : -0x80000000 ≤ (1 : Int) ∧ (1 : Int) < 0x80000000 := by decide
    have hSays := EditorMessage.act?_ofAct hAct hVersion
    rw [saying, List.map_cons, acts, List.takeWhile_cons, ends, hGoesOn, Bool.not_false,
      if_pos rfl, List.filterMap_cons, act?, hSays]
    exact congrArg (act :: ·) (ih hSaid)

end SessionEvent

namespace Session

/-- A session with the state of its exact parser, behind an event. -/
def meet (before : Session (StateM σ) × σ) : SessionEvent → Session (StateM σ) × σ
  | .takes disk now message =>
    let after := (before.1.receive disk now message).run before.2
    (after.1.2.session, after.2)
  | .waits disk time =>
    let after := (before.1.advance disk time).run before.2
    (after.1.session, after.2)

def meets (before : Session (StateM σ) × σ) (events : List SessionEvent) :
    Session (StateM σ) × σ :=
  events.foldl meet before

variable {before : Session (StateM σ) × σ}

theorem text?_meet (hPhase : before.1.phase = .initialized) (event : SessionEvent) (uri : Uri) :
    (meet before event).1.text? uri =
        event.act?.elim (before.1.text? uri) (DocumentAct.stored uri (before.1.text? uri)) ∧
      if event.ends then
        (meet before event).1.phase = .shutDown ∨ (meet before event).1.phase = .exited
      else (meet before event).1.phase = .initialized := by
  cases event with
  | takes disk now message =>
    let turn : Turn (StateM σ) := { session := before.1, disk, now }
    have hTurn : turn.session.phase = .initialized := hPhase
    obtain ⟨hText, hNext⟩ := Serving.text?_take hTurn message before.2 uri
    refine ⟨hText, ?_⟩
    have hNow : (meet before (.takes disk now message)).1.phase = _ := hNext
    rw [hNow, SessionEvent.ends, EditorMessage.ends]
    by_cases hExit : message.method = "exit"
    · simp [hExit]
    · by_cases hShutdown : message.method = "shutdown"
      · simp [hShutdown]
      · simp [hExit, hShutdown]
  | waits disk time =>
    let turn : Turn (StateM σ) := { session := before.1, disk, now := time }
    have hKeeps := Serving.keeps_resumeUntil (σ := σ) time
    exact ⟨hKeeps.text?_eq turn before.2 uri, (hKeeps turn before.2).2.trans hPhase⟩

theorem text?_meet_of_ended (hPhase : before.1.phase = .shutDown ∨ before.1.phase = .exited)
    (event : SessionEvent) (uri : Uri) :
    (meet before event).1.text? uri = before.1.text? uri ∧
      ((meet before event).1.phase = .shutDown ∨ (meet before event).1.phase = .exited) := by
  cases event with
  | takes disk now message =>
    let turn : Turn (StateM σ) := { session := before.1, disk, now }
    have hTurn : turn.session.phase = .shutDown ∨ turn.session.phase = .exited := hPhase
    exact Serving.text?_take_of_ended hTurn message before.2 uri
  | waits disk time =>
    let turn : Turn (StateM σ) := { session := before.1, disk, now := time }
    have hKeeps := Serving.keeps_resumeUntil (σ := σ) time
    have hSame := (hKeeps turn before.2).2
    refine ⟨hKeeps.text?_eq turn before.2 uri, ?_⟩
    exact hPhase.imp hSame.trans hSame.trans

theorem text?_meets_of_ended (hPhase : before.1.phase = .shutDown ∨ before.1.phase = .exited)
    (events : List SessionEvent) (uri : Uri) :
    (meets before events).1.text? uri = before.1.text? uri := by
  induction events generalizing before with
  | nil => rfl
  | cons event events ih =>
    obtain ⟨hText, hEnded⟩ := text?_meet_of_ended hPhase event uri
    exact (ih hEnded).trans hText

/-- The text of a document is what all that has been said of it leads to. -/
theorem text?_meets (hPhase : before.1.phase = .initialized) (events : List SessionEvent)
    (uri : Uri) :
    (meets before events).1.text? uri =
      (SessionEvent.acts events).foldl (DocumentAct.stored uri) (before.1.text? uri) := by
  induction events generalizing before with
  | nil => rfl
  | cons event events ih =>
    obtain ⟨hText, hNext⟩ := text?_meet hPhase event uri
    rw [SessionEvent.acts, List.takeWhile_cons]
    cases hEnds : event.ends with
    | true =>
      rw [hEnds, if_pos rfl] at hNext
      rw [event.act?_of_ends hEnds] at hText
      exact (text?_meets_of_ended hNext events uri).trans hText
    | false =>
      rw [hEnds, if_neg Bool.false_ne_true] at hNext
      refine (ih hNext).trans ?_
      rw [hText]
      simp only [Bool.not_false, if_true, List.filterMap_cons]
      cases event.act? <;> rfl

/-- From its initialization on a session stores every text that it is told of a document, but of
several changes in one message the first, and forgets a document that is closed. So if the editor
keeps to the protocol, each document has the text that the protocol means, but for those of which
the last message brings several changes, with another text first than last. -/
theorem texts_meant_iff (hPhase : before.1.phase = .initialized) (events : List SessionEvent) :
    let acts := SessionEvent.acts events
    let session := (meets before events).1
    (∀ uri, session.text? uri = acts.foldl (DocumentAct.stored uri) (before.1.text? uri)) ∧
      (DocumentAct.KeepTo before.1.text? acts → ∀ uri,
        (session.text? uri = DocumentAct.textMeant before.1.text? acts uri ↔
          ∀ changed, DocumentAct.last? uri acts = some (.changes uri changed) →
            changed.head? = changed.getLast?)) := by
  intro acts session
  refine ⟨text?_meets hPhase events, fun hKeeps uri => ?_⟩
  rw [text?_meets hPhase events uri]
  exact DocumentAct.stored_eq_meant_iff hKeeps uri

/-- A session that has been initialized and has no documents. -/
def initializedSession : Session (StateM Unit) × Unit :=
  ({ connect := fun _ => pure {}, phase := .initialized }, ())

def routerName (_ : Uri) : String := "file:///router.ex"

theorem texts_meant_iff_saved :
    let acts : List DocumentAct :=
      [.opens routerUri "a", .changes routerUri ["b", "c"], .saves routerUri (some "c"),
        .changes routerUri ["d", "e", "d"]]
    let events := SessionEvent.saying routerName acts
    initializedSession.1.phase = .initialized ∧
      DocumentAct.KeepTo initializedSession.1.text? (SessionEvent.acts events) ∧
      (meets initializedSession events).1.text? routerUri = some "d" := by
  intro acts events
  have hName : Uri.parse? "file:///router.ex" = some routerUri := rfl
  have hUri : ∀ act ∈ acts, act.uri = routerUri := by simp [acts, DocumentAct.uri]
  have hActs : SessionEvent.acts events = acts :=
    SessionEvent.acts_saying fun act hAct => hName.trans (congrArg some (hUri act hAct).symm)
  have hKeeps : DocumentAct.KeepTo initializedSession.1.text? acts :=
    ⟨trivial, rfl, by rintro _ ⟨⟩; rfl, rfl, trivial⟩
  have hPhase : initializedSession.1.phase = .initialized := rfl
  obtain ⟨-, hMeant⟩ := texts_meant_iff hPhase events
  rw [hActs] at hMeant ⊢
  refine ⟨hPhase, hKeeps, (hMeant hKeeps routerUri).mpr ?_⟩
  rintro _ ⟨⟩
  rfl

/-- Of two changes in one message a session has the first, and the protocol means the last. -/
theorem first_change_prevails :
    let acts : List DocumentAct := [.opens routerUri "a", .changes routerUri ["b", "c"]]
    let events := SessionEvent.saying routerName acts
    SessionEvent.acts events = acts ∧ DocumentAct.KeepTo initializedSession.1.text? acts ∧
      (meets initializedSession events).1.text? routerUri = some "b" ∧
      DocumentAct.textMeant initializedSession.1.text? acts routerUri = some "c" := by
  refine ⟨rfl, ⟨trivial, rfl, trivial⟩, rfl, rfl⟩

end Session

end PhoenixLens