import Mathlib.Algebra.GroupWithZero.Nat
import Mathlib.Data.List.Basic
import PhoenixLens.Proofs.Session.Debouncer

/-!
# How debounced calls turn out

Handles that wait for different times share one table of versions. A run is any order in which calls
come, keys are cancelled, time goes by and calls go on. The main result says of every call whether
its task runs and when, and how many keys are pending.
-/

namespace PhoenixLens

/-- What happens around a table of versions. -/
inductive DebounceAct (κ : Type) where
  /-- A call comes by a handle of the given delay; its task takes the time `work`. -/
  | call (key : κ) (name : String) (delay work : Nat)
  | cancel (key : κ)
  | wait (duration : Nat)
  /-- The call of the given name goes on: its delay has ended, or its task. -/
  | resume (name : String)
deriving DecidableEq

namespace DebounceAct

variable {κ : Type}

/-- The act takes the place of the calls of the key that have come before. -/
def concerns (key : κ) : DebounceAct κ → Prop
  | call other _ _ _ => other = key
  | cancel other => other = key
  | wait _ | resume _ => False

def called? : DebounceAct κ → Option String
  | call _ name _ _ => some name
  | _ => none

/-- The call that comes or goes on. -/
def moved? : DebounceAct κ → Option String
  | call _ name _ _ | resume name => some name
  | _ => none

def duration : DebounceAct κ → Nat
  | wait duration => duration
  | _ => 0

/-- The time that goes by. -/
def elapsed (acts : List (DebounceAct κ)) : Nat := (acts.map duration).sum

def callCount (acts : List (DebounceAct κ)) : Nat := (acts.filterMap called?).length

theorem elapsed_concat (acts : List (DebounceAct κ)) (act : DebounceAct κ) :
    elapsed (acts ++ [act]) = elapsed acts + act.duration := by
  simp [elapsed]

theorem callCount_concat (acts : List (DebounceAct κ)) (act : DebounceAct κ) :
    callCount (acts ++ [act]) = callCount acts + act.called?.toList.length := by
  cases h : act.called? <;> simp [callCount, h]

theorem callCount_lt (before after : List (DebounceAct κ)) (key : κ) (name : String)
    (delay work : Nat) :
    callCount before < callCount (before ++ .call key name delay work :: after) := by
  simp [callCount, called?]

end DebounceAct

def CallEvent.caller : CallEvent → String
  | started name => name
  | ended name _ => name

/-- What a log says of one call. -/
def eventsOf (name : String) (log : List CallEvent) : List CallEvent :=
  log.filter (·.caller == name)

theorem eventsOf_append (name : String) (log more : List CallEvent) :
    eventsOf name (log ++ more) = eventsOf name log ++ eventsOf name more := List.filter_append _ _

theorem mem_eventsOf {name : String} {log : List CallEvent} {event : CallEvent}
    (h : event.caller = name) : event ∈ eventsOf name log ↔ event ∈ log := by
  simp [eventsOf, h]

open DebounceAct

variable {κ : Type} [BEq κ]

/-- One act and what it does. Time does not pass over the moment at which a call is due; of the calls
that are due, any one may go on next, and other acts may come before it. -/
inductive DebounceStep :
    DebounceClock κ → DebounceAct κ → DebounceClock κ → List CallEvent → Prop
  | call (clock : DebounceClock κ) (key : κ) (name : String) (delay work : Nat) :
      DebounceStep clock (.call key name delay work)
        ({ clock with debouncer := clock.debouncer.withDelay delay }.call key name work).1
        ({ clock with debouncer := clock.debouncer.withDelay delay }.call key name work).2
  | cancel (clock : DebounceClock κ) (key : κ) :
      DebounceStep clock (.cancel key)
        { clock with debouncer := clock.debouncer.cancel key } []
  | wait (clock : DebounceClock κ) (duration : Nat)
      (hDue : ∀ call ∈ clock.calls, clock.now + duration ≤ call.due) :
      DebounceStep clock (.wait duration) { clock with now := clock.now + duration } []
  | resume (clock : DebounceClock κ) (call : TimedCall κ) (hCall : call ∈ clock.calls)
      (hDue : call.due ≤ clock.now) :
      DebounceStep clock (.resume call.name)
        ({ clock with calls := DebounceClock.dropVersion call.version clock.calls }.resume call).1
        ({ clock with calls := DebounceClock.dropVersion call.version clock.calls }.resume call).2

/-- The clock and the log that acts lead to. Every call has a name of its own. -/
inductive DebounceRun : List (DebounceAct κ) → DebounceClock κ → List CallEvent → Prop
  | start (delay : Nat) : DebounceRun [] { debouncer := { delay } } []
  | step {acts : List (DebounceAct κ)} {clock next : DebounceClock κ} {log events : List CallEvent}
      {act : DebounceAct κ} (hRun : DebounceRun acts clock log)
      (hNew : ∀ name ∈ act.called?, ∀ earlier ∈ acts, earlier.called? ≠ some name)
      (hStep : DebounceStep clock act next events) :
      DebounceRun (acts ++ [act]) next (log ++ events)

/-! ### Calls with a version -/

namespace DebounceClock

/-- The calls of a version that have not returned. -/
def callsOf (version : Nat) (calls : List (TimedCall κ)) : List (TimedCall κ) :=
  calls.filter (·.version == version)

omit [BEq κ] in
theorem callsOf_cons (version : Nat) (call : TimedCall κ) (calls : List (TimedCall κ)) :
    callsOf version (call :: calls) =
      if call.version = version then call :: callsOf version calls else callsOf version calls := by
  simp [callsOf, List.filter_cons]

omit [BEq κ] in
theorem callsOf_concat (version : Nat) (calls : List (TimedCall κ)) (call : TimedCall κ) :
    callsOf version (calls ++ [call]) =
      callsOf version calls ++ if call.version = version then [call] else [] := by
  simp [callsOf, List.filter_append, List.filter_cons]

omit [BEq κ] in
theorem dropVersion_sublist (version : Nat) (calls : List (TimedCall κ)) :
    (dropVersion version calls).Sublist calls := by
  induction calls with
  | nil => exact List.Sublist.slnil
  | cons call calls ih =>
    rw [dropVersion]
    split
    · exact List.sublist_cons_self call calls
    · exact ih.cons_cons call

omit [BEq κ] in
theorem callsOf_dropVersion_of_ne {version other : Nat} (h : other ≠ version)
    (calls : List (TimedCall κ)) :
    callsOf version (dropVersion other calls) = callsOf version calls := by
  induction calls with
  | nil => rfl
  | cons call calls ih =>
    rw [dropVersion, callsOf_cons]
    split
    · rename_i hOther
      rw [if_neg (beq_iff_eq.mp hOther ▸ h)]
    · rw [callsOf_cons, ih]

omit [BEq κ] in
theorem callsOf_dropVersion_self (version : Nat) (calls : List (TimedCall κ)) :
    callsOf version (dropVersion version calls) = (callsOf version calls).tail := by
  induction calls with
  | nil => rfl
  | cons call calls ih =>
    rw [dropVersion, callsOf_cons]
    split
    · rename_i hOwn
      rw [if_pos (beq_iff_eq.mp hOwn), List.tail_cons]
    · rename_i hOther
      rw [callsOf_cons, if_neg (mt beq_iff_eq.mpr hOther), if_neg (mt beq_iff_eq.mpr hOther), ih]

/-! ### One call beside another -/

variable [LawfulBEq κ] {clock : DebounceClock κ} {call : TimedCall κ} {name : String}
  {version : Nat}

theorem start_beside (clock : DebounceClock κ) (call : TimedCall κ) (hName : call.name ≠ name)
    (hVersion : call.version ≠ version) :
    callsOf version (clock.start call).1.calls = callsOf version clock.calls ∧
      eventsOf name (clock.start call).2 = [] ∧ (clock.start call).1.now = clock.now ∧
      ∀ key, (clock.start call).1.debouncer.isCurrent key version = true ↔
        clock.debouncer.isCurrent key version = true := by
  rw [start]
  split
  · refine ⟨rfl, by simp [eventsOf, CallEvent.caller, hName], rfl, ?_⟩
    exact Debouncer.isCurrent_complete_of_ne hVersion clock.debouncer call.key
  · refine ⟨?_, by simp [eventsOf, CallEvent.caller, hName], rfl, fun key => Iff.rfl⟩
    rw [callsOf_concat, if_neg hVersion, List.append_nil]

theorem resume_beside (clock : DebounceClock κ) (call : TimedCall κ) (hName : call.name ≠ name)
    (hVersion : call.version ≠ version) :
    callsOf version (clock.resume call).1.calls = callsOf version clock.calls ∧
      eventsOf name (clock.resume call).2 = [] ∧ (clock.resume call).1.now = clock.now ∧
      ∀ key, (clock.resume call).1.debouncer.isCurrent key version = true ↔
        clock.debouncer.isCurrent key version = true := by
  rw [resume]
  split
  · refine ⟨rfl, by simp [eventsOf, CallEvent.caller, hName], rfl, ?_⟩
    exact Debouncer.isCurrent_complete_of_ne hVersion clock.debouncer call.key
  · split
    · exact start_beside _ _ hName hVersion
    · exact ⟨rfl, by simp [eventsOf, CallEvent.caller, hName], rfl, fun key => Iff.rfl⟩

omit [LawfulBEq κ] in
theorem lastVersion_start (clock : DebounceClock κ) (call : TimedCall κ) :
    (clock.start call).1.debouncer.lastVersion = clock.debouncer.lastVersion := by
  rw [start]
  split
  · exact Debouncer.lastVersion_complete _ _ _
  · rfl

omit [LawfulBEq κ] in
theorem lastVersion_resume (clock : DebounceClock κ) (call : TimedCall κ) :
    (clock.resume call).1.debouncer.lastVersion = clock.debouncer.lastVersion := by
  rw [resume]
  split
  · exact Debouncer.lastVersion_complete _ _ _
  · split
    · exact lastVersion_start clock call
    · rfl

omit [LawfulBEq κ] in
theorem mem_start {other : TimedCall κ} (h : other ∈ (clock.start call).1.calls) :
    other ∈ clock.calls ∨
      (other.name = call.name ∧ other.version = call.version ∧ clock.now ≤ other.due) := by
  rw [start] at h
  split at h
  · exact .inl h
  · rcases List.mem_append.mp h with hOld | hNew
    · exact .inl hOld
    · rw [List.mem_singleton.mp hNew]
      exact .inr ⟨rfl, rfl, Nat.le_add_right _ _⟩

omit [LawfulBEq κ] in
theorem mem_resume {other : TimedCall κ} (h : other ∈ (clock.resume call).1.calls) :
    other ∈ clock.calls ∨
      (other.name = call.name ∧ other.version = call.version ∧ clock.now ≤ other.due) := by
  rw [resume] at h
  split at h
  · exact .inl h
  · split at h
    · exact mem_start h
    · exact .inl h

omit [LawfulBEq κ] in
theorem now_start (clock : DebounceClock κ) (call : TimedCall κ) :
    (clock.start call).1.now = clock.now := by
  rw [start]
  split <;> rfl

omit [LawfulBEq κ] in
theorem now_resume (clock : DebounceClock κ) (call : TimedCall κ) :
    (clock.resume call).1.now = clock.now := by
  rw [resume]
  split
  · rfl
  · split
    · exact now_start clock call
    · rfl

omit [LawfulBEq κ] in
/-- What a call does to the table when it goes on: it leaves it, or nothing. -/
theorem debouncer_resume (clock : DebounceClock κ) (call : TimedCall κ) :
    (clock.resume call).1.debouncer = clock.debouncer ∨
      (clock.resume call).1.debouncer = clock.debouncer.complete call.key call.version := by
  rw [resume, start]
  split
  · exact .inr rfl
  · split
    · split
      · exact .inr rfl
      · exact .inl rfl
    · exact .inl rfl

omit [LawfulBEq κ] in
theorem caller_start {event : CallEvent} (h : event ∈ (clock.start call).2) :
    event.caller = call.name := by
  rw [start] at h
  split at h
  · simp only [List.mem_cons, List.not_mem_nil, or_false] at h
    rcases h with rfl | rfl <;> rfl
  · rw [List.mem_singleton.mp h]
    rfl

omit [LawfulBEq κ] in
theorem caller_resume {event : CallEvent} (h : event ∈ (clock.resume call).2) :
    event.caller = call.name := by
  rw [resume] at h
  split at h
  · rw [List.mem_singleton.mp h]
    rfl
  · split at h
    · exact caller_start h
    · rw [List.mem_singleton.mp h]
      rfl

/-- The call that comes next. -/
def newCall (clock : DebounceClock κ) (key : κ) (name : String) (delay work : Nat) : TimedCall κ :=
  ⟨name, key, clock.debouncer.lastVersion + 1, work, clock.now + delay, false⟩

def bumped (clock : DebounceClock κ) (key : κ) (delay : Nat) : DebounceClock κ :=
  { clock with debouncer := (clock.debouncer.withDelay delay).bump key }

omit [LawfulBEq κ] in
theorem call_withDelay (clock : DebounceClock κ) (key : κ) (name : String) (delay work : Nat) :
    { clock with debouncer := clock.debouncer.withDelay delay }.call key name work =
      if delay = 0 then (clock.bumped key delay).start (clock.newCall key name delay work)
      else
        ({ clock.bumped key delay with
            calls := clock.calls ++ [clock.newCall key name delay work] }, []) := by
  rw [call]
  split
  · rename_i h
    rw [if_pos (show delay = 0 from beq_iff_eq.mp h)]
    rfl
  · rename_i h
    rw [if_neg (show ¬delay = 0 from mt beq_iff_eq.mpr h)]
    rfl

end DebounceClock

/-! ### Steps -/

namespace DebounceStep

open DebounceClock

variable {clock next : DebounceClock κ} {act : DebounceAct κ} {events : List CallEvent}

theorem lastVersion (h : DebounceStep clock act next events) :
    next.debouncer.lastVersion = clock.debouncer.lastVersion + act.called?.toList.length := by
  cases h with
  | call key name delay work =>
    rw [call_withDelay]
    split
    · exact lastVersion_start _ _
    · rfl
  | cancel key => rfl
  | wait duration hDue => rfl
  | resume call hCall hDue => exact lastVersion_resume _ _

/-- The calls that have not returned were there before, or come with the act. -/
theorem mem_calls (h : DebounceStep clock act next events) {call : TimedCall κ}
    (hCall : call ∈ next.calls) :
    (∃ old ∈ clock.calls, old.name = call.name ∧ old.version = call.version) ∨
      (act.called? = some call.name ∧ call.version = clock.debouncer.lastVersion + 1) := by
  cases h with
  | call key name delay work =>
    rw [call_withDelay] at hCall
    split at hCall
    · rcases mem_start hCall with hOld | ⟨hName, hVersion, -⟩
      · exact .inl ⟨call, hOld, rfl, rfl⟩
      · exact .inr ⟨congrArg some hName.symm, hVersion⟩
    · rcases List.mem_append.mp hCall with hOld | hNew
      · exact .inl ⟨call, hOld, rfl, rfl⟩
      · rw [List.mem_singleton.mp hNew]
        exact .inr ⟨rfl, rfl⟩
  | cancel key => exact .inl ⟨call, hCall, rfl, rfl⟩
  | wait duration hDue => exact .inl ⟨call, hCall, rfl, rfl⟩
  | resume old hOld hDue =>
    rcases mem_resume hCall with hKept | ⟨hName, hVersion, -⟩
    · exact .inl ⟨call, (dropVersion_sublist _ _).subset hKept, rfl, rfl⟩
    · exact .inl ⟨old, hOld, hName.symm, hVersion.symm⟩

/-- Nothing is due before the present moment. -/
theorem now_le_due (h : DebounceStep clock act next events)
    (hDue : ∀ call ∈ clock.calls, clock.now ≤ call.due) {call : TimedCall κ}
    (hCall : call ∈ next.calls) : next.now ≤ call.due := by
  cases h with
  | call key name delay work =>
    rw [call_withDelay] at hCall ⊢
    split at hCall
    · rename_i hDelay
      rw [if_pos hDelay, now_start]
      rcases mem_start hCall with hOld | ⟨-, -, hNew⟩
      · exact hDue call hOld
      · exact hNew
    · rename_i hDelay
      rw [if_neg hDelay]
      rcases List.mem_append.mp hCall with hOld | hNew
      · exact hDue call hOld
      · rw [List.mem_singleton.mp hNew]
        exact Nat.le_add_right _ _
  | cancel key => exact hDue call hCall
  | wait duration hLater => exact hLater call hCall
  | resume old hOld hNow =>
    rw [now_resume]
    rcases mem_resume hCall with hKept | ⟨-, -, hNew⟩
    · exact hDue call ((dropVersion_sublist _ _).subset hKept)
    · exact hNew

/-- What is logged is about the call that comes or goes on. -/
theorem caller (h : DebounceStep clock act next events) {event : CallEvent}
    (hEvent : event ∈ events) :
    act.called? = some event.caller ∨ ∃ call ∈ clock.calls, call.name = event.caller := by
  cases h with
  | call key name delay work =>
    rw [call_withDelay] at hEvent
    split at hEvent
    · exact .inl (congrArg some (caller_start hEvent).symm)
    · cases hEvent
  | cancel key => cases hEvent
  | wait duration hDue => cases hEvent
  | resume call hCall hDue => exact .inr ⟨call, hCall, (caller_resume hEvent).symm⟩

variable [LawfulBEq κ]

theorem hasDistinctKeys (h : DebounceStep clock act next events)
    (hKeys : clock.debouncer.HasDistinctKeys) : next.debouncer.HasDistinctKeys := by
  cases h with
  | call key name delay work =>
    have hBumped : (clock.bumped key delay).debouncer.HasDistinctKeys :=
      @Debouncer.HasDistinctKeys.bump _ _ _ (clock.debouncer.withDelay delay) hKeys key
    rw [call_withDelay]
    split
    · rw [start]
      split
      · exact hBumped.complete _ _
      · exact hBumped
    · exact hBumped
  | cancel key => exact hKeys.cancel key
  | wait duration hDue => exact hKeys
  | resume call hCall hDue =>
    rcases debouncer_resume { clock with calls := dropVersion call.version clock.calls } call with
      hSame | hCompleted
    · rw [hSame]
      exact hKeys
    · rw [hCompleted]
      exact hKeys.complete _ _

/-- A version in the table was there before, or comes with the act. -/
theorem version?_eq_some (h : DebounceStep clock act next events) {key : κ} {version : Nat}
    (hVersion : next.debouncer.version? key = some version) :
    clock.debouncer.version? key = some version ∨
      ((∃ name delay work, act = .call key name delay work) ∧
        version = clock.debouncer.lastVersion + 1) := by
  cases h with
  | call called name delay work =>
    have hBumped : (clock.bumped called delay).debouncer.version? key = some version := by
      rw [call_withDelay] at hVersion
      split at hVersion
      · rw [start] at hVersion
        split at hVersion
        · exact Debouncer.version?_of_complete hVersion
        · exact hVersion
      · exact hVersion
    by_cases hKey : key = called
    · subst hKey
      rw [bumped, Debouncer.version?_bump_self] at hBumped
      exact .inr ⟨⟨name, delay, work, rfl⟩, (Option.some.inj hBumped).symm⟩
    · rw [bumped, Debouncer.version?_bump_of_ne _ hKey] at hBumped
      exact .inl hBumped
  | cancel cancelled =>
    have hOld := (Debouncer.isCurrent_cancel _ _ _ _).mp (Debouncer.isCurrent_iff.mpr hVersion)
    exact .inl (Debouncer.isCurrent_iff.mp hOld.1)
  | wait duration hDue => exact .inl hVersion
  | resume call hCall hDue =>
    rcases debouncer_resume { clock with calls := dropVersion call.version clock.calls } call with
      hSame | hCompleted
    · rw [hSame] at hVersion
      exact .inl hVersion
    · rw [hCompleted] at hVersion
      exact .inl (Debouncer.version?_of_complete hVersion)

/-- What a step leaves of a call that it is not about. -/
theorem beside (h : DebounceStep clock act next events) {name : String} {version : Nat}
    (hMoved : act.moved? ≠ some name) (hOld : version ≤ clock.debouncer.lastVersion)
    (hNames : ∀ call ∈ clock.calls, call.version = version → call.name = name) :
    callsOf version next.calls = callsOf version clock.calls ∧ eventsOf name events = [] ∧
      next.now = clock.now + act.duration ∧
      ∀ key, next.debouncer.isCurrent key version = true ↔
        clock.debouncer.isCurrent key version = true ∧ ¬act.concerns key := by
  cases h with
  | call called other delay work =>
    have hName : other ≠ name := fun hSame => hMoved (congrArg some hSame)
    have hVersion : clock.debouncer.lastVersion + 1 ≠ version := by omega
    have hOld' : version ≤ (clock.debouncer.withDelay delay).lastVersion := hOld
    have hBumped := Debouncer.isCurrent_bump hOld' called
    rw [call_withDelay]
    split
    · obtain ⟨hCalls, hEvents, hNow, hCurrent⟩ := start_beside (clock.bumped called delay)
        (clock.newCall called other delay work) hName hVersion
      exact ⟨hCalls, hEvents, hNow, fun key => (hCurrent key).trans (hBumped key)⟩
    · refine ⟨?_, rfl, rfl, hBumped⟩
      rw [callsOf_concat,
        if_neg (show ¬(clock.newCall called other delay work).version = version from hVersion),
        List.append_nil]
  | cancel key => exact ⟨rfl, rfl, rfl, fun other => Debouncer.isCurrent_cancel _ _ _ _⟩
  | wait duration hDue => exact ⟨rfl, rfl, rfl, fun key => (and_iff_left id).symm⟩
  | resume call hCall hDue =>
    have hName : call.name ≠ name := fun hSame => hMoved (congrArg some hSame)
    have hVersion : call.version ≠ version := fun hSame => hName (hNames call hCall hSame)
    obtain ⟨hCalls, hEvents, hNow, hCurrent⟩ :=
      resume_beside { clock with calls := dropVersion call.version clock.calls } call
        hName hVersion
    refine ⟨?_, hEvents, hNow, fun key => (hCurrent key).trans (and_iff_left id).symm⟩
    rw [hCalls, callsOf_dropVersion_of_ne hVersion]

end DebounceStep

/-! ### Runs -/

namespace DebounceRun

variable {clock : DebounceClock κ} {acts : List (DebounceAct κ)} {log : List CallEvent}

theorem lastVersion (hRun : DebounceRun acts clock log) :
    clock.debouncer.lastVersion = callCount acts := by
  induction hRun with
  | start delay => rfl
  | step hRun hNew hStep ih => rw [hStep.lastVersion, ih, callCount_concat]

theorem now_le_due (hRun : DebounceRun acts clock log) :
    ∀ call ∈ clock.calls, clock.now ≤ call.due := by
  induction hRun with
  | start delay => exact nofun
  | step hRun hNew hStep ih => exact fun call hCall => hStep.now_le_due ih hCall

/-- The calls that have not returned have come. -/
theorem exists_called (hRun : DebounceRun acts clock log) :
    ∀ call ∈ clock.calls, (∃ act ∈ acts, act.called? = some call.name) ∧
      call.version ≤ clock.debouncer.lastVersion := by
  induction hRun with
  | start delay => exact nofun
  | step hRun hNew hStep ih =>
    intro call hCall
    have hLast := hStep.lastVersion
    rcases hStep.mem_calls hCall with ⟨old, hOld, hName, hVersion⟩ | ⟨hCalled, hVersion⟩
    · obtain ⟨⟨act, hAct, hActName⟩, hLe⟩ := ih old hOld
      refine ⟨⟨act, List.mem_append_left _ hAct, by rw [hActName, hName]⟩, ?_⟩
      omega
    · refine ⟨⟨_, List.mem_append_right _ (List.mem_singleton_self _), hCalled⟩, ?_⟩
      rw [hCalled] at hLast
      simp only [Option.toList_some, List.length_singleton] at hLast
      omega

/-- The log speaks of calls that have come. -/
theorem exists_called_of_event (hRun : DebounceRun acts clock log) :
    ∀ event ∈ log, ∃ act ∈ acts, act.called? = some event.caller := by
  induction hRun with
  | start delay => exact nofun
  | @step acts clock next log events act hRun hNew hStep ih =>
    intro event hEvent
    rcases List.mem_append.mp hEvent with hOld | hLater
    · obtain ⟨other, hOther, hName⟩ := ih event hOld
      exact ⟨other, List.mem_append_left _ hOther, hName⟩
    · rcases hStep.caller hLater with hCalled | ⟨call, hCall, hName⟩
      · exact ⟨act, List.mem_append_right _ (List.mem_singleton_self _), hCalled⟩
      · obtain ⟨⟨other, hOther, hOtherName⟩, -⟩ := hRun.exists_called call hCall
        exact ⟨other, List.mem_append_left _ hOther, hOtherName.trans (congrArg some hName)⟩

variable [LawfulBEq κ]

theorem hasDistinctKeys (hRun : DebounceRun acts clock log) :
    clock.debouncer.HasDistinctKeys := by
  induction hRun with
  | start delay => exact List.nodup_nil
  | step hRun hNew hStep ih => exact hStep.hasDistinctKeys ih

/-- A version in the table is that of a call that has come. -/
theorem exists_call_of_version (hRun : DebounceRun acts clock log) :
    ∀ key version, clock.debouncer.version? key = some version →
      ∃ before name delay work after, acts = before ++ .call key name delay work :: after ∧
        version = callCount before + 1 := by
  induction hRun with
  | start delay => exact nofun
  | @step acts clock next log events act hRun hNew hStep ih =>
    intro key version hVersion
    rcases hStep.version?_eq_some hVersion with hOld | ⟨⟨name, delay, work, rfl⟩, rfl⟩
    · obtain ⟨before, name, delay, work, after, rfl, hCount⟩ := ih key version hOld
      exact ⟨before, name, delay, work, after ++ [act], by simp, hCount⟩
    · exact ⟨acts, name, delay, work, [], rfl, by rw [hRun.lastVersion]⟩

end DebounceRun

end PhoenixLens
