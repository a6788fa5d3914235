import PhoenixLens.Proofs.Session.Debouncing

/-!
# Which debounced calls run

A call waits, runs or has returned; what has happened to its key decides where it goes on. The main
result reads off how every call of a run turns out and how many keys are pending.
-/

namespace PhoenixLens

open DebounceAct DebounceClock

variable {κ : Type} {key : κ} {name : String} {version delay work : Nat}
  {acts after first other : List (DebounceAct κ)} {log events : List CallEvent}

/-! ### The end of a delay -/

/-- The call goes on for the first time behind `first`. -/
def GoesOnBehind (name : String) (first after : List (DebounceAct κ)) : Prop :=
  .resume name ∉ first ∧ ∃ rest, after = first ++ .resume name :: rest

theorem GoesOnBehind.append (h : GoesOnBehind name first after) (more : List (DebounceAct κ)) :
    GoesOnBehind name first (after ++ more) := by
  obtain ⟨hFirst, rest, rfl⟩ := h
  exact ⟨hFirst, rest ++ more, by simp⟩

theorem GoesOnBehind.mem (h : GoesOnBehind name first after) : .resume name ∈ after := by
  obtain ⟨-, rest, rfl⟩ := h
  exact List.mem_append_right first List.mem_cons_self

theorem GoesOnBehind.eq (h : GoesOnBehind name first after) (hOther : GoesOnBehind name other after) :
    first = other := by
  obtain ⟨hFirst, rest, rfl⟩ := h
  obtain ⟨hOther, more, hSame⟩ := hOther
  rcases List.append_eq_append_iff.mp hSame with ⟨middle, rfl, hRest⟩ | ⟨middle, rfl, hRest⟩
  · cases middle with
    | nil => exact (List.append_nil first).symm
    | cons act middle =>
      rw [List.cons_append, List.cons.injEq] at hRest
      exact absurd (List.mem_append_right first (hRest.1 ▸ List.mem_cons_self)) hOther
  · cases middle with
    | nil => exact List.append_nil other
    | cons act middle =>
      rw [List.cons_append, List.cons.injEq] at hRest
      exact absurd (List.mem_append_right other (hRest.1 ▸ List.mem_cons_self)) hFirst

/-- Nothing has happened to the key until the delay of the call was over. -/
def Undisturbed (key : κ) (name : String) (delay : Nat) (after : List (DebounceAct κ)) : Prop :=
  delay = 0 ∨ ∃ first, GoesOnBehind name first after ∧ elapsed first = delay ∧
    ∀ act ∈ first, ¬act.concerns key

/-- Something has happened to the key before the delay of the call was over. -/
def Disturbed (key : κ) (name : String) (delay : Nat) (after : List (DebounceAct κ)) : Prop :=
  delay ≠ 0 ∧ ∃ first, GoesOnBehind name first after ∧ elapsed first = delay ∧
    ∃ act ∈ first, act.concerns key

theorem Undisturbed.append (h : Undisturbed key name delay after) (more : List (DebounceAct κ)) :
    Undisturbed key name delay (after ++ more) := by
  rcases h with hDelay | ⟨first, hFirst, hElapsed, hQuiet⟩
  · exact .inl hDelay
  · exact .inr ⟨first, hFirst.append more, hElapsed, hQuiet⟩

theorem Undisturbed.mem (h : Undisturbed key name delay after) (hDelay : delay ≠ 0) :
    .resume name ∈ after := by
  rcases h with hZero | ⟨first, hFirst, -⟩
  · exact absurd hZero hDelay
  · exact hFirst.mem

theorem Disturbed.append (h : Disturbed key name delay after) (more : List (DebounceAct κ)) :
    Disturbed key name delay (after ++ more) := by
  obtain ⟨hDelay, first, hFirst, hElapsed, hLoud⟩ := h
  exact ⟨hDelay, first, hFirst.append more, hElapsed, hLoud⟩

theorem Disturbed.mem (h : Disturbed key name delay after) : .resume name ∈ after := by
  obtain ⟨-, first, hFirst, -⟩ := h
  exact hFirst.mem

/-! ### How a call turns out -/

/-- What becomes of a call of the key, after which `after` has happened. -/
structure TurnsOut (key : κ) (name : String) (delay work : Nat) (after : List (DebounceAct κ))
    (log : List CallEvent) : Prop where
  /-- The task runs once or never, and the call returns behind it. -/
  events : eventsOf name log = [] ∨ eventsOf name log = [.started name] ∨
    eventsOf name log = [.started name, .ended name true] ∨ eventsOf name log = [.ended name false]
  returns : ∀ ran, .ended name ran ∈ log → (ran = true ↔ .started name ∈ log)
  startsAtOnce : delay = 0 → .started name ∈ log
  /-- No event comes before the delay is over. -/
  waits : delay ≠ 0 → .resume name ∉ after → eventsOf name log = [] ∧ elapsed after ≤ delay
  startsOrReturns : delay ≠ 0 → ∀ first, GoesOnBehind name first after → elapsed first = delay ∧
    (.started name ∈ log ↔ ∀ act ∈ first, ¬act.concerns key) ∧
    (.ended name false ∈ log ↔ ∃ act ∈ first, act.concerns key)
  returnsInTime : delay + work < elapsed after → ∃ ran, .ended name ran ∈ log

theorem Undisturbed.startsOrReturns (h : Undisturbed key name delay after) (hDelay : delay ≠ 0)
    {first : List (DebounceAct κ)} (hFirst : GoesOnBehind name first after)
    (hStarted : .started name ∈ log) (hDropped : .ended name false ∉ log) :
    elapsed first = delay ∧ (.started name ∈ log ↔ ∀ act ∈ first, ¬act.concerns key) ∧
      (.ended name false ∈ log ↔ ∃ act ∈ first, act.concerns key) := by
  rcases h with hZero | ⟨other, hOther, hElapsed, hQuiet⟩
  · exact absurd hZero hDelay
  · obtain rfl := hFirst.eq hOther
    refine ⟨hElapsed, iff_of_true hStarted hQuiet, iff_of_false hDropped ?_⟩
    rintro ⟨act, hAct, hOwn⟩
    exact hQuiet act hAct hOwn

theorem Disturbed.startsOrReturns (h : Disturbed key name delay after)
    {first : List (DebounceAct κ)} (hFirst : GoesOnBehind name first after)
    (hStarted : .started name ∉ log) (hDropped : .ended name false ∈ log) :
    elapsed first = delay ∧ (.started name ∈ log ↔ ∀ act ∈ first, ¬act.concerns key) ∧
      (.ended name false ∈ log ↔ ∃ act ∈ first, act.concerns key) := by
  obtain ⟨-, other, hOther, hElapsed, hLoud⟩ := h
  obtain rfl := hFirst.eq hOther
  refine ⟨hElapsed, iff_of_false hStarted ?_, iff_of_true hDropped hLoud⟩
  intro hQuiet
  obtain ⟨act, hAct, hOwn⟩ := hLoud
  exact hQuiet act hAct hOwn

/-- The most recent call of the key has not returned, and the key has not been cancelled since. -/
def IsPending (acts : List (DebounceAct κ)) (log : List CallEvent) (key : κ) : Prop :=
  ∃ before name delay work after, acts = before ++ .call key name delay work :: after ∧
    (∀ act ∈ after, ¬act.concerns key) ∧ ∀ ran, .ended name ran ∉ log

theorem started_mem_iff {found : List CallEvent} (hEvents : eventsOf name log = found) :
    .started name ∈ log ↔ .started name ∈ found := by
  rw [← hEvents]
  exact (mem_eventsOf rfl).symm

theorem ended_mem_iff {found : List CallEvent} (hEvents : eventsOf name log = found) (ran : Bool) :
    .ended name ran ∈ log ↔ .ended name ran ∈ found := by
  rw [← hEvents]
  exact (mem_eventsOf rfl).symm

/-! ### Phases -/

theorem forall_concat_not_concerns {acts : List (DebounceAct κ)} {act : DebounceAct κ} {key : κ} :
    (∀ other ∈ acts ++ [act], ¬other.concerns key) ↔
      (∀ other ∈ acts, ¬other.concerns key) ∧ ¬act.concerns key := by
  rw [List.forall_mem_append, List.forall_mem_singleton]

theorem callsOf_eq_nil {calls : List (TimedCall κ)} (h : ∀ call ∈ calls, call.version ≠ version) :
    callsOf version calls = [] := by
  rw [callsOf, List.filter_eq_nil_iff]
  intro call hCall
  simpa using h call hCall

variable [BEq κ] {clock next : DebounceClock κ} {act : DebounceAct κ}

/-- Where a call stands after some acts. -/
inductive CallPhase (key : κ) (name : String) (version delay work : Nat)
    (after : List (DebounceAct κ)) (clock : DebounceClock κ) (log : List CallEvent) : Prop
  | waits (due : Nat) (hDelay : delay ≠ 0) (hAfter : .resume name ∉ after)
      (hEvents : eventsOf name log = [])
      (hCalls : callsOf version clock.calls = [⟨name, key, version, work, due, false⟩])
      (hDue : due + elapsed after = clock.now + delay)
      (hCurrent : clock.debouncer.isCurrent key version = true ↔ ∀ act ∈ after, ¬act.concerns key)
  | runs (due : Nat) (hQuiet : Undisturbed key name delay after)
      (hEvents : eventsOf name log = [.started name])
      (hCalls : callsOf version clock.calls = [⟨name, key, version, work, due, true⟩])
      (hDue : due + elapsed after = clock.now + delay + work)
      (hCurrent : clock.debouncer.isCurrent key version = true ↔ ∀ act ∈ after, ¬act.concerns key)
  | hasRun (hQuiet : Undisturbed key name delay after)
      (hEvents : eventsOf name log = [.started name, .ended name true])
      (hCalls : callsOf version clock.calls = [])
      (hCurrent : clock.debouncer.isCurrent key version = false)
  | isDropped (hLoud : Disturbed key name delay after)
      (hEvents : eventsOf name log = [.ended name false])
      (hCalls : callsOf version clock.calls = [])
      (hCurrent : clock.debouncer.isCurrent key version = false)

theorem CallPhase.turnsOut (h : CallPhase key name version delay work after clock log)
    (hDue : ∀ call ∈ clock.calls, clock.now ≤ call.due) :
    TurnsOut key name delay work after log := by
  have hLater {call : TimedCall κ} (hCalls : callsOf version clock.calls = [call]) :
      clock.now ≤ call.due := by
    have hOwn : call ∈ callsOf version clock.calls := hCalls ▸ List.mem_singleton_self call
    exact hDue call (List.mem_of_mem_filter hOwn)
  cases h with
  | waits due hDelay hAfter hEvents hCalls hTime hCurrent =>
    have hNow : clock.now ≤ due := hLater hCalls
    constructor
    · exact .inl hEvents
    · exact fun ran hEnded => absurd ((ended_mem_iff hEvents ran).mp hEnded) List.not_mem_nil
    · exact fun hZero => absurd hZero hDelay
    · exact fun _ _ => ⟨hEvents, by omega⟩
    · exact fun _ first hFirst => absurd hFirst.mem hAfter
    · omega
  | runs due hQuiet hEvents hCalls hTime hCurrent =>
    have hNow : clock.now ≤ due := hLater hCalls
    have hStarted : .started name ∈ log := by simp [started_mem_iff hEvents]
    have hEnded (ran : Bool) : .ended name ran ∉ log := by
      simp [ended_mem_iff hEvents]
    constructor
    · exact .inr (.inl hEvents)
    · exact fun ran hReturned => absurd hReturned (hEnded ran)
    · exact fun _ => hStarted
    · exact fun hDelay hAfter => absurd (hQuiet.mem hDelay) hAfter
    · exact fun hDelay first hFirst => hQuiet.startsOrReturns hDelay hFirst hStarted (hEnded false)
    · omega
  | hasRun hQuiet hEvents hCalls hCurrent =>
    have hStarted : .started name ∈ log := by simp [started_mem_iff hEvents]
    have hEnded (ran : Bool) : .ended name ran ∈ log ↔ ran = true := by
      simp [ended_mem_iff hEvents]
    constructor
    · exact .inr (.inr (.inl hEvents))
    · exact fun ran hReturned => iff_of_true ((hEnded ran).mp hReturned) hStarted
    · exact fun _ => hStarted
    · exact fun hDelay hAfter => absurd (hQuiet.mem hDelay) hAfter
    · refine fun hDelay first hFirst => hQuiet.startsOrReturns hDelay hFirst hStarted ?_
      exact fun hDropped => absurd ((hEnded false).mp hDropped) Bool.false_ne_true
    · exact fun _ => ⟨true, (hEnded true).mpr rfl⟩
  | isDropped hLoud hEvents hCalls hCurrent =>
    have hStarted : .started name ∉ log := by simp [started_mem_iff hEvents]
    have hEnded (ran : Bool) : .ended name ran ∈ log ↔ ran = false := by
      simp [ended_mem_iff hEvents]
    constructor
    · exact .inr (.inr (.inr hEvents))
    · intro ran hReturned
      rw [(hEnded ran).mp hReturned]
      exact iff_of_false Bool.false_ne_true hStarted
    · exact fun hZero => absurd hZero hLoud.1
    · exact fun _ hAfter => absurd hLoud.mem hAfter
    · exact fun _ first hFirst => hLoud.startsOrReturns hFirst hStarted ((hEnded false).mpr rfl)
    · exact fun _ => ⟨false, (hEnded false).mpr rfl⟩

/-- The version of a call is current while the key is pending because of it. -/
theorem CallPhase.isCurrent_iff (h : CallPhase key name version delay work after clock log) :
    clock.debouncer.isCurrent key version = true ↔
      (∀ act ∈ after, ¬act.concerns key) ∧ ∀ ran, .ended name ran ∉ log := by
  cases h with
  | waits due hDelay hAfter hEvents hCalls hTime hCurrent =>
    simp [hCurrent, ended_mem_iff hEvents]
  | runs due hQuiet hEvents hCalls hTime hCurrent =>
    simp [hCurrent, ended_mem_iff hEvents]
  | hasRun hQuiet hEvents hCalls hCurrent =>
    simp [hCurrent, ended_mem_iff hEvents]
  | isDropped hLoud hEvents hCalls hCurrent =>
    simp [hCurrent, ended_mem_iff hEvents]

variable [LawfulBEq κ]

/-- A call begins to run, at once or when its delay is over. -/
theorem CallPhase.start {call : TimedCall κ} (hCall : call.name = name ∧ call.key = key ∧
      call.version = version ∧ call.work = work)
    (hQuiet : Undisturbed key name delay after) (hElapsed : elapsed after = delay)
    (hEvents : eventsOf name log = []) (hCalls : callsOf version clock.calls = [])
    (hCurrent : clock.debouncer.isCurrent key version = true)
    (hUnconcerned : ∀ act ∈ after, ¬act.concerns key) :
    CallPhase key name version delay work after (clock.start call).1
      (log ++ (clock.start call).2) := by
  obtain ⟨rfl, rfl, rfl, rfl⟩ := hCall
  rw [DebounceClock.start]
  split
  · refine .hasRun hQuiet ?_ hCalls (Debouncer.isCurrent_complete_self _ _ _)
    rw [eventsOf_append, hEvents]
    simp [eventsOf, CallEvent.caller]
  · refine .runs (clock.now + call.work) hQuiet ?_ ?_ ?_ ?_
    · rw [eventsOf_append, hEvents]
      simp [eventsOf, CallEvent.caller]
    · rw [callsOf_concat, hCalls, if_pos rfl]
      rfl
    · show clock.now + call.work + elapsed after = clock.now + delay + call.work
      omega
    · exact iff_of_true hCurrent hUnconcerned

/-- The call that has just come. -/
theorem CallPhase.begin (hStep : DebounceStep clock (.call key name delay work) next events)
    (hCalls : ∀ call ∈ clock.calls, call.version ≤ clock.debouncer.lastVersion)
    (hLog : eventsOf name log = []) :
    CallPhase key name (clock.debouncer.lastVersion + 1) delay work [] next (log ++ events) := by
  have hNone : callsOf (clock.debouncer.lastVersion + 1) clock.calls = [] := by
    refine callsOf_eq_nil fun call hCall => ?_
    have := hCalls call hCall
    omega
  have hCurrent : (clock.bumped key delay).debouncer.isCurrent key
      (clock.debouncer.lastVersion + 1) = true :=
    Debouncer.isCurrent_iff.mpr
      (Debouncer.version?_bump_self (clock.debouncer.withDelay delay) key)
  cases hStep
  rw [call_withDelay]
  split
  · rename_i hDelay
    exact .start ⟨rfl, rfl, rfl, rfl⟩ (.inl hDelay) hDelay.symm hLog hNone hCurrent nofun
  · rename_i hDelay
    refine .waits (clock.now + delay) hDelay List.not_mem_nil ?_ ?_ rfl (iff_of_true hCurrent nofun)
    · rw [List.append_nil, hLog]
    · rw [callsOf_concat, hNone, List.nil_append]
      exact if_pos rfl

/-- Acts that are not about the call leave it where it is. -/
theorem CallPhase.pass (h : CallPhase key name version delay work after clock log)
    (hStep : DebounceStep clock act next events) (hMoved : act.moved? ≠ some name)
    (hOld : version ≤ clock.debouncer.lastVersion)
    (hNames : ∀ call ∈ clock.calls, call.version = version → call.name = name) :
    CallPhase key name version delay work (after ++ [act]) next (log ++ events) := by
  obtain ⟨hBeside, hNone, hNow, hKept⟩ := hStep.beside hMoved hOld hNames
  have hOther : act ≠ .resume name := by
    rintro rfl
    exact hMoved rfl
  have hOwn : eventsOf name (log ++ events) = eventsOf name log := by
    rw [eventsOf_append, hNone, List.append_nil]
  have hStale (h : clock.debouncer.isCurrent key version = false) :
      next.debouncer.isCurrent key version = false := by
    rw [← Bool.not_eq_true, hKept, h]
    exact fun hBoth => absurd hBoth.1 Bool.false_ne_true
  cases h with
  | waits due hDelay hAfter hEvents hCalls hDue hCurrent =>
    refine .waits due hDelay ?_ (hOwn.trans hEvents) (hBeside.trans hCalls) ?_ ?_
    · rw [List.mem_append, List.mem_singleton, not_or]
      exact ⟨hAfter, hOther.symm⟩
    · rw [elapsed_concat, hNow]
      omega
    · rw [hKept, hCurrent, forall_concat_not_concerns]
  | runs due hQuiet hEvents hCalls hDue hCurrent =>
    refine .runs due (hQuiet.append _) (hOwn.trans hEvents) (hBeside.trans hCalls) ?_ ?_
    · rw [elapsed_concat, hNow]
      omega
    · rw [hKept, hCurrent, forall_concat_not_concerns]
  | hasRun hQuiet hEvents hCalls hCurrent =>
    exact .hasRun (hQuiet.append _) (hOwn.trans hEvents) (hBeside.trans hCalls) (hStale hCurrent)
  | isDropped hLoud hEvents hCalls hCurrent =>
    exact .isDropped (hLoud.append _) (hOwn.trans hEvents) (hBeside.trans hCalls) (hStale hCurrent)

/-- The call itself goes on. -/
theorem CallPhase.goOn (h : CallPhase key name version delay work after clock log)
    (hStep : DebounceStep clock (.resume name) next events)
    (hNames : ∀ call ∈ clock.calls, call.name = name → call.version = version)
    (hDue : ∀ call ∈ clock.calls, clock.now ≤ call.due) :
    CallPhase key name version delay work (after ++ [.resume name]) next (log ++ events) := by
  cases hStep with
  | resume call hCall hNow =>
    have hVersion := hNames call hCall rfl
    have hMem : call ∈ callsOf version clock.calls := by
      rw [callsOf, List.mem_filter]
      exact ⟨hCall, beq_iff_eq.mpr hVersion⟩
    have hLeft : callsOf version (dropVersion version clock.calls) =
        (callsOf version clock.calls).tail := callsOf_dropVersion_self _ _
    have hPresent : call.due = clock.now := Nat.le_antisymm hNow (hDue call hCall)
    rw [hVersion]
    cases h with
    | waits due hDelay hAfter hEvents hCalls hTime hCurrent =>
      rw [hCalls, List.mem_singleton] at hMem
      rw [hCalls, List.tail_cons] at hLeft
      rw [hMem] at hPresent ⊢
      have hElapsed : elapsed after = delay := by
        simp only at hPresent
        omega
      have hBehind : GoesOnBehind call.name after (after ++ [.resume call.name]) := ⟨hAfter, [], rfl⟩
      have hTotal : elapsed (after ++ [.resume call.name]) = delay := by
        rw [elapsed_concat, hElapsed]
        rfl
      rw [DebounceClock.resume, if_neg Bool.false_ne_true]
      split
      · rename_i hStill
        have hUnconcerned := hCurrent.mp hStill
        refine .start ⟨rfl, rfl, rfl, rfl⟩ (.inr ⟨after, hBehind, hElapsed, hUnconcerned⟩) hTotal
          hEvents hLeft hStill ?_
        rw [forall_concat_not_concerns]
        exact ⟨hUnconcerned, id⟩
      · rename_i hLost
        have hConcerned : ∃ act ∈ after, act.concerns key := by
          by_contra hNone
          exact hLost (hCurrent.mpr fun act hAct hOwn => hNone ⟨act, hAct, hOwn⟩)
        refine .isDropped ⟨hDelay, after, hBehind, hElapsed, hConcerned⟩ ?_ hLeft ?_
        · rw [eventsOf_append, hEvents]
          simp [eventsOf, CallEvent.caller]
        · exact Bool.eq_false_iff.mpr hLost
    | runs due hQuiet hEvents hCalls hTime hCurrent =>
      rw [hCalls, List.mem_singleton] at hMem
      rw [hCalls, List.tail_cons] at hLeft
      rw [hMem, DebounceClock.resume, if_pos rfl]
      refine .hasRun (hQuiet.append _) ?_ hLeft (Debouncer.isCurrent_complete_self _ _ _)
      rw [eventsOf_append, hEvents]
      simp [eventsOf, CallEvent.caller]
    | hasRun hQuiet hEvents hCalls hCurrent =>
      rw [hCalls] at hMem
      cases hMem
    | isDropped hLoud hEvents hCalls hCurrent =>
      rw [hCalls] at hMem
      cases hMem

/-! ### Runs -/

/-- Every call that has come is in one of the phases, and its name and its version are its own. -/
theorem DebounceRun.phase (hRun : DebounceRun acts clock log) :
    ∀ {before after : List (DebounceAct κ)} {key : κ} {name : String} {delay work : Nat},
      acts = before ++ .call key name delay work :: after →
      (∀ call ∈ clock.calls, call.name = name ↔ call.version = callCount before + 1) ∧
        CallPhase key name (callCount before + 1) delay work after clock log := by
  induction hRun with
  | start delay =>
    intro before after key name delay work hActs
    simp at hActs
  | @step acts clock next log events act hRun hNew hStep ih =>
    intro before after key name delay work hActs
    rcases List.eq_nil_or_concat after with rfl | ⟨after, last, rfl⟩
    · obtain ⟨rfl, hAct⟩ := List.append_inj' hActs rfl
      cases hAct
      have hOthers : ∀ other ∈ acts, other.called? ≠ some name := hNew name rfl
      have hCount := hRun.lastVersion
      refine ⟨fun call hCall => ?_, hCount ▸ .begin hStep (fun call hCall =>
        (hRun.exists_called call hCall).2) ?_⟩
      · rcases hStep.mem_calls hCall with ⟨old, hOld, hName, hVersion⟩ | ⟨hCalled, hVersion⟩
        · obtain ⟨⟨other, hOther, hOtherName⟩, hLe⟩ := hRun.exists_called old hOld
          refine iff_of_false ?_ (by omega)
          intro hSame
          exact hOthers other hOther (by rw [hOtherName, hName, hSame])
        · exact iff_of_true (Option.some.inj hCalled).symm (by omega)
      · rw [eventsOf, List.filter_eq_nil_iff]
        intro event hEvent hSame
        obtain ⟨other, hOther, hOtherName⟩ := hRun.exists_called_of_event event hEvent
        exact hOthers other hOther (by rw [hOtherName, beq_iff_eq.mp hSame])
    · rw [List.concat_eq_append, ← List.cons_append, ← List.append_assoc] at hActs
      obtain ⟨hBefore, hAct⟩ := List.append_inj' hActs rfl
      cases hAct
      obtain ⟨hNames, hPhase⟩ := ih hBefore
      have hFresh : act.called? ≠ some name := by
        intro hCalled
        refine hNew name hCalled (.call key name delay work) ?_ rfl
        rw [hBefore]
        exact List.mem_append_right _ List.mem_cons_self
      have hOld : callCount before + 1 ≤ clock.debouncer.lastVersion := by
        rw [hRun.lastVersion, hBefore]
        exact callCount_lt _ _ _ _ _ _
      refine ⟨fun call hCall => ?_, ?_⟩
      · rcases hStep.mem_calls hCall with ⟨old, hOld, hName, hVersion⟩ | ⟨hCalled, hVersion⟩
        · rw [← hName, ← hVersion]
          exact hNames old hOld
        · refine iff_of_false ?_ (by omega)
          rintro rfl
          exact hFresh hCalled
      · rw [List.concat_eq_append]
        cases act with
        | resume other =>
          by_cases hOther : other = name
          · subst hOther
            exact hPhase.goOn hStep (fun call hCall => (hNames call hCall).mp) hRun.now_le_due
          · exact hPhase.pass hStep (fun hSame => hOther (Option.some.inj hSame)) hOld
              fun call hCall => (hNames call hCall).mpr
        | call other called wait time =>
          exact hPhase.pass hStep hFresh hOld fun call hCall => (hNames call hCall).mpr
        | cancel other =>
          exact hPhase.pass hStep (Option.some_ne_none name).symm hOld
            fun call hCall => (hNames call hCall).mpr
        | wait time =>
          exact hPhase.pass hStep (Option.some_ne_none name).symm hOld
            fun call hCall => (hNames call hCall).mpr

/-- The keys in the table are the pending ones. -/
theorem DebounceRun.mem_keys_iff (hRun : DebounceRun acts clock log) (key : κ) :
    key ∈ clock.debouncer.versions.map Prod.fst ↔ IsPending acts log key := by
  rw [Debouncer.mem_keys_iff]
  constructor
  · rintro ⟨version, hVersion⟩
    obtain ⟨before, name, delay, work, after, hActs, rfl⟩ :=
      hRun.exists_call_of_version key version hVersion
    have hCurrent := (hRun.phase hActs).2.isCurrent_iff.mp (Debouncer.isCurrent_iff.mpr hVersion)
    exact ⟨before, name, delay, work, after, hActs, hCurrent⟩
  · rintro ⟨before, name, delay, work, after, hActs, hPending⟩
    have hCurrent := (hRun.phase hActs).2.isCurrent_iff.mpr hPending
    exact ⟨callCount before + 1, Debouncer.isCurrent_iff.mp hCurrent⟩

/-- **Which calls run.** Whatever comes and in whatever order, a call with a delay runs if and only
if nothing has happened to its key when the delay is over, one without a delay runs at once, and
each returns whether it has run. The table counts the keys whose last call has not returned. -/
theorem debounced_calls_turn_out (hRun : DebounceRun acts clock log) :
    (∀ before key name delay work after, acts = before ++ .call key name delay work :: after →
      TurnsOut key name delay work after log) ∧
    (∃ keys : List κ, keys.Nodup ∧ keys.length = clock.debouncer.pending ∧
      ∀ key, key ∈ keys ↔ IsPending acts log key) ∧
    ((∀ act ∈ acts, ∀ name ∈ act.called?, ∃ ran, .ended name ran ∈ log) →
      clock.debouncer.pending = 0) := by
  refine ⟨?_, ⟨clock.debouncer.versions.map Prod.fst, hRun.hasDistinctKeys, ?_, ?_⟩, ?_⟩
  · intro before key name delay work after hActs
    exact (hRun.phase hActs).2.turnsOut hRun.now_le_due
  · rw [List.length_map, Debouncer.pending]
  · exact hRun.mem_keys_iff
  · intro hReturned
    have hNone : clock.debouncer.versions.map Prod.fst = [] := by
      rw [List.eq_nil_iff_forall_not_mem]
      intro key hKey
      obtain ⟨before, name, delay, work, after, rfl, -, hWaits⟩ := (hRun.mem_keys_iff key).mp hKey
      obtain ⟨ran, hEnded⟩ := hReturned (.call key name delay work)
        (List.mem_append_right _ List.mem_cons_self) name rfl
      exact hWaits ran hEnded
    rw [Debouncer.pending, ← List.length_map, hNone, List.length_nil]



/-- A call of a key takes the place of the one that waits for it, even after a cancel between the
two; the second call runs when its own delay is over. -/
theorem debounced_calls_turn_out_cancelled :
    DebounceRun (κ := String)
      [.call "a.ex" "stale" 20 0, .wait 5, .cancel "a.ex", .call "a.ex" "fresh" 20 0, .wait 15,
        .resume "stale", .wait 5, .resume "fresh"]
      { debouncer := { delay := 20, lastVersion := 2 }, now := 25 }
      [.ended "stale" false, .started "fresh", .ended "fresh" true] ∧
    TurnsOut "a.ex" "fresh" 20 0 [.wait 15, .resume "stale", .wait 5, .resume "fresh"]
      [.ended "stale" false, .started "fresh", .ended "fresh" true] := by
  have hRun := DebounceRun.start (κ := String) 0
    |>.step (by decide) (.call _ "a.ex" "stale" 20 0)
    |>.step (by decide) (.wait _ 5 (by decide))
    |>.step (by decide) (.cancel _ "a.ex")
    |>.step (by decide) (.call _ "a.ex" "fresh" 20 0)
    |>.step (by decide) (.wait _ 15 (by decide))
    |>.step (by decide) (.resume _ ⟨"stale", "a.ex", 1, 0, 20, false⟩ (by decide) (by decide))
    |>.step (by decide) (.wait _ 5 (by decide))
    |>.step (by decide) (.resume _ ⟨"fresh", "a.ex", 2, 0, 25, false⟩ (by decide) (by decide))
  exact ⟨hRun, (debounced_calls_turn_out hRun).1
    [.call "a.ex" "stale" 20 0, .wait 5, .cancel "a.ex"] "a.ex" "fresh" 20 0
    [.wait 15, .resume "stale", .wait 5, .resume "fresh"] rfl⟩

end PhoenixLens
