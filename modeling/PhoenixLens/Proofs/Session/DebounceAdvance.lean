import PhoenixLens.Proofs.Session.DebouncedCalls

/-!
# Time that goes by

Moving the clock on is one of the runs: time goes by up to the next call that is due, that call goes
on, and so forth. Every call goes on twice at most, which is why the bound in the clock suffices.
-/

namespace PhoenixLens

open DebounceAct DebounceClock

variable {κ : Type}

/-! ### The call that is due first -/

/-- How often the call goes on before it returns, at most. -/
def TimedCall.left (call : TimedCall κ) : Nat := if call.running then 1 else 2

def TimedCall.leftOf (calls : List (TimedCall κ)) : Nat := (calls.map left).sum

open TimedCall

theorem TimedCall.leftOf_cons (call : TimedCall κ) (calls : List (TimedCall κ)) :
    leftOf (call :: calls) = call.left + leftOf calls := rfl

theorem TimedCall.leftOf_eq_zero {calls : List (TimedCall κ)} (h : leftOf calls = 0) :
    calls = [] := by
  cases calls with
  | nil => rfl
  | cons call calls =>
    rw [leftOf_cons, left] at h
    split at h <;> omega

theorem TimedCall.leftOf_le (calls : List (TimedCall κ)) : leftOf calls ≤ 2 * calls.length := by
  induction calls with
  | nil => exact Nat.zero_le _
  | cons call calls ih =>
    rw [leftOf_cons, left, List.length_cons]
    split <;> omega

namespace DebounceClock

theorem foldl_next (calls : List (TimedCall κ)) (best : TimedCall κ) :
    ∃ call, calls.foldl (fun best call =>
        match best with
        | some b => if call.due < b.due then some call else some b
        | none => some call) (some best) = some call ∧
      (call = best ∨ call ∈ calls) ∧ call.due ≤ best.due ∧ ∀ other ∈ calls, call.due ≤ other.due := by
  induction calls generalizing best with
  | nil => exact ⟨best, rfl, .inl rfl, Nat.le_refl _, nofun⟩
  | cons next calls ih =>
    rw [List.foldl_cons]
    by_cases hNext : next.due < best.due
    · obtain ⟨call, hCall, hMem, hBest, hLeast⟩ := ih next
      refine ⟨call, by simpa only [if_pos hNext] using hCall, ?_, by omega, ?_⟩
      · exact .inr (List.mem_cons.mpr hMem)
      · exact List.forall_mem_cons.mpr ⟨hBest, hLeast⟩
    · obtain ⟨call, hCall, hMem, hBest, hLeast⟩ := ih best
      refine ⟨call, by simpa only [if_neg hNext] using hCall, ?_, hBest, ?_⟩
      · exact hMem.imp_right (List.mem_cons_of_mem next)
      · exact List.forall_mem_cons.mpr ⟨by omega, hLeast⟩

theorem next?_cases (calls : List (TimedCall κ)) :
    (next? calls = none ∧ calls = []) ∨
      ∃ call ∈ calls, next? calls = some call ∧ ∀ other ∈ calls, call.due ≤ other.due := by
  cases calls with
  | nil => exact .inl ⟨rfl, rfl⟩
  | cons first calls =>
    obtain ⟨call, hCall, hMem, hFirst, hLeast⟩ := foldl_next calls first
    exact .inr ⟨call, List.mem_cons.mpr hMem, hCall, List.forall_mem_cons.mpr ⟨hFirst, hLeast⟩⟩

theorem leftOf_dropVersion {calls : List (TimedCall κ)} {call : TimedCall κ}
    (h : callsOf call.version calls = [call]) :
    leftOf (dropVersion call.version calls) + call.left = leftOf calls := by
  induction calls with
  | nil => cases h
  | cons other calls ih =>
    rw [callsOf_cons] at h
    rw [dropVersion]
    split at h
    · rename_i hVersion
      rw [if_pos (beq_iff_eq.mpr hVersion), (List.cons.inj h).1]
      exact Nat.add_comm _ _
    · rename_i hVersion
      have hLeft := ih h
      rw [if_neg (mt beq_iff_eq.mp hVersion), leftOf_cons, leftOf_cons]
      omega

variable [BEq κ]

theorem leftOf_start (clock : DebounceClock κ) (call : TimedCall κ) :
    leftOf (clock.start call).1.calls ≤ leftOf clock.calls + 1 := by
  rw [start]
  split
  · exact Nat.le_succ _
  · simp [leftOf, left]

theorem leftOf_resume {clock : DebounceClock κ} {call : TimedCall κ} :
    leftOf (clock.resume call).1.calls < leftOf clock.calls + call.left := by
  rw [resume, left]
  split
  · exact Nat.lt_succ_self _
  · split
    · exact Nat.lt_succ_of_le (leftOf_start clock call)
    · exact Nat.lt_add_of_pos_right Nat.two_pos

theorem leftOf_resume_dropVersion (clock : DebounceClock κ) {call : TimedCall κ}
    (h : callsOf call.version clock.calls = [call]) :
    leftOf ({ clock with calls := dropVersion call.version clock.calls }.resume call).1.calls <
      leftOf clock.calls := by
  rw [← leftOf_dropVersion h]
  exact leftOf_resume

end DebounceClock

/-! ### Runs -/

/-- Time goes by, or a call that has come goes on. -/
def IsPassive (act : DebounceAct κ) : Prop := act.called? = none ∧ ∀ key, ¬act.concerns key

theorem isPassive_wait (duration : Nat) : IsPassive (κ := κ) (.wait duration) :=
  ⟨rfl, fun _ => id⟩

theorem isPassive_resume (name : String) : IsPassive (κ := κ) (.resume name) :=
  ⟨rfl, fun _ => id⟩

variable [BEq κ] [LawfulBEq κ] {clock : DebounceClock κ} {acts : List (DebounceAct κ)}
  {log : List CallEvent}

omit [LawfulBEq κ] in
theorem CallPhase.callsOf_eq {key : κ} {name : String} {version delay work : Nat}
    {after : List (DebounceAct κ)} (h : CallPhase key name version delay work after clock log) :
    callsOf version clock.calls = [] ∨ ∃ call, callsOf version clock.calls = [call] := by
  cases h with
  | waits due hDelay hAfter hEvents hCalls hTime hCurrent => exact .inr ⟨_, hCalls⟩
  | runs due hQuiet hEvents hCalls hTime hCurrent => exact .inr ⟨_, hCalls⟩
  | hasRun hQuiet hEvents hCalls hCurrent => exact .inl hCalls
  | isDropped hLoud hEvents hCalls hCurrent => exact .inl hCalls

theorem DebounceRun.callsOf_eq_singleton (hRun : DebounceRun acts clock log) {call : TimedCall κ}
    (hCall : call ∈ clock.calls) : callsOf call.version clock.calls = [call] := by
  obtain ⟨⟨act, hAct, hName⟩, -⟩ := hRun.exists_called call hCall
  obtain ⟨before, after, rfl⟩ := List.append_of_mem hAct
  cases act with
  | call key name delay work =>
    obtain ⟨hNames, hPhase⟩ := hRun.phase rfl
    have hVersion := (hNames call hCall).mp (Option.some.inj hName).symm
    have hOwn : call ∈ callsOf call.version clock.calls :=
      List.mem_filter.mpr ⟨hCall, beq_self_eq_true _⟩
    rw [hVersion] at hOwn ⊢
    rcases hPhase.callsOf_eq with hNone | ⟨other, hOne⟩
    · rw [hNone] at hOwn
      cases hOwn
    · rw [hOne, List.mem_singleton] at hOwn
      rw [hOne, hOwn]
  | cancel _ | wait _ | resume _ => cases hName

/-- A run goes on with `events` to the clock at the given time, and no call comes in between. -/
def DebounceRun.GoesOnTo (acts : List (DebounceAct κ)) (clock : DebounceClock κ)
    (log : List CallEvent) (time : Nat) (next : DebounceClock κ) (events : List CallEvent) : Prop :=
  ∃ more, clock.now + elapsed more = time ∧ (∀ act ∈ more, IsPassive act) ∧
    DebounceRun (acts ++ more) next (log ++ events)

omit [LawfulBEq κ] in
theorem DebounceRun.waitUntil (hRun : DebounceRun acts clock log) {time : Nat}
    (hTime : clock.now ≤ time) (hDue : ∀ call ∈ clock.calls, time ≤ call.due) :
    DebounceRun (acts ++ [.wait (time - clock.now)]) { clock with now := time } log := by
  have hNow : clock.now + (time - clock.now) = time := by omega
  have hStep := DebounceStep.wait clock (time - clock.now) (by rwa [hNow])
  rw [hNow] at hStep
  exact List.append_nil log ▸ hRun.step (by rintro _ ⟨⟩) hStep

omit [LawfulBEq κ] in
theorem DebounceRun.goesOnTo_wait (hRun : DebounceRun acts clock log) {time : Nat}
    (hTime : clock.now ≤ time) (hDue : ∀ call ∈ clock.calls, time ≤ call.due) :
    GoesOnTo acts clock log time { clock with now := time } [] := by
  refine ⟨[.wait (time - clock.now)], ?_, ?_, ?_⟩
  · simp [elapsed, duration, hTime]
  · exact List.forall_mem_singleton.mpr (isPassive_wait _)
  · exact (List.append_nil log).symm ▸ hRun.waitUntil hTime hDue

theorem DebounceRun.advanceTo {time n : Nat} (hRun : DebounceRun acts clock log)
    (hTime : clock.now ≤ time) (hLeft : leftOf clock.calls ≤ n) :
    GoesOnTo acts clock log time (clock.advanceTo time n).1 (clock.advanceTo time n).2 := by
  induction n generalizing acts clock log with
  | zero =>
    rw [DebounceClock.advanceTo]
    refine hRun.goesOnTo_wait hTime ?_
    rw [leftOf_eq_zero (Nat.le_zero.mp hLeft)]
    exact nofun
  | succ n ih =>
    rw [DebounceClock.advanceTo]
    rcases next?_cases clock.calls with ⟨hNext, hNone⟩ | ⟨call, hCall, hNext, hLeast⟩
    · rw [hNext]
      exact hRun.goesOnTo_wait hTime (hNone ▸ nofun)
    · rw [hNext]
      by_cases hLater : time < call.due
      · simp only [if_pos hLater]
        refine hRun.goesOnTo_wait hTime fun other hOther => ?_
        have := hLeast other hOther
        omega
      · simp only [if_neg hLater]
        have hBefore := hRun.now_le_due call hCall
        have hResumed := (hRun.waitUntil hBefore hLeast).step (by rintro _ ⟨⟩)
          (.resume { clock with now := call.due } call hCall (Nat.le_refl _))
        have hFewer := leftOf_resume_dropVersion { clock with now := call.due }
          (hRun.callsOf_eq_singleton hCall)
        obtain ⟨more, hElapsed, hPassive, hMore⟩ := ih hResumed
          (by rw [now_resume]; exact Nat.le_of_not_lt hLater)
          (Nat.le_of_lt_succ (Nat.lt_of_lt_of_le hFewer hLeft))
        rw [now_resume] at hElapsed
        refine ⟨.wait (call.due - clock.now) :: .resume call.name :: more, ?_, ?_, ?_⟩
        · rw [← hElapsed]
          simp [elapsed, duration]
          omega
        · exact List.forall_mem_cons.mpr ⟨isPassive_wait _,
            List.forall_mem_cons.mpr ⟨isPassive_resume _, hPassive⟩⟩
        · simpa using hMore

/-- Moving the clock on is a run in which only time goes by and calls go on. -/
theorem DebounceRun.advance (hRun : DebounceRun acts clock log) (duration : Nat) :
    ∃ more, elapsed more = duration ∧ (∀ act ∈ more, IsPassive act) ∧
      DebounceRun (acts ++ more) (clock.advance duration).1
        (log ++ (clock.advance duration).2) := by
  obtain ⟨more, hElapsed, hPassive, hMore⟩ :=
    hRun.advanceTo (Nat.le_add_right clock.now duration) (leftOf_le clock.calls)
  exact ⟨more, by omega, hPassive, hMore⟩

end PhoenixLens
