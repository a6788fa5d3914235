import Mathlib.Data.List.Induction
import Mathlib.Data.List.Nodup
import Mathlib.Data.List.Perm.Basic
import PhoenixLens.Exact.Limiter

/-!
# Who runs under a limiter, and when

What is done to a pool of tasks is written down as an onlooker sees it: who was spawned, who was
aborted and when. One invariant ties the permits, the queue and the counters to that account. Each
thing that happens inside the limiter keeps it, and so does everything that is done from outside.
-/

namespace PhoenixLens

namespace Limiter

variable (limiter : Limiter) (task : String)

/-- The calls that have not gone on to their tasks, in the order in which they will. -/
def line : List String := limiter.admitted ++ limiter.waiting

/-- The permits that have been given out and not given up. -/
def taken : Nat := limiter.admitted.length + limiter.running.length

/-! ### What one change of the limiter does -/

@[simp]
theorem arrive_running : (limiter.arrive task).running = limiter.running := by
  unfold arrive
  split <;> rfl

@[simp]
theorem arrive_queued : (limiter.arrive task).queued = limiter.queued + 1 := by
  unfold arrive
  split <;> rfl

theorem arrive_permits :
    (limiter.arrive task).permits + (limiter.arrive task).taken =
      limiter.permits + limiter.taken := by
  unfold arrive
  split
  · rfl
  · next permits hPermits =>
    simp only [hPermits, taken, List.length_append, List.length_singleton]
    omega

theorem arrive_idle (idle : 0 < limiter.permits → limiter.waiting = []) :
    0 < (limiter.arrive task).permits → (limiter.arrive task).waiting = [] := by
  unfold arrive
  split
  · next hPermits =>
    intro hFree
    rw [hPermits] at hFree
    exact absurd hFree (Nat.lt_irrefl 0)
  · next hPermits => exact fun _ => idle (hPermits ▸ Nat.succ_pos _)

/-- A call that comes goes to the end of the line: where it is given a permit at once, nobody waits
for one. -/
theorem arrive_line (idle : 0 < limiter.permits → limiter.waiting = []) :
    (limiter.arrive task).line = limiter.line ++ [task] := by
  unfold arrive
  split
  · rw [line, line, List.append_assoc]
  · next permits hPermits =>
    have hWaiting : limiter.waiting = [] := idle (hPermits ▸ Nat.succ_pos _)
    rw [line, line, hWaiting, List.append_nil, List.append_nil]

@[simp]
theorem giveBack_running : limiter.giveBack.running = limiter.running := by
  unfold giveBack
  split <;> rfl

@[simp]
theorem giveBack_queued : limiter.giveBack.queued = limiter.queued := by
  unfold giveBack
  split <;> rfl

theorem giveBack_permits :
    limiter.giveBack.permits + limiter.giveBack.taken = limiter.permits + limiter.taken + 1 := by
  unfold giveBack
  split
  · simp only [taken]
    omega
  · simp only [taken, List.length_append, List.length_singleton]
    omega

theorem giveBack_line : limiter.giveBack.line = limiter.line := by
  unfold giveBack
  split
  · rfl
  · next hWaiting => rw [line, line, hWaiting, List.append_assoc, List.singleton_append]

theorem leave_giveBack : (limiter.leave task).giveBack = limiter.release task := by
  simp only [release, giveBack, leave]
  split <;> rfl

theorem giveBack_idle (idle : 0 < limiter.permits → limiter.waiting = []) :
    0 < limiter.giveBack.permits → limiter.giveBack.waiting = [] := by
  unfold giveBack
  split
  · next hWaiting => exact fun _ => hWaiting
  · next hWaiting =>
    intro hFree
    rw [idle hFree] at hWaiting
    cases hWaiting

/-! ### Cancelling a call that has not gone on -/

variable {limiter task}

theorem cancel_cases (notRunning : task ∉ limiter.running) :
    (task ∈ limiter.admitted ∧
      limiter.cancel task = { limiter with admitted := limiter.admitted.erase task }.giveBack) ∨
    (task ∉ limiter.admitted ∧
      limiter.cancel task = { limiter with waiting := limiter.waiting.erase task }) := by
  rw [cancel, if_neg (by simpa using notRunning)]
  by_cases hAdmitted : task ∈ limiter.admitted
  · exact .inl ⟨hAdmitted, if_pos (by simpa using hAdmitted)⟩
  · exact .inr ⟨hAdmitted, if_neg (by simpa using hAdmitted)⟩

theorem cancel_line (notRunning : task ∉ limiter.running) :
    (limiter.cancel task).line = limiter.line.erase task := by
  obtain ⟨hAdmitted, hCancel⟩ | ⟨hAdmitted, hCancel⟩ := cancel_cases notRunning
  · rw [hCancel, giveBack_line, line, line, List.erase_append_left _ hAdmitted]
  · rw [hCancel, line, line, List.erase_append_right _ hAdmitted]

theorem cancel_running (notRunning : task ∉ limiter.running) :
    (limiter.cancel task).running = limiter.running := by
  obtain ⟨_, hCancel⟩ | ⟨_, hCancel⟩ := cancel_cases notRunning
  · rw [hCancel, giveBack_running]
  · rw [hCancel]

theorem cancel_queued (notRunning : task ∉ limiter.running) :
    (limiter.cancel task).queued = limiter.queued := by
  obtain ⟨_, hCancel⟩ | ⟨_, hCancel⟩ := cancel_cases notRunning
  · rw [hCancel, giveBack_queued]
  · rw [hCancel]

theorem cancel_permits (notRunning : task ∉ limiter.running) :
    (limiter.cancel task).permits + (limiter.cancel task).taken =
      limiter.permits + limiter.taken := by
  obtain ⟨hAdmitted, hCancel⟩ | ⟨_, hCancel⟩ := cancel_cases notRunning
  · have hLength := List.length_erase_of_mem hAdmitted
    have hPositive := List.length_pos_of_mem hAdmitted
    rw [hCancel, giveBack_permits]
    simp only [taken]
    omega
  · rw [hCancel]
    rfl

theorem cancel_idle (notRunning : task ∉ limiter.running)
    (idle : 0 < limiter.permits → limiter.waiting = []) :
    0 < (limiter.cancel task).permits → (limiter.cancel task).waiting = [] := by
  obtain ⟨_, hCancel⟩ | ⟨_, hCancel⟩ := cancel_cases notRunning
  · rw [hCancel]
    exact giveBack_idle _ idle
  · rw [hCancel]
    intro hFree
    dsimp only
    rw [idle hFree, List.erase_nil]

theorem cancel_of_notMem (notRunning : task ∉ limiter.running) (notInLine : task ∉ limiter.line) :
    limiter.cancel task = limiter := by
  obtain ⟨hAdmitted, hWaiting⟩ := List.mem_append.not.trans not_or |>.mp notInLine
  obtain ⟨hElse, _⟩ | ⟨_, hCancel⟩ := cancel_cases notRunning
  · exact absurd hElse hAdmitted
  · rw [hCancel, List.erase_of_not_mem hWaiting]

end Limiter

namespace TaskPool

/-! ### What runs next, and until when -/

theorem advance?_cases {pool next : TaskPool} (advanced : pool.advance? = some next) :
    (∃ task rest, pool.limiter.admitted = task :: rest ∧ next = pool.start task) ∨
      ∃ task ∈ pool.limiter.running, next = pool.conclude task := by
  unfold advance? at advanced
  split at advanced
  · next task rest hAdmitted => exact .inl ⟨task, rest, hAdmitted, (Option.some.inj advanced).symm⟩
  · obtain ⟨task, hFound, rfl⟩ := Option.map_eq_some_iff.mp advanced
    exact .inr ⟨task, List.mem_of_find?_eq_some hFound, rfl⟩

theorem admitted_of_advance?_eq_none {pool : TaskPool} (settled : pool.advance? = none) :
    pool.limiter.admitted = [] := by
  unfold advance? at settled
  split at settled
  · cases settled
  · assumption

theorem load_lt_of_advance? {pool next : TaskPool} (advanced : pool.advance? = some next) :
    next.load < pool.load := by
  obtain ⟨task, rest, hAdmitted, rfl⟩ | ⟨task, hRunning, rfl⟩ := advance?_cases advanced
  · simp only [load, start, Limiter.enter, hAdmitted, List.erase_cons_head, List.length_append,
      List.length_cons, List.length_nil]
    omega
  · have hLength := List.length_erase_of_mem hRunning
    have hPositive := List.length_pos_of_mem hRunning
    simp only [load, conclude, Limiter.release, Limiter.leave, Limiter.giveBack]
    split
    · simp only [hLength]
      omega
    · next hWaiting =>
      simp only [hLength, hWaiting, List.length_append, List.length_cons, List.length_nil]
      omega

theorem advance?_settle {pool : TaskPool} {n : Nat} (enough : pool.load ≤ n) :
    (pool.settle n).advance? = none := by
  induction n generalizing pool with
  | zero =>
    cases hNext : pool.advance? with
    | none => exact hNext
    | some next =>
      have hLoad := load_lt_of_advance? hNext
      omega
  | succ n ih =>
    rw [settle]
    split
    · next next hNext =>
      have hLoad := load_lt_of_advance? hNext
      exact ih (by omega)
    · assumption

/-- When everything that can run has run, nothing can. -/
theorem advance?_run (pool : TaskPool) : pool.run.advance? = none :=
  advance?_settle (Nat.le_refl _)

end TaskPool

/-! ### The account of an onlooker -/

/-- What is done to a pool from outside. -/
inductive PoolAct where
  | spawn (task : String)
  | finish (task : String)
  | abort (task : String)
deriving DecidableEq, Repr

def PoolAct.spawned? : PoolAct → Option String
  | .spawn task => some task
  | _ => none

/-- A pool, and what has been seen of it from outside. -/
structure PoolHistory where
  pool : TaskPool
  spawned : List String := []
  /-- The tasks that were aborted before they started. -/
  skipped : List String := []
  /-- The tasks that were aborted while they ran. -/
  stopped : List String := []

namespace PoolHistory

/-- The tasks that have started and have neither finished nor been aborted since. -/
def active (history : PoolHistory) : List String :=
  history.pool.started.filter (· ∉ history.pool.finished ++ history.stopped)

/-- The tasks that were spawned and have neither started nor been aborted since. -/
def pending (history : PoolHistory) : List String :=
  history.spawned.filter (· ∉ history.pool.started ++ history.skipped)

/-- One act, and everything that can run after it. Only a task that runs or waits can be aborted. -/
def follow (history : PoolHistory) : PoolAct → PoolHistory
  | .spawn task =>
    { history with pool := history.pool.spawn task, spawned := history.spawned ++ [task] }
  | .finish task => { history with pool := history.pool.finish task }
  | .abort task =>
    { history with
      pool := history.pool.abort task
      skipped := if task ∈ history.pending then history.skipped ++ [task] else history.skipped
      stopped := if task ∈ history.active then history.stopped ++ [task] else history.stopped }

def start (limit : Nat) : PoolHistory := { pool := { limiter := .ofLimit limit } }

/-- What has come of the acts, one after the other, under a limiter for so many tasks. -/
def after (limit : Nat) (acts : List PoolAct) : PoolHistory := acts.foldl follow (start limit)

/-- The limiter agrees with what has been seen, whether or not something can still run. -/
structure Orderly (limit : Nat) (history : PoolHistory) : Prop where
  nodup : history.spawned.Nodup
  permits : history.pool.limiter.permits + history.pool.limiter.taken = limit
  idle : 0 < history.pool.limiter.permits → history.pool.limiter.waiting = []
  order : history.pool.started ++ history.pool.limiter.line =
    history.spawned.filter (· ∉ history.skipped)
  running : history.pool.limiter.running = history.active
  queued : history.pool.limiter.queued =
    history.pool.limiter.line.length + history.skipped.length
  ended : (history.pool.finished ++ history.stopped).Nodup
  started : ∀ task ∈ history.pool.finished ++ history.stopped, task ∈ history.pool.started
  skipped : ∀ task ∈ history.skipped, task ∈ history.spawned

theorem orderly_start (limit : Nat) : (start limit).Orderly (max limit 1) where
  nodup := List.nodup_nil
  permits := rfl
  idle _ := rfl
  order := rfl
  running := rfl
  queued := rfl
  ended := List.nodup_nil
  started _ hTask := hTask
  skipped _ hTask := hTask

/-! ### Every change keeps the account in order -/

theorem filter_notMem_concat (tasks gone : List String) (task : String) :
    tasks.filter (· ∉ gone ++ [task]) = (tasks.filter (· ∉ gone)).filter (· != task) := by
  rw [List.filter_filter]
  apply List.filter_congr
  intro other _
  rw [Bool.eq_iff_iff]
  simp [not_or, and_comm]

namespace Orderly

variable {limit : Nat} {history : PoolHistory} {task : String}

theorem started_or_line (orderly : history.Orderly limit) :
    (history.pool.started ++ history.pool.limiter.line).Nodup :=
  orderly.order ▸ orderly.nodup.filter _

theorem nodup_started (orderly : history.Orderly limit) : history.pool.started.Nodup :=
  (List.nodup_append.mp orderly.started_or_line).1

theorem nodup_line (orderly : history.Orderly limit) : history.pool.limiter.line.Nodup :=
  (List.nodup_append.mp orderly.started_or_line).2.1

theorem notMem_line_of_started (orderly : history.Orderly limit)
    (hStarted : task ∈ history.pool.started) : task ∉ history.pool.limiter.line := by
  intro hLine
  exact (List.nodup_append.mp orderly.started_or_line).2.2 task hStarted task hLine rfl

theorem nodup_running (orderly : history.Orderly limit) : history.pool.limiter.running.Nodup :=
  orderly.running ▸ orderly.nodup_started.filter _

/-- Who has come and not yet gone on is seen from outside to be pending, and in the same order. -/
theorem pending_eq (orderly : history.Orderly limit) :
    history.pending = history.pool.limiter.line := by
  have hStarted : history.pool.started.filter (· ∉ history.pool.started) = [] :=
    List.filter_eq_nil_iff.mpr fun task hTask => by simp [hTask]
  have hLine : history.pool.limiter.line.filter (· ∉ history.pool.started) =
      history.pool.limiter.line :=
    List.filter_eq_self.mpr fun task hTask => by
      simpa using fun hStarted => orderly.notMem_line_of_started hStarted hTask
  calc history.pending
      = (history.spawned.filter (· ∉ history.skipped)).filter (· ∉ history.pool.started) := by
        rw [pending, List.filter_filter]
        exact List.filter_congr fun task _ => by simp [not_or]
    _ = history.pool.limiter.line := by
        rw [← orderly.order, List.filter_append, hStarted, hLine, List.nil_append]

theorem arrive (orderly : history.Orderly limit) (fresh : task ∉ history.spawned) :
    Orderly limit { history with
      pool := { history.pool with limiter := history.pool.limiter.arrive task }
      spawned := history.spawned ++ [task] } where
  nodup := by
    rw [List.nodup_append]
    refine ⟨orderly.nodup, List.nodup_singleton task, fun other hOther _ hTask hEqual => ?_⟩
    exact fresh (List.mem_singleton.mp hTask ▸ hEqual ▸ hOther)
  permits := (Limiter.arrive_permits _ task).trans orderly.permits
  idle := Limiter.arrive_idle _ task orderly.idle
  order := by
    have hSkipped : task ∉ history.skipped := fun hTask => fresh (orderly.skipped task hTask)
    rw [Limiter.arrive_line _ task orderly.idle, ← List.append_assoc, orderly.order,
      List.filter_append, List.filter_singleton]
    simp [hSkipped]
  running := (Limiter.arrive_running _ task).trans orderly.running
  queued := by
    have hQueued := orderly.queued
    dsimp only
    rw [Limiter.arrive_queued, Limiter.arrive_line _ task orderly.idle, List.length_append,
      List.length_singleton]
    omega
  ended := orderly.ended
  started := orderly.started
  skipped other hOther := List.mem_append_left _ (orderly.skipped other hOther)

theorem start (orderly : history.Orderly limit) {rest : List String}
    (hAdmitted : history.pool.limiter.admitted = task :: rest) :
    Orderly limit { history with pool := history.pool.start task } := by
  have hLine : history.pool.limiter.line = task :: (history.pool.limiter.enter task).line := by
    simp only [Limiter.line, Limiter.enter, hAdmitted, List.erase_cons_head, List.cons_append]
  have hStarted : task ∉ history.pool.started := fun hTask =>
    orderly.notMem_line_of_started hTask (hLine ▸ List.mem_cons_self)
  refine ⟨orderly.nodup, ?_, orderly.idle, ?_, ?_, ?_, orderly.ended, ?_, orderly.skipped⟩
  · have hPermits := orderly.permits
    simp only [Limiter.taken, hAdmitted, List.length_cons] at hPermits
    simp only [TaskPool.start, Limiter.enter, Limiter.taken, hAdmitted, List.erase_cons_head,
      List.length_append, List.length_singleton]
    omega
  · rw [← orderly.order, hLine]
    exact List.append_assoc _ _ _
  · have hEnded : task ∉ history.pool.finished ++ history.stopped := fun hTask =>
      hStarted (orderly.started task hTask)
    change history.pool.limiter.running ++ [task] =
      (history.pool.started ++ [task]).filter (· ∉ history.pool.finished ++ history.stopped)
    rw [orderly.running, List.filter_append, List.filter_singleton, active]
    simp [hEnded]
  · have hQueued := orderly.queued
    rw [hLine, List.length_cons] at hQueued
    change history.pool.limiter.queued - 1 =
      (history.pool.limiter.enter task).line.length + history.skipped.length
    omega
  · exact fun other hOther => List.mem_append_left _ (orderly.started other hOther)

/-- A running task gives up its permit and its slot, whether it has finished or is stopped. -/
theorem release (orderly : history.Orderly limit)
    (hRunning : task ∈ history.pool.limiter.running) (pool : TaskPool) {stopped : List String}
    (hLimiter : pool.limiter = history.pool.limiter.release task)
    (hStarted : pool.started = history.pool.started)
    (hEnded : (pool.finished ++ stopped).Perm
      (history.pool.finished ++ history.stopped ++ [task])) :
    Orderly limit { history with pool, stopped } := by
  have hTask : task ∈ history.pool.started ∧ task ∉ history.pool.finished ++ history.stopped := by
    rw [orderly.running, active] at hRunning
    simpa only [decide_eq_true_eq] using List.mem_filter.mp hRunning
  have hLine : pool.limiter.line = history.pool.limiter.line :=
    hLimiter ▸ Limiter.giveBack_line history.pool.limiter
  refine ⟨orderly.nodup, ?_, ?_, ?_, ?_, ?_, ?_, ?_, orderly.skipped⟩
  · have hPermits := orderly.permits
    have hBack := Limiter.giveBack_permits history.pool.limiter
    have hLength := List.length_erase_of_mem hRunning
    have hPositive := List.length_pos_of_mem hRunning
    simp only [Limiter.taken, Limiter.giveBack_running] at hPermits hBack
    simp only [hLimiter, Limiter.release, Limiter.leave, Limiter.taken, Limiter.giveBack_running]
    omega
  · dsimp only
    rw [hLimiter]
    exact Limiter.giveBack_idle _ orderly.idle
  · dsimp only
    rw [hStarted, hLine]
    exact orderly.order
  · calc pool.limiter.running
        = history.pool.limiter.running.erase task := by
          rw [hLimiter]
          exact congrArg (List.erase · task) (Limiter.giveBack_running _)
      _ = history.active.filter (· != task) := by
          rw [orderly.nodup_running.erase_eq_filter, orderly.running]
      _ = pool.started.filter (· ∉ pool.finished ++ stopped) := by
          rw [active, ← filter_notMem_concat, hStarted]
          exact List.filter_congr fun other _ => by simp only [hEnded.mem_iff]
  · have hQueued : pool.limiter.queued = history.pool.limiter.queued :=
      hLimiter ▸ Limiter.giveBack_queued history.pool.limiter
    dsimp only
    rw [hQueued, hLine]
    exact orderly.queued
  · rw [hEnded.nodup_iff, List.nodup_append]
    refine ⟨orderly.ended, List.nodup_singleton task, fun other hOther _ hMem hEqual => ?_⟩
    exact hTask.2 (List.mem_singleton.mp hMem ▸ hEqual ▸ hOther)
  · intro other hOther
    rw [hStarted]
    obtain hOther | hOther := List.mem_append.mp (hEnded.mem_iff.mp hOther)
    · exact orderly.started other hOther
    · exact List.mem_singleton.mp hOther ▸ hTask.1

theorem conclude (orderly : history.Orderly limit)
    (hRunning : task ∈ history.pool.limiter.running) :
    Orderly limit { history with pool := history.pool.conclude task } := by
  refine orderly.release hRunning (history.pool.conclude task) rfl rfl ?_
  rw [TaskPool.conclude, List.append_assoc, List.append_assoc]
  exact List.perm_append_comm.append_left _

/-- A call that has not gone on leaves the line, and hands on its permit if it has one. -/
theorem skip (orderly : history.Orderly limit) (hLine : task ∈ history.pool.limiter.line)
    (pool : TaskPool) (hLimiter : pool.limiter = history.pool.limiter.cancel task)
    (hStarted : pool.started = history.pool.started)
    (hFinished : pool.finished = history.pool.finished) :
    Orderly limit { history with pool, skipped := history.skipped ++ [task] } := by
  have hTask : task ∉ history.pool.started := fun hTask =>
    orderly.notMem_line_of_started hTask hLine
  have hRunning : task ∉ history.pool.limiter.running := by
    rw [orderly.running]
    exact fun hActive => hTask (List.mem_of_mem_filter hActive)
  have hSpawned : task ∈ history.spawned := by
    have hOrder := List.mem_append_right history.pool.started hLine
    rw [orderly.order] at hOrder
    exact List.mem_of_mem_filter hOrder
  refine ⟨orderly.nodup, ?_, ?_, ?_, ?_, ?_, ?_, ?_, ?_⟩
  · dsimp only
    rw [hLimiter, Limiter.cancel_permits hRunning]
    exact orderly.permits
  · dsimp only
    rw [hLimiter]
    exact Limiter.cancel_idle hRunning orderly.idle
  · dsimp only
    rw [hStarted, hLimiter, Limiter.cancel_line hRunning, filter_notMem_concat, ← orderly.order,
      List.filter_append, orderly.nodup_line.erase_eq_filter]
    congr 1
    symm
    exact List.filter_eq_self.mpr fun other hOther => bne_iff_ne.mpr fun hEqual =>
      hTask (hEqual ▸ hOther)
  · rw [active, hStarted, hFinished, hLimiter, Limiter.cancel_running hRunning]
    exact orderly.running
  · have hQueued := orderly.queued
    have hLength := List.length_erase_of_mem hLine
    have hPositive := List.length_pos_of_mem hLine
    dsimp only
    rw [hLimiter, Limiter.cancel_queued hRunning, Limiter.cancel_line hRunning,
      List.length_append, List.length_singleton]
    omega
  · dsimp only
    rw [hFinished]
    exact orderly.ended
  · dsimp only
    rw [hFinished, hStarted]
    exact orderly.started
  · intro other hOther
    obtain hOther | hOther := List.mem_append.mp hOther
    · exact orderly.skipped other hOther
    · exact List.mem_singleton.mp hOther ▸ hSpawned

/-- What has been told to finish does not matter to the account. -/
theorem congr (orderly : history.Orderly limit) (pool : TaskPool)
    (hLimiter : pool.limiter = history.pool.limiter)
    (hStarted : pool.started = history.pool.started)
    (hFinished : pool.finished = history.pool.finished) :
    Orderly limit { history with pool } := by
  obtain ⟨limiter, told, started, finished⟩ := pool
  subst hLimiter hStarted hFinished
  exact ⟨orderly.nodup, orderly.permits, orderly.idle, orderly.order, orderly.running,
    orderly.queued, orderly.ended, orderly.started, orderly.skipped⟩

theorem settle (orderly : history.Orderly limit) (n : Nat) :
    Orderly limit { history with pool := history.pool.settle n } := by
  induction n generalizing history with
  | zero => exact orderly
  | succ n ih =>
    rw [TaskPool.settle]
    split
    · next next hNext =>
      obtain ⟨task, rest, hAdmitted, rfl⟩ | ⟨task, hRunning, rfl⟩ :=
        TaskPool.advance?_cases hNext
      · exact ih (orderly.start hAdmitted)
      · exact ih (orderly.conclude hRunning)
    · exact orderly

theorem abort (orderly : history.Orderly limit) (task : String) :
    Orderly limit (history.follow (.abort task)) := by
  let cancelled : TaskPool := { history.pool with
    told := history.pool.told.erase task, limiter := history.pool.limiter.cancel task }
  by_cases hRunning : task ∈ history.pool.limiter.running
  · have hActive : task ∈ history.active := orderly.running ▸ hRunning
    have hPending : task ∉ history.pending := by
      rw [orderly.pending_eq]
      exact orderly.notMem_line_of_started (List.mem_of_mem_filter hActive)
    have hCancel : cancelled.limiter = history.pool.limiter.release task := by
      rw [← Limiter.leave_giveBack]
      exact if_pos (by simpa using hRunning)
    have hStopped := orderly.release hRunning cancelled hCancel rfl
      (.of_eq (List.append_assoc _ history.stopped [task]).symm)
    rw [follow, if_neg hPending, if_pos hActive]
    exact hStopped.settle _
  · have hActive : task ∉ history.active := orderly.running ▸ hRunning
    rw [follow, if_neg hActive]
    by_cases hLine : task ∈ history.pool.limiter.line
    · have hSkipped := orderly.skip hLine cancelled rfl rfl rfl
      rw [if_pos (orderly.pending_eq ▸ hLine)]
      exact hSkipped.settle _
    · have hSame := orderly.congr cancelled (Limiter.cancel_of_notMem hRunning hLine) rfl rfl
      rw [if_neg (orderly.pending_eq ▸ hLine)]
      exact hSame.settle _

theorem spawn (orderly : history.Orderly limit) (fresh : task ∉ history.spawned) :
    Orderly limit (history.follow (.spawn task)) :=
  (orderly.arrive fresh).settle _

theorem finish (orderly : history.Orderly limit) (task : String) :
    Orderly limit (history.follow (.finish task)) := by
  rw [follow, TaskPool.finish]
  split
  · have hTold := orderly.congr { history.pool with told := task :: history.pool.told } rfl rfl rfl
    exact hTold.settle _
  · exact orderly

end Orderly

theorem follow_spawned (history : PoolHistory) (act : PoolAct) :
    (history.follow act).spawned = history.spawned ++ act.spawned?.toList := by
  cases act with
  | spawn task => rfl
  | finish task => exact (List.append_nil _).symm
  | abort task => exact (List.append_nil _).symm

theorem follow_settled {history : PoolHistory} (settled : history.pool.advance? = none)
    (act : PoolAct) : (history.follow act).pool.advance? = none := by
  cases act with
  | spawn task => exact TaskPool.advance?_run _
  | finish task =>
    rw [follow, TaskPool.finish]
    split
    · exact TaskPool.advance?_run _
    · exact settled
  | abort task => exact TaskPool.advance?_run _

theorem after_concat (limit : Nat) (acts : List PoolAct) (act : PoolAct) :
    after limit (acts ++ [act]) = (after limit acts).follow act :=
  List.foldl_concat ..

theorem after_spawned (limit : Nat) (acts : List PoolAct) :
    (after limit acts).spawned = acts.filterMap PoolAct.spawned? := by
  induction acts using List.reverseRecOn with
  | nil => rfl
  | append_singleton acts act ih =>
    rw [after_concat, follow_spawned, ih, List.filterMap_append]
    cases act <;> rfl

theorem after_settled (limit : Nat) (acts : List PoolAct) :
    (after limit acts).pool.advance? = none := by
  induction acts using List.reverseRecOn with
  | nil => rfl
  | append_singleton acts act ih =>
    rw [after_concat]
    exact follow_settled ih act

theorem orderly_after (limit : Nat) {acts : List PoolAct}
    (fresh : (acts.filterMap PoolAct.spawned?).Nodup) :
    (after limit acts).Orderly (max limit 1) := by
  induction acts using List.reverseRecOn with
  | nil => exact orderly_start limit
  | append_singleton acts act ih =>
    rw [List.filterMap_append, List.nodup_append] at fresh
    obtain ⟨hActs, _, hApart⟩ := fresh
    rw [after_concat]
    cases act with
    | spawn task =>
      refine (ih hActs).spawn fun hSpawned => ?_
      rw [after_spawned] at hSpawned
      exact hApart task hSpawned task (List.mem_singleton_self task) rfl
    | finish task => exact (ih hActs).finish task
    | abort task => exact (ih hActs).abort task

/-- Whatever is done to a pool, one act after the other: when everything that can run has run, as
many slots are taken as tasks run, which are never too many; nobody waits while a slot is free;
tasks have started in the order in which they were spawned, but for those aborted before; what has
started runs on, has finished or was aborted, and has given its permit up just if it does not run;
and who was aborted while waiting is counted as queued forever. -/
theorem runs_in_order_within_limit (limit : Nat) (acts : List PoolAct)
    (fresh : (acts.filterMap PoolAct.spawned?).Nodup) :
    let history := after limit acts
    let limiter := history.pool.limiter
    history.pool.advance? = none ∧
      limiter.running = history.active ∧
      limiter.running.length ≤ max limit 1 ∧
      (history.pending ≠ [] → limiter.running.length = max limit 1) ∧
      history.pool.started ++ history.pending =
        (acts.filterMap PoolAct.spawned?).filter (· ∉ history.skipped) ∧
      (∀ task ∈ history.pool.started, task ∉ history.stopped →
        task ∈ history.pool.finished ∨ task ∈ limiter.running) ∧
      history.pool.started.Nodup ∧
      (limiter.running ++ (history.pool.finished ++ history.stopped)).Perm history.pool.started ∧
      limiter.permits + limiter.running.length = max limit 1 ∧
      limiter.queued = history.pending.length + history.skipped.length := by
  intro history limiter
  have hSettled : history.pool.advance? = none := after_settled limit acts
  have hOrderly : history.Orderly (max limit 1) := orderly_after limit fresh
  have hAdmitted : limiter.admitted = [] := TaskPool.admitted_of_advance?_eq_none hSettled
  have hPermits : limiter.permits + limiter.running.length = max limit 1 := by
    have hTaken := hOrderly.permits
    rw [Limiter.taken, hAdmitted, List.length_nil, Nat.zero_add] at hTaken
    exact hTaken
  have hPending : history.pending = limiter.waiting := by
    rw [hOrderly.pending_eq, Limiter.line, hAdmitted, List.nil_append]
  refine ⟨hSettled, hOrderly.running, by omega, ?_, ?_, ?_, hOrderly.nodup_started, ?_, hPermits,
    ?_⟩
  · intro hWaits
    have hFree : ¬0 < limiter.permits := fun hFree => hWaits (hPending.trans (hOrderly.idle hFree))
    omega
  · rw [hOrderly.pending_eq, ← after_spawned limit acts]
    exact hOrderly.order
  · intro task hStarted hStopped
    by_cases hFinished : task ∈ history.pool.finished
    · exact .inl hFinished
    · right
      rw [hOrderly.running, active, List.mem_filter]
      simp [hStarted, hFinished, hStopped]
  · have hDisjoint : (limiter.running ++ (history.pool.finished ++ history.stopped)).Nodup := by
      rw [List.nodup_append]
      refine ⟨hOrderly.nodup_running, hOrderly.ended, fun task hTask _ hEnded hEqual => ?_⟩
      rw [hOrderly.running, active, List.mem_filter] at hTask
      simp [hEqual, hEnded] at hTask
    rw [List.perm_ext_iff_of_nodup hDisjoint hOrderly.nodup_started]
    intro task
    rw [hOrderly.running, active, List.mem_append, List.mem_filter, decide_eq_true_eq]
    constructor
    · rintro (hActive | hEnded)
      · exact hActive.1
      · exact hOrderly.started task hEnded
    · intro hStarted
      by_cases hEnded : task ∈ history.pool.finished ++ history.stopped
      · exact .inr hEnded
      · exact .inl ⟨hStarted, hEnded⟩
  · rw [hOrderly.pending_eq]
    exact hOrderly.queued

theorem runs_in_order_when_waiting_aborted :
    let acts : List PoolAct :=
      [.spawn "a", .spawn "b", .spawn "c", .finish "c", .abort "b", .spawn "d", .abort "a"]
    (acts.filterMap PoolAct.spawned?).Nodup ∧
      (after 0 acts).pool.started ++ (after 0 acts).pending = ["a", "c", "d"] ∧
      (after 0 acts).pool.limiter.running = ["d"] ∧ (after 0 acts).pool.limiter.queued = 1 := by
  intro acts
  have hFresh : (acts.filterMap PoolAct.spawned?).Nodup := by decide
  obtain ⟨_, hRunning, _, _, hStarted, _, _, _, _, hQueued⟩ :=
    runs_in_order_within_limit 0 acts hFresh
  refine ⟨hFresh, hStarted.trans ?_, hRunning.trans ?_, hQueued.trans ?_⟩
  · decide
  · decide
  · decide

end PoolHistory

end PhoenixLens
