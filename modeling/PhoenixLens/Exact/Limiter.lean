/-!
# Limiting how much runs at once

At most so many tasks run at once; the others wait in the order in which they came. A task that
ends, for whatever reason, makes room for the one that has waited longest.

Room is made with permits. A call asks for one before it goes on to its task, and one that is given
up goes straight to the call at the head of the queue, which goes on when it is its turn to run.
What is counted is counted apart from the permits.
-/

namespace PhoenixLens

/-- The permits, the calls that are about to begin, by name, and what is counted. -/
structure Limiter where
  /-- The greatest number of running tasks; at least one may always run. -/
  limit : Nat
  /-- The permits that nobody holds. -/
  permits : Nat
  /-- The calls that wait for a permit, the one that came first in front. -/
  waiting : List String := []
  /-- The calls that have been given a permit and have not gone on yet. -/
  admitted : List String := []
  /-- The slots taken, each by the task that holds it. -/
  running : List String := []
  /-- The number of tasks that have come and not yet begun, cancelled ones included. -/
  queued : Nat := 0
deriving DecidableEq, Repr

namespace Limiter

/-- A limiter for the given number of tasks. -/
def ofLimit (limit : Nat) : Limiter := { limit := max limit 1, permits := max limit 1 }

/-- A call comes and asks for a permit. -/
def arrive (limiter : Limiter) (task : String) : Limiter :=
  match limiter.permits with
  | 0 =>
    { limiter with waiting := limiter.waiting ++ [task], queued := limiter.queued + 1 }
  | permits + 1 =>
    { limiter with
      permits, admitted := limiter.admitted ++ [task], queued := limiter.queued + 1 }

/-- A call that has a permit goes on to its task, which takes a slot. -/
def enter (limiter : Limiter) (task : String) : Limiter :=
  { limiter with
    admitted := limiter.admitted.erase task
    running := limiter.running ++ [task]
    queued := limiter.queued - 1 }

def giveBack (limiter : Limiter) : Limiter :=
  match limiter.waiting with
  | [] => { limiter with permits := limiter.permits + 1 }
  | task :: rest => { limiter with waiting := rest, admitted := limiter.admitted ++ [task] }

def leave (limiter : Limiter) (task : String) : Limiter :=
  { limiter with running := limiter.running.erase task }

def release (limiter : Limiter) (task : String) : Limiter := limiter.giveBack.leave task

/-- A call is cancelled, wherever it is. One that has not gone on stays counted as queued. -/
def cancel (limiter : Limiter) (task : String) : Limiter :=
  if limiter.running.contains task then (limiter.leave task).giveBack
  else if limiter.admitted.contains task then
    { limiter with admitted := limiter.admitted.erase task }.giveBack
  else { limiter with waiting := limiter.waiting.erase task }

end Limiter

/-- Tasks that run until they are told to finish, under a limiter. -/
structure TaskPool where
  limiter : Limiter
  /-- The tasks, running or waiting, that have been told to finish. -/
  told : List String := []
  started : List String := []
  finished : List String := []
deriving DecidableEq, Repr

namespace TaskPool

def holds (pool : TaskPool) (task : String) : Bool :=
  pool.limiter.running.contains task || pool.limiter.admitted.contains task ||
    pool.limiter.waiting.contains task

/-- A call that has been given a permit goes on, and its task starts. -/
def start (pool : TaskPool) (task : String) : TaskPool :=
  { pool with limiter := pool.limiter.enter task, started := pool.started ++ [task] }

/-- A running task ends as it has been told to. -/
def conclude (pool : TaskPool) (task : String) : TaskPool :=
  { pool with
    limiter := pool.limiter.release task
    told := pool.told.erase task
    finished := pool.finished ++ [task] }

/-- The next thing that can run runs, if there is one. -/
def advance? (pool : TaskPool) : Option TaskPool :=
  match pool.limiter.admitted with
  | task :: _ => some (pool.start task)
  | [] => (pool.limiter.running.find? pool.told.contains).map pool.conclude

/-- One thing after the other runs, so many at most. -/
def settle (pool : TaskPool) : Nat → TaskPool
  | 0 => pool
  | n + 1 =>
    match pool.advance? with
    | some next => next.settle n
    | none => pool

/-- How much can still run: a waiting call is given a permit, goes on to its task, and that ends. -/
def load (pool : TaskPool) : Nat :=
  pool.limiter.running.length + 2 * pool.limiter.admitted.length + 3 * pool.limiter.waiting.length

/-- Everything that can run runs. -/
def run (pool : TaskPool) : TaskPool := pool.settle pool.load

def spawn (pool : TaskPool) (task : String) : TaskPool :=
  { pool with limiter := pool.limiter.arrive task }.run

/-- Tells a task to finish, which it does as soon as it runs. There has to be such a task. -/
def finish (pool : TaskPool) (task : String) : TaskPool :=
  if pool.holds task then { pool with told := task :: pool.told }.run else pool

def abort (pool : TaskPool) (task : String) : TaskPool :=
  { pool with told := pool.told.erase task, limiter := pool.limiter.cancel task }.run

end TaskPool

end PhoenixLens
