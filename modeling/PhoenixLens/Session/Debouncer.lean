/-!
# Debouncing

Calls of one key that follow each other within a delay become one: a call waits, and runs only if no
other call of its key has come in the meantime. Versions are counted over all keys, so a later call
always has the greater one. Time is a number of milliseconds that the caller moves on.
-/

namespace PhoenixLens

/-- The versions of the calls that wait or run, one for each key. -/
structure Debouncer (κ : Type) where
  delay : Nat
  versions : List (κ × Nat) := []
  lastVersion : Nat := 0
deriving DecidableEq, Repr

namespace Debouncer

variable {κ : Type} [BEq κ]

/-- The version of the call of a key that counts. -/
def version? (debouncer : Debouncer κ) (key : κ) : Option Nat := debouncer.versions.lookup key

/-- A call comes; its version is `lastVersion` of the result. -/
def bump (debouncer : Debouncer κ) (key : κ) : Debouncer κ :=
  let version := debouncer.lastVersion + 1
  { debouncer with
    versions := (key, version) :: debouncer.versions.filter fun v => !(v.1 == key)
    lastVersion := version }

/-- The call has not been superseded or cancelled. -/
def isCurrent (debouncer : Debouncer κ) (key : κ) (version : Nat) : Bool :=
  debouncer.version? key == some version

/-- Drops the call of a key. -/
def cancel (debouncer : Debouncer κ) (key : κ) : Debouncer κ :=
  { debouncer with versions := debouncer.versions.filter fun v => !(v.1 == key) }

/-- A call has run; later calls of its key stay. -/
def complete (debouncer : Debouncer κ) (key : κ) (version : Nat) : Debouncer κ :=
  if debouncer.isCurrent key version then debouncer.cancel key else debouncer

/-- The number of keys that wait or run. -/
def pending (debouncer : Debouncer κ) : Nat := debouncer.versions.length

def withDelay (debouncer : Debouncer κ) (delay : Nat) : Debouncer κ := { debouncer with delay }

end Debouncer

structure TimedCall (κ : Type) where
  name : String
  key : κ
  version : Nat
  /-- How long its task takes. -/
  work : Nat
  /-- When it goes on. -/
  due : Nat
  /-- Its task is under way. -/
  running : Bool
deriving DecidableEq, Repr

/-- A debouncer with the calls that have not ended, at a time. -/
structure DebounceClock (κ : Type) where
  debouncer : Debouncer κ
  now : Nat := 0
  calls : List (TimedCall κ) := []
deriving DecidableEq, Repr

inductive CallEvent where
  | started (name : String)
  | ended (name : String) (ran : Bool)
deriving DecidableEq, Repr

/-- The line of a log for an event. -/
def CallEvent.text : CallEvent → String
  | started name => name ++ " start"
  | ended name ran => name ++ (if ran then " ran=true" else " ran=false")

namespace DebounceClock

variable {κ : Type} [BEq κ]

/-- The task of a call begins; a task that takes no time ends at once. -/
def start (clock : DebounceClock κ) (call : TimedCall κ) : DebounceClock κ × List CallEvent :=
  if call.work == 0 then
    ({ clock with debouncer := clock.debouncer.complete call.key call.version },
      [.started call.name, .ended call.name true])
  else
    let call := { call with due := clock.now + call.work, running := true }
    ({ clock with calls := clock.calls ++ [call] }, [.started call.name])

/-- A call goes on when it is due. -/
def resume (clock : DebounceClock κ) (call : TimedCall κ) : DebounceClock κ × List CallEvent :=
  if call.running then
    ({ clock with debouncer := clock.debouncer.complete call.key call.version },
      [.ended call.name true])
  else if clock.debouncer.isCurrent call.key call.version then clock.start call
  else (clock, [.ended call.name false])

/-- A call comes. Without a delay its task begins at once. -/
def call (clock : DebounceClock κ) (key : κ) (name : String) (work : Nat) :
    DebounceClock κ × List CallEvent :=
  let debouncer := clock.debouncer.bump key
  let call : TimedCall κ :=
    { name, key, version := debouncer.lastVersion, work
      due := clock.now + debouncer.delay, running := false }
  if debouncer.delay == 0 then { clock with debouncer }.start call
  else ({ clock with debouncer, calls := clock.calls ++ [call] }, [])

/-- The call that is due first, of several the one that has waited longest. -/
def next? (calls : List (TimedCall κ)) : Option (TimedCall κ) :=
  calls.foldl (fun best call =>
    match best with
    | some b => if call.due < b.due then some call else some b
    | none => some call) none

/-- The calls without the first one of a version. -/
def dropVersion (version : Nat) : List (TimedCall κ) → List (TimedCall κ)
  | [] => []
  | c :: cs => if c.version == version then cs else c :: dropVersion version cs

/-- Goes on with what is due up to a time. Every call goes on at most twice. -/
def advanceTo (clock : DebounceClock κ) (time : Nat) : Nat → DebounceClock κ × List CallEvent
  | 0 => ({ clock with now := time }, [])
  | n + 1 =>
    match next? clock.calls with
    | none => ({ clock with now := time }, [])
    | some call =>
      if time < call.due then ({ clock with now := time }, [])
      else
        let (clock, events) :=
          { clock with now := call.due, calls := dropVersion call.version clock.calls }.resume call
        let (clock, later) := clock.advanceTo time n
        (clock, events ++ later)

/-- Moves the time on. -/
def advance (clock : DebounceClock κ) (duration : Nat) : DebounceClock κ × List CallEvent :=
  clock.advanceTo (clock.now + duration) (2 * clock.calls.length)

end DebounceClock

end PhoenixLens
