import PhoenixLens.Proofs.Index.Interleaving

/-!
# Replacing all that a registry holds

To clear a registry or to restore a snapshot begins no update of any file. Right behind it the
registry holds what was put in; but an update that is in flight stays what it was, so that its
result is taken later unless its file has begun another update or has been forgotten.
-/

namespace PhoenixLens

/-- What is put in place of all that a registry holds. -/
inductive Replacement (α : Type) where
  | nothing
  | snapshot (kept : RegistrySnapshot α)

namespace Replacement

variable {α : Type}

def apply (registry : FileRegistry α) : Replacement α → FileRegistry α
  | nothing => registry.clear
  | snapshot kept => registry.restore kept

def stored (path : Path) : Replacement α → Option (List α) × Option String
  | nothing => (none, none)
  | snapshot kept =>
    ((PathTable.ofList kept.entries).get? path, (PathTable.ofList kept.digests).get? path)

variable (replacement : Replacement α) (registry : FileRegistry α)

@[simp] theorem stored_apply (path : Path) :
    (replacement.apply registry).stored path = replacement.stored path := by
  cases replacement <;> rfl

@[simp] theorem generations_apply :
    (replacement.apply registry).generations = registry.generations := by
  cases replacement <;> rfl

end Replacement

/-- A step of a run in which everything may be replaced. -/
inductive ReplacingEvent (α : Type) where
  | change (event : RegistryEvent α)
  | replaces (replacement : Replacement α)

namespace RegistryRun

variable {α : Type}

def replace (run : RegistryRun α) (replacement : Replacement α) : RegistryRun α :=
  { run with registry := replacement.apply run.registry }

def follow (run : RegistryRun α) : ReplacingEvent α → RegistryRun α
  | .change event => run.step event
  | .replaces replacement => run.replace replacement

def follows (run : RegistryRun α) (events : List (ReplacingEvent α)) : RegistryRun α :=
  events.foldl follow run

variable {run : RegistryRun α}

@[simp] theorem inFlight?_replace (run : RegistryRun α) (replacement : Replacement α)
    (number : Nat) : (run.replace replacement).inFlight? number = run.inFlight? number := rfl

theorem generation_replace (run : RegistryRun α) (replacement : Replacement α) (path : Path) :
    (run.replace replacement).registry.generation path = run.registry.generation path := by
  rw [replace, FileRegistry.generation, Replacement.generations_apply, ← FileRegistry.generation]

@[simp] theorem commits_replace (run : RegistryRun α) (replacement : Replacement α) (number : Nat) :
    (run.replace replacement).commits number = run.commits number := by
  simp [commits, FileRegistry.isCurrent, replace, inFlight?]

theorem WellFormed.replace (h : run.WellFormed) (replacement : Replacement α) :
    (run.replace replacement).WellFormed := by
  intro number update hUpdate
  rw [generation_replace]
  exact h number update hUpdate

theorem WellFormed.follow (h : run.WellFormed) (event : ReplacingEvent α) :
    (run.follow event).WellFormed := by
  cases event with
  | change event => exact h.step event
  | replaces replacement => exact h.replace replacement

theorem WellFormed.follows (h : run.WellFormed) (events : List (ReplacingEvent α)) :
    (run.follows events).WellFormed := by
  induction events generalizing run with
  | nil => exact h
  | cons event later ih => exact ih (h.follow event)

/-- An update that stays in flight is taken at the end if it would have been taken at the beginning
and nothing has superseded it since. -/
theorem commits_after_iff (h : run.WellFormed) {later : List (RegistryEvent α)} {number : Nat}
    {update : PendingUpdate} (hUpdate : run.inFlight? number = some update)
    (hLater : (run.after later).inFlight? number = some update) :
    (run.after later).commits number = true ↔
      run.commits number = true ∧ later.any (·.supersedes update.path) = false := by
  have hBounds := (h number update hUpdate).2
  have hCount : later.countP (·.supersedes update.path) = 0 ↔
      later.any (·.supersedes update.path) = false := by
    simp [List.countP_eq_zero]
  rw [commits_iff h, commits_iff (h.after later), ← hCount]
  constructor
  · rintro ⟨other, hOther, hGeneration⟩
    obtain rfl : update = other := Option.some.inj (hLater.symm.trans hOther)
    rw [generation_after] at hGeneration
    exact ⟨⟨update, hUpdate, by omega⟩, by omega⟩
  · rintro ⟨⟨other, hOther, hGeneration⟩, hNone⟩
    obtain rfl : update = other := Option.some.inj (hUpdate.symm.trans hOther)
    refine ⟨update, hLater, ?_⟩
    rw [generation_after]
    omega

/-! ### What is held since then -/

/-- Where what is stored of a file comes from since the beginning of a run. Results are those of
updates with numbers from `oldest` on. -/
inductive HeldSince (run : RegistryRun α) (oldest : Nat) (path : Path)
    (later : List (RegistryEvent α)) : Option (List α) × Option String → Prop where
  | kept (hKept : ∀ other, .removes other ∈ later → other.same path = false) :
      HeldSince run oldest path later (run.registry.stored path)
  | removal {other : Path} (hRemoved : .removes other ∈ later) (hPath : other.same path = true) :
      HeldSince run oldest path later (none, none)
  | result {before rest : List (RegistryEvent α)} {number : Nat} {entities : List α}
      {update : PendingUpdate} (hLater : later = before ++ .ends number entities :: rest)
      (hUpdate : (run.after before).inFlight? number = some update)
      (hCommits : (run.after before).commits number = true)
      (hOldest : oldest ≤ number) (hPath : update.path.same path = true) :
      HeldSince run oldest path later (some entities, some update.digest)

namespace HeldSince

variable {oldest : Nat} {path : Path} {later : List (RegistryEvent α)}
  {value : Option (List α) × Option String}

theorem append (h : HeldSince run oldest path later value) {event : RegistryEvent α}
    (hEvent : ∀ other, event = .removes other → other.same path = false) :
    HeldSince run oldest path (later ++ [event]) value := by
  cases h with
  | kept hKept =>
    refine .kept fun other hOther => ?_
    rcases List.mem_append.mp hOther with hOld | hNew
    · exact hKept other hOld
    · exact hEvent other (List.mem_singleton.mp hNew).symm
  | removal hRemoved hPath => exact .removal (List.mem_append_left _ hRemoved) hPath
  | result hLater hUpdate hCommits hOldest hPath =>
    exact .result (by rw [hLater, List.append_assoc, List.cons_append]) hUpdate hCommits hOldest
      hPath

/-- If no update of the file is current at the beginning, only those begun later leave results. -/
theorem begun_since (h : HeldSince run 0 path later value) (hRun : run.WellFormed)
    (hNone : ∀ number update, run.inFlight? number = some update → update.path.same path = true →
      run.commits number = false) :
    HeldSince run run.updates.length path later value := by
  cases h with
  | kept hKept => exact .kept hKept
  | removal hRemoved hPath => exact .removal hRemoved hPath
  | @result _ _ number _ update hLater hUpdate hCommits _ hPath =>
    refine .result hLater hUpdate hCommits ?_ hPath
    by_contra hOlder
    have hBegun := inFlight?_of_inFlight?_after (Nat.lt_of_not_le hOlder) hUpdate
    have hCurrent := ((commits_after_iff hRun hBegun hUpdate).mp hCommits).1
    rw [hNone number update hBegun hPath] at hCurrent
    cases hCurrent

end HeldSince

theorem heldSince_after (run : RegistryRun α) (later : List (RegistryEvent α)) (path : Path) :
    HeldSince run 0 path later ((run.after later).registry.stored path) := by
  induction later using List.reverseRecOn with
  | nil => exact .kept (by simp)
  | append_singleton later event ih =>
    rw [after_concat]
    rcases stored_step (run.after later) event path with
      ⟨hKept, hEvent⟩ | ⟨other, rfl, hPath, hForgotten⟩ |
      ⟨number, entities, update, rfl, hUpdate, hCommits, hPath, hTaken⟩
    · rw [hKept]
      exact ih.append hEvent
    · rw [hForgotten]
      exact .removal (by simp) hPath
    · rw [hTaken]
      exact .result rfl hUpdate hCommits (Nat.zero_le number) hPath

/-- Right behind its last replacement a registry holds what was put in. Later it holds that, but for
files that have been forgotten since or have taken the result of an update since. The replacement
does not count for the updates in flight: they are taken as they would have been without it. So only
where none of them is current, as behind a removal, do all results come from updates begun later. -/
theorem replacement_spares_updates (registry : FileRegistry α) (before : List (ReplacingEvent α))
    (replacement : Replacement α) (later : List (RegistryEvent α)) (path : Path) :
    let held := (start registry).follows before
    let replaced := held.replace replacement
    let run := replaced.after later
    replaced.registry.stored path = replacement.stored path ∧
    HeldSince replaced 0 path later (run.registry.stored path) ∧
    (∀ number update, held.inFlight? number = some update → run.inFlight? number = some update →
      (run.commits number = true ↔
        held.commits number = true ∧ later.any (·.supersedes update.path) = false)) ∧
    ((∀ number update, held.inFlight? number = some update → update.path.same path = true →
        held.commits number = false) →
      HeldSince replaced held.updates.length path later (run.registry.stored path)) := by
  intro held replaced run
  have hReplaced : replaced.WellFormed :=
    ((wellFormed_start registry).follows before).replace replacement
  have hSince := heldSince_after replaced later path
  refine ⟨replacement.stored_apply held.registry path, hSince, ?_, ?_⟩
  · intro number update hHeld hRun
    rw [commits_after_iff hReplaced hHeld hRun, commits_replace]
  · intro hNone
    refine hSince.begun_since hReplaced fun number update hUpdate hPath => ?_
    rw [commits_replace]
    exact hNone number update hUpdate hPath

/-- An update that began before the registry was cleared, or before a snapshot was restored, commits
afterwards; behind a removal it does not. -/
theorem update_outlives_replacement :
    let events := fun event : ReplacingEvent Nat =>
      [.change (.begins ⟨"/app/a.ex"⟩ "old"), event, .change (.ends 0 [1])]
    let stored := fun event => ((start {}).follows (events event)).registry.stored ⟨"/app/a.ex"⟩
    stored (.replaces .nothing) = (some [1], some (Text.contentDigest "old")) ∧
      stored (.replaces (.snapshot {})) = (some [1], some (Text.contentDigest "old")) ∧
      stored (.change (.removes ⟨"/app/a.ex"⟩)) = (none, none) := by
  refine ⟨?_, ?_, ?_⟩
  all_goals rfl

end RegistryRun

end PhoenixLens
