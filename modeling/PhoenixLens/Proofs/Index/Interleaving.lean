import Mathlib.Data.List.Induction
import PhoenixLens.Index.Basic
import PhoenixLens.Proofs.Index.Registry

/-!
# Overlapping updates of a registry

A run is any order of steps in which updates begin, their contents turn out to be parsed, and files
are forgotten. An update that has begun may end at any later time or never, and the entities that it
ends with are arbitrary, so nothing is assumed of parsers or of scheduling. The main result says,
for every file, where what is stored comes from, and what is left once no update is in flight.
-/

namespace PhoenixLens

/-- A step of a run. -/
inductive RegistryEvent (α : Type) where
  /-- An update of a file to a content begins. -/
  | begins (path : Path) (content : String)
  /-- The content of the update with the given number has been parsed. -/
  | ends (number : Nat) (entities : List α)
  /-- A file is forgotten. -/
  | removes (path : Path)

/-- A registry with the updates that have begun, by number. An update that need not go on, or that
has ended, leaves an empty place. -/
structure RegistryRun (α : Type) where
  registry : FileRegistry α
  updates : List (Option PendingUpdate) := []

namespace RegistryEvent

variable {α : Type}

/-- The event begins an update of the file or forgets it. -/
def supersedes (path : Path) : RegistryEvent α → Bool
  | begins other _ => other.same path
  | ends _ _ => false
  | removes other => other.same path

/-- The digest that a file is to have after the event, if the event supersedes others. -/
def digest? : RegistryEvent α → Option String
  | begins _ content => some (Text.contentDigest content)
  | _ => none

def begun? : RegistryEvent α → Option (Path × String)
  | begins path content => some (path, content)
  | _ => none

/-- The paths and contents of the updates that have begun, by number. -/
def begun (events : List (RegistryEvent α)) : List (Path × String) := events.filterMap begun?

/-- The last event that began an update of a file or forgot it. -/
def last? (path : Path) (events : List (RegistryEvent α)) : Option (RegistryEvent α) :=
  (events.filter (·.supersedes path)).getLast?

theorem last?_eq_none {path : Path} {events : List (RegistryEvent α)} :
    last? path events = none ↔ ∀ event ∈ events, event.supersedes path = false := by
  simp [last?]

theorem mem_of_last? {path : Path} {events : List (RegistryEvent α)} {event : RegistryEvent α}
    (h : last? path events = some event) : event ∈ events ∧ event.supersedes path = true :=
  List.mem_filter.mp (List.mem_of_getLast? h)

theorem begins_mem_of_begun {events : List (RegistryEvent α)} {number : Nat} {path : Path}
    {content : String} (h : (begun events)[number]? = some (path, content)) :
    .begins path content ∈ events := by
  obtain ⟨event, hEvent, hBegun⟩ := List.mem_filterMap.mp (List.mem_of_getElem? h)
  cases event with
  | begins other text =>
    cases hBegun
    exact hEvent
  | ends number entities => cases hBegun
  | removes other => cases hBegun

end RegistryEvent

namespace RegistryRun

variable {α : Type}

def start (registry : FileRegistry α) : RegistryRun α := { registry }

/-- The update with the given number, while it is in flight. -/
def inFlight? (run : RegistryRun α) (number : Nat) : Option PendingUpdate :=
  (run.updates[number]?).join

def settled (run : RegistryRun α) : Prop := ∀ number, run.inFlight? number = none

theorem settled_iff {run : RegistryRun α} :
    run.settled ↔ ∀ update ∈ run.updates, update = none := by
  simp only [settled, inFlight?]
  constructor
  · intro h update hUpdate
    obtain ⟨number, hNumber⟩ := List.mem_iff_getElem?.mp hUpdate
    simpa [hNumber] using h number
  · intro h number
    cases hUpdate : run.updates[number]? with
    | none => rfl
    | some update => rw [h update (List.mem_of_getElem? hUpdate)]; rfl

/-- The result of the update would be taken. -/
def commits (run : RegistryRun α) (number : Nat) : Bool :=
  (run.inFlight? number).any fun update => run.registry.isCurrent update.path update.generation

def concerns (run : RegistryRun α) (path : Path) : RegistryEvent α → Bool
  | .begins other _ => other.same path
  | .ends number _ => (run.inFlight? number).any (·.path.same path)
  | .removes other => other.same path

def step (run : RegistryRun α) : RegistryEvent α → RegistryRun α
  | .begins path content =>
    let (registry, update) := run.registry.startUpdate path content
    { registry, updates := run.updates ++ [update] }
  | .ends number entities =>
    match run.inFlight? number with
    | some update =>
      { registry := run.registry.finishUpdate update entities
        updates := run.updates.set number none }
    | none => run
  | .removes path => { run with registry := run.registry.remove path }

def after (run : RegistryRun α) (events : List (RegistryEvent α)) : RegistryRun α :=
  events.foldl step run

@[simp] theorem after_nil (run : RegistryRun α) : run.after [] = run := rfl

@[simp] theorem after_append (run : RegistryRun α) (events later : List (RegistryEvent α)) :
    run.after (events ++ later) = (run.after events).after later := List.foldl_append

@[simp] theorem after_concat (run : RegistryRun α) (events : List (RegistryEvent α))
    (event : RegistryEvent α) : run.after (events ++ [event]) = (run.after events).step event := by
  simp [after]

theorem after_cons (run : RegistryRun α) (event : RegistryEvent α)
    (later : List (RegistryEvent α)) : run.after (event :: later) = (run.step event).after later :=
  rfl

/-! ### Updates in flight -/

theorem inFlight?_eq_some {run : RegistryRun α} {number : Nat} {update : PendingUpdate} :
    run.inFlight? number = some update ↔ run.updates[number]? = some (some update) := by
  simp [inFlight?, Option.join_eq_some_iff]

theorem step_ends {run : RegistryRun α} {number : Nat} {update : PendingUpdate}
    (h : run.inFlight? number = some update) (entities : List α) :
    run.step (.ends number entities) =
      { registry := run.registry.finishUpdate update entities
        updates := run.updates.set number none } := by
  simp only [step, h]

theorem step_ends_of_none {run : RegistryRun α} {number : Nat} (h : run.inFlight? number = none)
    (entities : List α) : run.step (.ends number entities) = run := by
  simp only [step, h]

theorem inFlight?_step {run : RegistryRun α} {event : RegistryEvent α} {number : Nat}
    {update : PendingUpdate} (h : (run.step event).inFlight? number = some update) :
    run.inFlight? number = some update ∨
      ∃ path content, event = .begins path content ∧ number = run.updates.length ∧
        (run.registry.startUpdate path content).2 = some update := by
  rw [inFlight?_eq_some] at h
  cases event with
  | begins path content =>
    simp only [step] at h
    rcases Nat.lt_or_ge number run.updates.length with hOld | hNew
    · rw [List.getElem?_append_left hOld] at h
      exact .inl (inFlight?_eq_some.mpr h)
    · rw [List.getElem?_append_right hNew, List.getElem?_singleton] at h
      split at h
      · exact .inr ⟨path, content, rfl, by omega, Option.some.inj h⟩
      · cases h
  | ends other entities =>
    cases hOther : run.inFlight? other with
    | none =>
      rw [step_ends_of_none hOther] at h
      exact .inl (inFlight?_eq_some.mpr h)
    | some ended =>
      rw [step_ends hOther] at h
      simp only [List.getElem?_set] at h
      split at h
      · split at h <;> cases h
      · exact .inl (inFlight?_eq_some.mpr h)
  | removes path => exact .inl (inFlight?_eq_some.mpr h)

theorem length_updates_step (run : RegistryRun α) (event : RegistryEvent α) :
    (run.step event).updates.length = run.updates.length + event.begun?.toList.length := by
  cases event with
  | begins path content => simp [step, RegistryEvent.begun?]
  | ends number entities =>
    cases h : run.inFlight? number with
    | none => simp [step_ends_of_none h, RegistryEvent.begun?]
    | some update => simp [step_ends h, RegistryEvent.begun?]
  | removes path => simp [step, RegistryEvent.begun?]

/-! ### Generations -/

theorem generation_step (run : RegistryRun α) (event : RegistryEvent α) (path : Path) :
    (run.step event).registry.generation path =
      run.registry.generation path + (event.supersedes path).toNat := by
  cases event with
  | begins other content =>
    simp only [step, FileRegistry.startUpdate_fst, FileRegistry.generation_beginUpdate,
      RegistryEvent.supersedes]
    split <;> simp_all
  | ends number entities =>
    cases h : run.inFlight? number with
    | none => simp [step_ends_of_none h, RegistryEvent.supersedes]
    | some update => simp [step_ends h, RegistryEvent.supersedes]
  | removes other =>
    simp only [step, FileRegistry.generation_remove, RegistryEvent.supersedes]
    split <;> simp_all

/-- The generation of a file counts the events that superseded what was under way before. -/
theorem generation_after (run : RegistryRun α) (events : List (RegistryEvent α)) (path : Path) :
    (run.after events).registry.generation path =
      run.registry.generation path + events.countP (·.supersedes path) := by
  induction events generalizing run with
  | nil => simp
  | cons event later ih =>
    rw [after_cons, ih, generation_step, List.countP_cons]
    cases event.supersedes path <;> simp; omega

/-- Updates in flight have generations that their files have reached. -/
def WellFormed (run : RegistryRun α) : Prop :=
  ∀ number update, run.inFlight? number = some update →
    0 < update.generation ∧ update.generation ≤ run.registry.generation update.path

theorem wellFormed_start (registry : FileRegistry α) :
    (start registry).WellFormed := by
  intro number update h
  simp [start, inFlight?] at h

theorem WellFormed.step {run : RegistryRun α} (h : run.WellFormed) (event : RegistryEvent α) :
    (run.step event).WellFormed := by
  intro number update hUpdate
  rw [generation_step]
  rcases inFlight?_step hUpdate with hOld | ⟨path, content, rfl, _, hNew⟩
  · have hBounds := h number update hOld
    omega
  · rw [FileRegistry.startUpdate_snd_eq_some hNew]
    simp [RegistryEvent.supersedes]

theorem WellFormed.after {run : RegistryRun α} (h : run.WellFormed)
    (events : List (RegistryEvent α)) : (run.after events).WellFormed := by
  induction events generalizing run with
  | nil => exact h
  | cons event later ih => exact ih (h.step event)

theorem commits_iff {run : RegistryRun α} (h : run.WellFormed) {number : Nat} :
    run.commits number = true ↔ ∃ update, run.inFlight? number = some update ∧
      run.registry.generation update.path = update.generation := by
  rw [commits, Option.any_eq_true]
  constructor
  · rintro ⟨update, hUpdate, hCurrent⟩
    exact ⟨update, hUpdate, (FileRegistry.isCurrent_iff (h number update hUpdate).1).mp hCurrent⟩
  · rintro ⟨update, hUpdate, hGeneration⟩
    exact ⟨update, hUpdate,
      (FileRegistry.isCurrent_iff (h number update hUpdate).1).mpr hGeneration⟩

/-! ### What is stored -/

/-- A step changes what is stored of a file only by forgetting it or by taking the result of one of
its updates, both parts of it at once. -/
theorem stored_step (run : RegistryRun α) (event : RegistryEvent α) (path : Path) :
    ((run.step event).registry.stored path = run.registry.stored path ∧
        ∀ other, event = .removes other → other.same path = false) ∨
      (∃ other, event = .removes other ∧ other.same path = true ∧
        (run.step event).registry.stored path = (none, none)) ∨
      ∃ number entities update, event = .ends number entities ∧
        run.inFlight? number = some update ∧ run.commits number = true ∧
        update.path.same path = true ∧
        (run.step event).registry.stored path = (some entities, some update.digest) := by
  cases event with
  | begins other content => exact .inl ⟨rfl, nofun⟩
  | ends number entities =>
    cases hUpdate : run.inFlight? number with
    | none => exact .inl ⟨by rw [step_ends_of_none hUpdate], nofun⟩
    | some update =>
      rw [step_ends hUpdate]
      cases hCurrent : run.registry.isCurrent update.path update.generation with
      | false => exact .inl ⟨by rw [FileRegistry.finishUpdate_of_not_current hCurrent], nofun⟩
      | true =>
        simp only [FileRegistry.stored_finishUpdate hCurrent]
        by_cases hPath : update.path.same path = true
        · right; right
          exact ⟨number, entities, update, rfl, hUpdate, by simp [commits, hUpdate, hCurrent],
            hPath, if_pos hPath⟩
        · exact .inl ⟨if_neg hPath, nofun⟩
  | removes other =>
    simp only [step, FileRegistry.stored_remove]
    cases hPath : other.same path with
    | true => exact .inr (.inl ⟨other, rfl, hPath, rfl⟩)
    | false => exact .inl ⟨rfl, fun _ h => by cases h; exact hPath⟩

theorem stored_step_of_not_concerns {run : RegistryRun α} {event : RegistryEvent α} {path : Path}
    (h : run.concerns path event = false) :
    (run.step event).registry.stored path = run.registry.stored path := by
  cases event with
  | begins other content => rfl
  | ends number entities =>
    cases hUpdate : run.inFlight? number with
    | none => rw [step_ends_of_none hUpdate]
    | some update =>
      rw [step_ends hUpdate]
      cases hCurrent : run.registry.isCurrent update.path update.generation with
      | false => rw [FileRegistry.finishUpdate_of_not_current hCurrent]
      | true =>
        have hPath : update.path.same path = false := by simpa [concerns, hUpdate] using h
        rw [FileRegistry.stored_finishUpdate hCurrent, hPath]
        rfl
  | removes other =>
    have hPath : other.same path = false := h
    rw [step, FileRegistry.stored_remove, hPath]
    rfl

theorem registry_step_ends_of_not_commits {run : RegistryRun α} {number : Nat}
    (h : run.commits number = false) (entities : List α) :
    (run.step (.ends number entities)).registry = run.registry := by
  cases hUpdate : run.inFlight? number with
  | none => rw [step_ends_of_none hUpdate]
  | some update =>
    rw [step_ends hUpdate]
    exact FileRegistry.finishUpdate_of_not_current (by simpa [commits, hUpdate] using h) entities

/-! ### Where the digest is going -/

/-- An update of the file that is in flight and whose result would be taken. -/
def Awaits (run : RegistryRun α) (path : Path) (update : PendingUpdate) : Prop :=
  ∃ number, run.inFlight? number = some update ∧ update.path.same path = true ∧
    run.registry.generation path = update.generation

/-- The file is on its way to the digest `goal`: what is awaited brings that digest, and it is
stored already if nothing is awaited. -/
structure LeadsTo (run : RegistryRun α) (path : Path) (goal : Option String) : Prop where
  brings : ∀ update, run.Awaits path update → goal = some update.digest
  arrives : (∃ update, run.Awaits path update) ∨ (run.registry.stored path).2 = goal

theorem leadsTo_start (registry : FileRegistry α) (path : Path) :
    (start registry).LeadsTo path (registry.stored path).2 where
  brings update h := by
    obtain ⟨number, hUpdate, _⟩ := h
    simp [start, inFlight?] at hUpdate
  arrives := .inr rfl

/-- An event that supersedes the updates of a file leaves at most the one that it begins awaited. -/
theorem awaits_step_of_supersedes {run : RegistryRun α} (hRun : run.WellFormed)
    {event : RegistryEvent α} {path : Path} (hEvent : event.supersedes path = true)
    {update : PendingUpdate} (h : (run.step event).Awaits path update) :
    ∃ other content,
      event = .begins other content ∧ update.digest = Text.contentDigest content := by
  obtain ⟨number, hUpdate, hPath, hGeneration⟩ := h
  rcases inFlight?_step hUpdate with hOld | ⟨other, content, hBegins, _, hNew⟩
  · have hBound := (hRun number update hOld).2
    rw [FileRegistry.generation_congr _ hPath] at hBound
    rw [generation_step, hEvent, Bool.toNat_true] at hGeneration
    omega
  · exact ⟨other, content, hBegins, by rw [FileRegistry.startUpdate_snd_eq_some hNew]⟩

/-- Any other event takes awaited updates away, but adds none. -/
theorem awaits_of_awaits_step {run : RegistryRun α} {event : RegistryEvent α} {path : Path}
    (hEvent : event.supersedes path = false) {update : PendingUpdate}
    (h : (run.step event).Awaits path update) : run.Awaits path update := by
  obtain ⟨number, hUpdate, hPath, hGeneration⟩ := h
  rw [generation_step, hEvent, Bool.toNat_false, Nat.add_zero] at hGeneration
  rcases inFlight?_step hUpdate with hOld | ⟨other, content, rfl, _, hNew⟩
  · exact ⟨number, hOld, hPath, hGeneration⟩
  · rw [FileRegistry.startUpdate_snd_eq_some hNew] at hPath
    simp only [RegistryEvent.supersedes] at hEvent
    rw [hEvent] at hPath
    cases hPath

/-- What is awaited stays so until it is superseded or ends. When it ends its digest is stored. -/
theorem awaits_step {run : RegistryRun α} (hRun : run.WellFormed) {event : RegistryEvent α}
    {path : Path} (hEvent : event.supersedes path = false) {update : PendingUpdate}
    (h : run.Awaits path update) :
    (run.step event).Awaits path update ∨
      ((run.step event).registry.stored path).2 = some update.digest := by
  obtain ⟨number, hUpdate, hPath, hGeneration⟩ := h
  have hGeneration' : (run.step event).registry.generation path = update.generation := by
    rw [generation_step, hEvent, Bool.toNat_false, Nat.add_zero, hGeneration]
  cases event with
  | begins other content =>
    refine .inl ⟨number, ?_, hPath, hGeneration'⟩
    rw [inFlight?_eq_some] at hUpdate ⊢
    exact List.getElem?_append_left (List.getElem?_eq_some_iff.mp hUpdate).1 ▸ hUpdate
  | ends other entities =>
    cases hEnded : run.inFlight? other with
    | none =>
      rw [step_ends_of_none hEnded]
      exact .inl ⟨number, hUpdate, hPath, hGeneration⟩
    | some ended =>
      by_cases hNumber : other = number
      -- it is this update that ends; its generation still counts, so its result is taken
      · have hSame : update = ended := by
          rw [hNumber, hUpdate] at hEnded
          exact Option.some.inj hEnded
        have hCurrent : run.registry.isCurrent ended.path ended.generation = true := by
          rw [FileRegistry.isCurrent_iff (hRun other ended hEnded).1, ← hSame, ← hGeneration]
          exact FileRegistry.generation_congr _ hPath
        rw [step_ends hEnded, FileRegistry.stored_finishUpdate hCurrent, ← hSame, if_pos hPath]
        exact .inr rfl
      · refine .inl ⟨number, ?_, hPath, hGeneration'⟩
        rw [inFlight?_eq_some] at hUpdate
        rw [step_ends hEnded, inFlight?_eq_some, List.getElem?_set_ne hNumber]
        exact hUpdate
  | removes other => exact .inl ⟨number, hUpdate, hPath, hGeneration'⟩

/-- Whatever was awaited before, an event that supersedes it sets a new goal. -/
theorem leadsTo_step_of_supersedes {run : RegistryRun α} (hRun : run.WellFormed)
    {event : RegistryEvent α} {path : Path} (hEvent : event.supersedes path = true) :
    (run.step event).LeadsTo path event.digest? := by
  refine ⟨fun update hAwaits => ?_, ?_⟩
  · obtain ⟨other, content, rfl, hDigest⟩ := awaits_step_of_supersedes hRun hEvent hAwaits
    rw [hDigest]
    rfl
  · cases event with
    | begins other content =>
      cases hUpdate : (run.registry.startUpdate other content).2 with
      | none =>
        -- the short cut is only taken if the digest of the content is stored already
        right
        have hStored := FileRegistry.startUpdate_snd_eq_none hUpdate
        rw [FileRegistry.stored_congr _ hEvent] at hStored
        exact hStored
      | some update =>
        left
        have hNew := FileRegistry.startUpdate_snd_eq_some hUpdate
        refine ⟨update, run.updates.length, ?_, by rw [hNew]; exact hEvent, ?_⟩
        · rw [inFlight?_eq_some]
          simp [RegistryRun.step, hUpdate]
        · rw [generation_step, hEvent, hNew, FileRegistry.generation_congr _ hEvent]
          rfl
    | ends number entities => cases hEvent
    | removes other =>
      right
      have hPath : other.same path = true := hEvent
      rw [RegistryRun.step, FileRegistry.stored_remove, if_pos hPath]
      rfl

theorem LeadsTo.step_of_not_supersedes {run : RegistryRun α} (hRun : run.WellFormed) {path : Path}
    {goal : Option String} (h : run.LeadsTo path goal) {event : RegistryEvent α}
    (hEvent : event.supersedes path = false) : (run.step event).LeadsTo path goal := by
  refine ⟨fun update hAwaits => h.brings update (awaits_of_awaits_step hEvent hAwaits), ?_⟩
  rcases h.arrives with ⟨update, hAwaits⟩ | hStored
  · rcases awaits_step hRun hEvent hAwaits with hStill | hDone
    · exact .inl ⟨update, hStill⟩
    · exact .inr (hDone.trans (h.brings update hAwaits).symm)
  · rcases stored_step run event path with ⟨hKept, _⟩ | ⟨other, rfl, hPath, _⟩ |
      ⟨number, entities, update, rfl, hUpdate, hCommits, hPath, hTaken⟩
    · exact .inr (by rw [hKept]; exact hStored)
    · exact absurd hPath (by simpa [RegistryEvent.supersedes] using hEvent)
    -- a result that is taken is that of an awaited update, which brings the goal
    · obtain ⟨current, hCurrent, hGeneration⟩ := (commits_iff hRun).mp hCommits
      have hSame : update = current := by
        rw [hUpdate] at hCurrent
        exact Option.some.inj hCurrent
      rw [← hSame, FileRegistry.generation_congr _ hPath] at hGeneration
      rw [hTaken, h.brings update ⟨number, hUpdate, hPath, hGeneration⟩]
      exact .inr rfl

theorem LeadsTo.step {run : RegistryRun α} (hRun : run.WellFormed) {path : Path}
    {goal : Option String} (h : run.LeadsTo path goal) (event : RegistryEvent α) :
    (run.step event).LeadsTo path (if event.supersedes path then event.digest? else goal) := by
  cases hEvent : event.supersedes path with
  | true => exact leadsTo_step_of_supersedes hRun hEvent
  | false => exact h.step_of_not_supersedes hRun hEvent

theorem LeadsTo.of_settled {run : RegistryRun α} {path : Path} {goal : Option String}
    (h : run.LeadsTo path goal) (hSettled : run.settled) : (run.registry.stored path).2 = goal := by
  rcases h.arrives with ⟨update, number, hUpdate, _⟩ | hStored
  · rw [hSettled number] at hUpdate
    cases hUpdate
  · exact hStored

/-- After a run, a file is on its way to the digest of the last event that superseded others. -/
theorem leadsTo_after (registry : FileRegistry α) (events : List (RegistryEvent α)) (path : Path) :
    ((start registry).after events).LeadsTo path
      (((RegistryEvent.last? path events).map (·.digest?)).getD (registry.stored path).2) := by
  induction events using List.reverseRecOn with
  | nil => exact leadsTo_start registry path
  | append_singleton events event ih =>
    have hRun := (wellFormed_start registry).after events
    have hStep := ih.step hRun event
    rw [after_concat]
    cases hEvent : event.supersedes path with
    | true => simpa [RegistryEvent.last?, hEvent] using hStep
    | false => simpa [RegistryEvent.last?, hEvent] using hStep

/-! ### Where what is stored comes from -/

theorem length_updates_after (registry : FileRegistry α) (events : List (RegistryEvent α)) :
    ((start registry).after events).updates.length =
      (RegistryEvent.begun events).length := by
  induction events using List.reverseRecOn with
  | nil => rfl
  | append_singleton events event ih =>
    rw [after_concat, length_updates_step, ih]
    cases hBegun : event.begun? <;> simp [RegistryEvent.begun, hBegun]

theorem begun_of_inFlight? {registry : FileRegistry α} {events : List (RegistryEvent α)}
    {number : Nat} {update : PendingUpdate}
    (h : ((start registry).after events).inFlight? number = some update) :
    ∃ content, (RegistryEvent.begun events)[number]? = some (update.path, content) ∧
      update.digest = Text.contentDigest content := by
  induction events using List.reverseRecOn with
  | nil => simp [start, inFlight?] at h
  | append_singleton events event ih =>
    rw [after_concat] at h
    rw [RegistryEvent.begun, List.filterMap_append, ← RegistryEvent.begun]
    rcases inFlight?_step h with hOld | ⟨path, content, rfl, hNumber, hNew⟩
    · obtain ⟨content, hBegun, hDigest⟩ := ih hOld
      refine ⟨content, ?_, hDigest⟩
      rw [List.getElem?_append_left (List.getElem?_eq_some_iff.mp hBegun).1]
      exact hBegun
    · rw [FileRegistry.startUpdate_snd_eq_some hNew]
      refine ⟨content, ?_, rfl⟩
      rw [hNumber, length_updates_after, List.getElem?_append_right (Nat.le_refl _)]
      simp [RegistryEvent.begun?]

/-- The one event that what is stored of a file comes from. -/
inductive StoredFrom (registry : FileRegistry α) (path : Path) (events : List (RegistryEvent α)) :
    Option (List α) × Option String → Prop where
  /-- Nothing has been committed or forgotten: the file is known as at the beginning. -/
  | start (hKept : ∀ other, .removes other ∈ events → other.same path = false) :
      StoredFrom registry path events (registry.stored path)
  | removal {other : Path} (hRemoved : .removes other ∈ events) (hPath : other.same path = true) :
      StoredFrom registry path events (none, none)
  /-- The update was in flight when its parse ended, and its result was taken. -/
  | commit {before later : List (RegistryEvent α)} {number : Nat} {entities : List α}
      {other : Path} {content : String}
      (hEvents : events = before ++ .ends number entities :: later)
      (hCommits : ((start registry).after before).commits number = true)
      (hBegun : (RegistryEvent.begun before)[number]? = some (other, content))
      (hPath : other.same path = true) :
      StoredFrom registry path events (some entities, some (Text.contentDigest content))

/-- A further event that does not forget the file leaves the source as it is. -/
theorem StoredFrom.append {registry : FileRegistry α} {path : Path}
    {events : List (RegistryEvent α)} {value : Option (List α) × Option String}
    (h : StoredFrom registry path events value) {event : RegistryEvent α}
    (hEvent : ∀ other, event = .removes other → other.same path = false) :
    StoredFrom registry path (events ++ [event]) value := by
  cases h with
  | start hKept =>
    refine .start fun other hOther => ?_
    rcases List.mem_append.mp hOther with hOld | hNew
    · exact hKept other hOld
    · exact hEvent other (List.mem_singleton.mp hNew).symm
  | removal hRemoved hPath => exact .removal (List.mem_append_left _ hRemoved) hPath
  | commit hEvents hCommits hBegun hPath =>
    exact .commit (by rw [hEvents, List.append_assoc, List.cons_append]) hCommits hBegun hPath

theorem StoredFrom.eq_start {registry : FileRegistry α} {path : Path}
    {events : List (RegistryEvent α)} {value : Option (List α) × Option String}
    (h : StoredFrom registry path events value)
    (hLast : RegistryEvent.last? path events = none) : value = registry.stored path := by
  rw [RegistryEvent.last?_eq_none] at hLast
  cases h with
  | start _ => rfl
  | removal hRemoved hPath => exact absurd hPath (Bool.eq_false_iff.mp (hLast _ hRemoved))
  | commit hEvents _ hBegun hPath =>
    have hBegins := RegistryEvent.begins_mem_of_begun hBegun
    have hLate := hLast _ (hEvents ▸ List.mem_append_left _ hBegins)
    exact absurd hPath (Bool.eq_false_iff.mp hLate)

theorem StoredFrom.eq_none {registry : FileRegistry α} {path other : Path}
    {events : List (RegistryEvent α)} {value : Option (List α) × Option String}
    (h : StoredFrom registry path events value) (hRemoved : .removes other ∈ events)
    (hPath : other.same path = true) (hDigest : value.2 = none) : value = (none, none) := by
  cases h with
  | start hKept => exact absurd hPath (by simp [hKept other hRemoved])
  | removal _ _ => rfl
  | commit _ _ _ _ => cases hDigest

theorem storedFrom_after (registry : FileRegistry α) (events : List (RegistryEvent α))
    (path : Path) :
    StoredFrom registry path events
      (((start registry).after events).registry.stored path) := by
  induction events using List.reverseRecOn with
  | nil => exact .start (by simp)
  | append_singleton events event ih =>
    rw [after_concat]
    rcases stored_step ((start registry).after events) event path with
      ⟨hKept, hEvent⟩ | ⟨other, rfl, hPath, hForgotten⟩ |
      ⟨number, entities, update, rfl, hUpdate, hCommits, hPath, hTaken⟩
    · rw [hKept]
      exact ih.append hEvent
    · rw [hForgotten]
      exact .removal (by simp) hPath
    · obtain ⟨content, hBegun, hDigest⟩ := begun_of_inFlight? hUpdate
      rw [hTaken, hDigest]
      exact .commit rfl hCommits hBegun hPath

/-! ### Superseded updates -/

/-- The number of an update is given once, so an update that has begun cannot come back. -/
theorem inFlight?_of_inFlight?_after {run : RegistryRun α} {events : List (RegistryEvent α)}
    {number : Nat} (hNumber : number < run.updates.length) {update : PendingUpdate}
    (h : (run.after events).inFlight? number = some update) :
    run.inFlight? number = some update := by
  induction events generalizing run with
  | nil => exact h
  | cons event later ih =>
    rw [after_cons] at h
    have hLonger := length_updates_step run event
    rcases inFlight?_step (ih (by omega) h) with hOld | ⟨_, _, _, hLast, _⟩
    · exact hOld
    · omega

/-- The result of an update is refused once another event has superseded it. -/
theorem not_commits_of_superseded {run : RegistryRun α} (hRun : run.WellFormed) (path : Path)
    (content : String) {middle : List (RegistryEvent α)}
    (hMiddle : middle.any (·.supersedes path) = true) :
    (run.after (.begins path content :: middle)).commits run.updates.length = false := by
  rw [← Bool.not_eq_true, commits_iff (hRun.after _)]
  rintro ⟨update, hUpdate, hGeneration⟩
  have hLater : 0 < middle.countP (·.supersedes path) := by
    rw [List.countP_pos_iff]
    simpa using hMiddle
  have hNumber : run.updates.length < (run.step (.begins path content)).updates.length := by
    rw [length_updates_step]
    simp [RegistryEvent.begun?]
  have hBegun := inFlight?_of_inFlight?_after hNumber hUpdate
  rcases inFlight?_step hBegun with hOld | ⟨other, text, hEvent, _, hNew⟩
  · have hLength := (List.getElem?_eq_some_iff.mp (inFlight?_eq_some.mp hOld)).1
    omega
  · cases hEvent
    rw [FileRegistry.startUpdate_snd_eq_some hNew] at hGeneration
    simp only [generation_after, List.countP_cons, RegistryEvent.supersedes,
      Path.same_refl] at hGeneration hLater
    simp only [if_true] at hGeneration
    omega

/-! ### The main result -/

/-- However updates and removals overlap, at every point of a run and for every file: what is stored
comes from one event; the result of an update is refused after a later update or removal of its
file; an event about other files changes nothing; and once nothing is in flight, the file is known
by the content of its last update, unless it has been forgotten since. -/
theorem overlapping_updates_converge (registry : FileRegistry α) (events : List (RegistryEvent α))
    (path : Path) :
    let run := (start registry).after events
    StoredFrom registry path events (run.registry.stored path) ∧
    (∀ before content middle, events = before ++ .begins path content :: middle →
      middle.any (·.supersedes path) = true →
      run.commits (RegistryEvent.begun before).length = false ∧
      ∀ entities, (run.step (.ends (RegistryEvent.begun before).length entities)).registry =
        run.registry) ∧
    (∀ event, run.concerns path event = false →
      (run.step event).registry.stored path = run.registry.stored path) ∧
    (run.settled →
      match RegistryEvent.last? path events with
      | some (.begins _ content) =>
        (run.registry.stored path).2 = some (Text.contentDigest content)
      | some _ => run.registry.stored path = (none, none)
      | none => run.registry.stored path = registry.stored path) := by
  intro run
  have hSource : StoredFrom registry path events (run.registry.stored path) :=
    storedFrom_after registry events path
  refine ⟨hSource, ?_, fun _ => stored_step_of_not_concerns, ?_⟩
  · intro before content middle hEvents hMiddle
    have hRefused : run.commits (RegistryEvent.begun before).length = false := by
      simp only [run]
      rw [hEvents, after_append, ← length_updates_after registry before]
      exact not_commits_of_superseded ((wellFormed_start registry).after before) path content
        hMiddle
    exact ⟨hRefused, registry_step_ends_of_not_commits hRefused⟩
  · intro hSettled
    have hDigest := (leadsTo_after registry events path).of_settled hSettled
    cases hLast : RegistryEvent.last? path events with
    | none => exact hSource.eq_start hLast
    | some event =>
      rw [hLast] at hDigest
      obtain ⟨hEvent, hPath⟩ := RegistryEvent.mem_of_last? hLast
      cases event with
      | begins other content => exact hDigest
      | ends number entities => cases hPath
      | removes other => exact hSource.eq_none hEvent hPath hDigest

end RegistryRun

/-- The index takes the steps of an update in a row, with the parse in between. -/
theorem Index.updateKind_eq {m : Type → Type} [Monad m] [LawfulMonad m] (disk : Disk)
    (index : Index) (kind : EntityKind) (path : Path) (text : String) :
    (index.updateKind disk kind path text : Parsing m (Index × Bool)) =
      let begun := (RegistryRun.start (index.registry kind)).step (.begins path text)
      if (begun.inFlight? 0).isNone then return (index.withRegistry kind begun.registry, false)
      else do
        let (found, _) ← Gateway.parse disk (.entities kind) path text
        let ended := begun.step (.ends 0 (kind.ofFile path found))
        return (index.withRegistry kind ended.registry, true) := by
  cases hUpdate : (index.registry kind).startUpdate path text with
  | mk registry update =>
    cases update with
    | none => simp [updateKind, hUpdate, RegistryRun.start, RegistryRun.step, RegistryRun.inFlight?]
    | some update =>
      simp [updateKind, hUpdate, RegistryRun.start, RegistryRun.step, RegistryRun.inFlight?]

end PhoenixLens
