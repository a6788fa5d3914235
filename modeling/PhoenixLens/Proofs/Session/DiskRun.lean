import PhoenixLens.Proofs.Path.Disk
import PhoenixLens.Proofs.Session.Files

/-!
# A session beside the disk

A session learns of the disk from a scan, from what the editor tells of changes, and when a document
is closed. In each case it reads the file later, and an update begins with the text still later. A
parse looks at the disk at any time before it ends. Changes are told in their order, but any number
of other things may happen before.
-/

namespace PhoenixLens

variable {m : Type → Type}

/-! ### Parses -/

/-- What a parse of a text may find with a disk beside it. -/
abbrev DiskParses := Disk → Parses

namespace DiskParses

/-- What a parse may find with some disk. -/
def ever (parses : DiskParses) : Parses := fun kind path text found =>
  ∃ disk, parses disk kind path text found

/-- What parses of the file find with the one disk they may find with the other one, too. -/
def Carries (parses : DiskParses) (kind : EntityKind) (path : Path) (disk other : Disk) : Prop :=
  ∀ spelling text found, Path.same spelling path = true →
    parses disk kind spelling text found → parses other kind spelling text found

variable {parses : DiskParses} {kind : EntityKind} {path : Path} {disk other : Disk}

theorem carries_refl (parses : DiskParses) (kind : EntityKind) (path : Path) (disk : Disk) :
    parses.Carries kind path disk disk := fun _ _ _ _ hFound => hFound

theorem Carries.trans (h : parses.Carries kind path disk other) {later : Disk}
    (hLater : parses.Carries kind path other later) : parses.Carries kind path disk later :=
  fun spelling text found hSame hFound =>
    hLater spelling text found hSame (h spelling text found hSame hFound)

end DiskParses

/-! ### Acts -/

/-- What happens to a session and to the files on disk. -/
inductive DiskAct where
  | serves (act : FileAct)
  /-- A file changes, and the disk with it; the editor will tell of it. -/
  | changes (uri : Uri) (change : FileChange) (before after : Disk)
  | tells (uri : Uri) (change : FileChange)
  /-- A file is read for an update. -/
  | reads (kind : EntityKind) (path : Path)
  /-- A file is to be read and is not there. -/
  | misses (kind : EntityKind) (path : Path)
  /-- An update begins with a text that has been read and no longer stands on disk. -/
  | lags (kind : EntityKind) (path : Path) (text : String)
deriving DecidableEq

namespace DiskAct

/-- The text that comes from the editor or from the disk. -/
def text? : DiskAct → Option String
  | serves act => act.text?
  | lags _ _ text => some text
  | _ => none

/-- The path by which a file is named that the disk or the editor has changed. -/
def path? : DiskAct → Option Path
  | serves (.closes uri) | changes uri _ _ _ | tells uri _ => uri.toPath?
  | serves (.loads _ path _) | serves (.renews path) => some path
  | serves _ => none
  | reads _ path | misses _ path | lags _ path _ => some path

def tellsDeletion (path : Path) : DiskAct → Bool
  | tells uri .deleted => uri.toPath? == some path
  | _ => false

/-- An update begins with what stands on disk, or the file is forgotten. -/
def restores (kind : EntityKind) (path : Path) : DiskAct → Bool
  | serves (.loads other file _) => other == kind && file == path
  | act => act.tellsDeletion path

theorem tellsDeletion_of_restores {kind : EntityKind} {path : Path} {act : DiskAct}
    (h : act.restores kind path = false) : act.tellsDeletion path = false := by
  cases act with
  | serves act => rfl
  | _ => exact h

/-- What the registry knows of the file is forgotten. -/
def forgets (kind : EntityKind) (path : Path) : DiskAct → Bool
  | serves (.renews file) => kind == .templates && file == path
  | act => act.tellsDeletion path

def lagsBehind (kind : EntityKind) (path : Path) : DiskAct → Bool
  | lags other file _ => other == kind && file == path
  | _ => false

/-- The disk changes so that parses of the file may find something else. -/
def Disturbs (parses : DiskParses) (kind : EntityKind) (path : Path) : DiskAct → Prop
  | changes _ _ before after => ¬parses.Carries kind path before after
  | _ => False

/-- The file has been looked for in vain since its deletion was told. -/
def Missed (kind : EntityKind) (path : Path) (acts : List DiskAct) : Prop :=
  Since (·.tellsDeletion path) (· = .misses kind path) acts

/-- Of the updates that have begun with texts from disk, a late one was the last. -/
def Lagged (kind : EntityKind) (path : Path) (acts : List DiskAct) : Prop :=
  Since (·.restores kind path) (·.lagsBehind kind path = true) acts

/-- Something that parses look at has changed and the file has not been forgotten since. -/
def Disturbed (parses : DiskParses) (kind : EntityKind) (path : Path) (acts : List DiskAct) :
    Prop :=
  Since (·.forgets kind path) (·.Disturbs parses kind path) acts

/-- Only the scanner for templates looks at the disk. -/
theorem not_disturbed_of_ne_templates {kind : EntityKind} (hKind : kind ≠ .templates) (path : Path)
    (acts : List DiskAct) : ¬Disturbed scannedParses kind path acts := by
  rintro ⟨act, _, hDisturbs⟩
  cases act with
  | changes =>
    refine hDisturbs fun spelling text found _ hFound => ?_
    cases kind with
    | templates => exact absurd rfl hKind
    | _ => exact hFound
  | _ => exact hDisturbs

instance (kind : EntityKind) (path : Path) (acts : List DiskAct) :
    Decidable (Missed kind path acts) := inferInstanceAs (Decidable (Since _ _ _))

instance (kind : EntityKind) (path : Path) (acts : List DiskAct) :
    Decidable (Lagged kind path acts) := inferInstanceAs (Decidable (Since _ _ _))

end DiskAct

/-! ### Steps -/

/-- A session with everything that is under way, and the disk. -/
structure DiskRun (m : Type → Type) where
  server : EditRun m
  disk : Disk
  /-- The changes that the editor has not told yet, in order. -/
  untold : List (Uri × FileChange) := []
  /-- The files that are still to be read, by kind. -/
  wanted : List (EntityKind × Path) := []
  /-- What has been read, for updates that have not begun. -/
  held : List (EntityKind × Path × String) := []
  /-- The disks that there have been since an update began, by kind and number. -/
  views : EntityKind → List (List Disk) := fun _ => []

namespace DiskRun

def settled (run : DiskRun m) : Prop :=
  run.server.settled ∧ run.untold = [] ∧ run.wanted = [] ∧ run.held = []

/-- The readings of a file: one for every registry that takes it. -/
def readings (path : Path) : List (EntityKind × Path) :=
  (EntityKind.all.filter (·.takes path)).map (·, path)

theorem mem_readings {kind : EntityKind} {path : Path} (hTakes : kind.takes path = true) :
    (kind, path) ∈ readings path := by
  simp [readings, EntityKind.mem_all, hTakes]

def want (run : DiskRun m) (path : Path) : DiskRun m :=
  { run with wanted := readings path ++ run.wanted }

/-- A scan of the project has begun. -/
def scan (session : Session m) (disk : Disk) (root : Path) : DiskRun m :=
  { server := { session }, disk
    wanted := (collectFiles disk session.filter root).flatMap readings }

/-- The session goes on; an update that begins has seen the present disk only. -/
def proceed (run : DiskRun m) (server : EditRun m) : DiskRun m :=
  { run with
    server
    views := fun kind =>
      run.views kind ++
        List.replicate ((server.updates kind).length - (run.views kind).length) [run.disk] }

def close (run : DiskRun m) (uri : Uri) : DiskRun m :=
  let closed := { run with server := run.server.close uri }
  match uri.toPath?.filter run.server.session.tracks with
  | some path => closed.want path
  | none => closed

/-- A file changes, and the editor will tell of it. -/
def change (run : DiskRun m) (uri : Uri) (change : FileChange) (disk : Disk) : DiskRun m :=
  { run with
    disk
    untold := run.untold ++ [(uri, change)]
    views := fun kind => (run.views kind).map (disk :: ·) }

def renew (run : DiskRun m) (path : Path) : DiskRun m :=
  { run with
    server := run.server.renew path
    wanted := (.templates, path) :: run.wanted }

def read (run : DiskRun m) (kind : EntityKind) (path : Path) (text : String) : DiskRun m :=
  { run with
    wanted := run.wanted.erase (kind, path)
    held := (kind, path, text) :: run.held }

def miss (run : DiskRun m) (kind : EntityKind) (path : Path) : DiskRun m :=
  { run with wanted := run.wanted.erase (kind, path) }

def load (run : DiskRun m) (kind : EntityKind) (path : Path) (text : String) : DiskRun m :=
  { run.proceed (run.server.load kind path text) with
    held := run.held.erase (kind, path, text) }

def finish (run : DiskRun m) (kind : EntityKind) (number : Nat) (entities : List kind.Entity) :
    DiskRun m :=
  { run with server := run.server.finish kind number entities }

/-- A document that is closed may have a file to be read, and nothing else changes. -/
theorem close_eq (run : DiskRun m) (uri : Uri) :
    ∃ wanted, run.wanted ⊆ wanted ∧
      (∀ path, uri.toPath? = some path → run.server.session.tracks path = true →
        readings path ⊆ wanted) ∧
      run.close uri = { run with server := run.server.close uri, wanted } := by
  unfold close
  split
  · rename_i path hFile
    refine ⟨readings path ++ run.wanted, List.subset_append_right _ _, ?_, rfl⟩
    intro other hOther _
    rw [hOther, Option.filter_eq_some_iff, Option.some.injEq] at hFile
    rw [hFile.1]
    exact List.subset_append_left _ _
  · rename_i hFile
    refine ⟨run.wanted, List.Subset.refl _, ?_, rfl⟩
    intro path hPath hTracks
    exact absurd hTracks (Option.filter_eq_none_iff.mp hFile path hPath)

/-- The editor tells of a change. The file of an open document is not read. -/
def tell (run : DiskRun m) (uri : Uri) (change : FileChange) : DiskRun m :=
  match uri.toPath?.filter run.server.session.tracks with
  | some path =>
    if change == .deleted then { run with server := run.server.remove path }
    else if run.server.session.isOpen uri then run
    else run.want path
  | none => run

/-- A change that is told makes the session forget the file or read it later, or it is of no
account. -/
theorem tell_cases (run : DiskRun m) (uri : Uri) (change : FileChange) :
    (∃ path, uri.toPath? = some path ∧ run.server.session.tracks path = true ∧
      change = .deleted ∧ run.tell uri change = { run with server := run.server.remove path }) ∨
    (∃ path, uri.toPath? = some path ∧ run.server.session.tracks path = true ∧
      change ≠ .deleted ∧ run.tell uri change = run.want path) ∨
    (∀ path, uri.toPath? = some path → run.server.session.tracks path = true →
      change ≠ .deleted ∧ run.server.session.isOpen uri = true) ∧ run.tell uri change = run := by
  unfold tell
  split
  · rename_i path hFile
    obtain ⟨hPath, hTracks⟩ := Option.filter_eq_some_iff.mp hFile
    split
    · rename_i hDeleted
      exact .inl ⟨path, hPath, hTracks, beq_iff_eq.mp hDeleted, rfl⟩
    · rename_i hDeleted
      rw [beq_iff_eq] at hDeleted
      split
      · rename_i hOpen
        exact .inr (.inr ⟨fun _ _ _ => ⟨hDeleted, hOpen⟩, rfl⟩)
      · exact .inr (.inl ⟨path, hPath, hTracks, hDeleted, rfl⟩)
  · rename_i hFile
    refine .inr (.inr ⟨?_, rfl⟩)
    intro path hPath hTracks
    exact absurd hTracks (Option.filter_eq_none_iff.mp hFile path hPath)

@[simp] theorem untold_tell (run : DiskRun m) (uri : Uri) (change : FileChange) :
    (run.tell uri change).untold = run.untold := by
  rcases run.tell_cases uri change with ⟨_, _, _, _, h⟩ | ⟨_, _, _, _, h⟩ | ⟨_, h⟩
  · rw [h]
  · rw [h, want]
  · rw [h]

@[simp] theorem disk_tell (run : DiskRun m) (uri : Uri) (change : FileChange) :
    (run.tell uri change).disk = run.disk := by
  rcases run.tell_cases uri change with ⟨_, _, _, _, h⟩ | ⟨_, _, _, _, h⟩ | ⟨_, h⟩
  · rw [h]
  · rw [h, want]
  · rw [h]

end DiskRun

/-- One step of a session with the disk. -/
inductive DiskStep (parses : DiskParses) : DiskAct → DiskRun m → DiskRun m → Prop where
  | serves {run : DiskRun m} {act : FileAct} {next : EditRun m} (hOwn : act.isOwn = true)
      (hStep : ∀ parses, FileStep parses act run.server next) :
      DiskStep parses (.serves act) run (run.proceed next)
  | parses {run : DiskRun m} {kind : EntityKind} {number : Nat} {update : PendingUpdate}
      {text : String} {found : List kind.Entity} {disks : List Disk} {disk : Disk}
      (hUpdate : (run.server.registryRun kind).inFlight? number = some update)
      (hText : (run.server.texts kind)[number]? = some text)
      (hDisks : (run.views kind)[number]? = some disks) (hDisk : disk ∈ disks)
      (hFound : parses disk kind update.path text found) :
      DiskStep parses (.serves .proceeds) run
        (run.finish kind number (kind.ofFile update.path found))
  | closes {run : DiskRun m} (uri : Uri) :
      DiskStep parses (.serves (.closes uri)) run (run.close uri)
  | changes {run : DiskRun m} {uri : Uri} {path : Path} {change : FileChange} {disk : Disk}
      (hPath : uri.toPath? = some path)
      (hElsewhere : ∀ other : Path, other.GoesDown → other.same path = false →
        disk.read? other = run.disk.read? other)
      (hChange : change = .deleted ↔ disk.read? path = none) :
      DiskStep parses (.changes uri change run.disk disk) run (run.change uri change disk)
  | tells {run : DiskRun m} {uri : Uri} {change : FileChange} {later : List (Uri × FileChange)}
      (hUntold : run.untold = (uri, change) :: later) :
      DiskStep parses (.tells uri change) run ({ run with untold := later }.tell uri change)
  | renews {run : DiskRun m} (path : Path) :
      DiskStep parses (.serves (.renews path)) run (run.renew path)
  | reads {run : DiskRun m} {kind : EntityKind} {path : Path} {text : String}
      (hWanted : (kind, path) ∈ run.wanted) (hText : run.disk.read? path = some text) :
      DiskStep parses (.reads kind path) run (run.read kind path text)
  | misses {run : DiskRun m} {kind : EntityKind} {path : Path}
      (hWanted : (kind, path) ∈ run.wanted) (hText : run.disk.read? path = none) :
      DiskStep parses (.misses kind path) run (run.miss kind path)
  | loads {run : DiskRun m} {kind : EntityKind} {path : Path} {text : String}
      (hHeld : (kind, path, text) ∈ run.held) (hText : run.disk.read? path = some text) :
      DiskStep parses (.serves (.loads kind path text)) run (run.load kind path text)
  | lags {run : DiskRun m} {kind : EntityKind} {path : Path} {text : String}
      (hHeld : (kind, path, text) ∈ run.held) (hText : run.disk.read? path ≠ some text) :
      DiskStep parses (.lags kind path text) run (run.load kind path text)

/-- A parse ends that has found what its scanner finds. -/
theorem DiskStep.scans {run : DiskRun m} {kind : EntityKind} {number : Nat}
    {update : PendingUpdate} {text : String} {disks : List Disk} {disk : Disk}
    (hUpdate : (run.server.registryRun kind).inFlight? number = some update)
    (hText : (run.server.texts kind)[number]? = some text)
    (hDisks : (run.views kind)[number]? = some disks) (hDisk : disk ∈ disks) :
    DiskStep scannedParses (.serves .proceeds) run
      (run.finish kind number
        (kind.ofFile update.path (kind.scan disk update.path text.toList))) :=
  .parses hUpdate hText hDisks hDisk rfl

/-- Any number of steps, with what has happened, in order. -/
inductive DiskSteps (parses : DiskParses) (first : DiskRun m) : List DiskAct → DiskRun m → Prop where
  | none : DiskSteps parses first [] first
  | more {acts : List DiskAct} {act : DiskAct} {run next : DiskRun m}
      (hSteps : DiskSteps parses first acts run) (hStep : DiskStep parses act run next) :
      DiskSteps parses first (acts ++ [act]) next

/-! ### What the session does in a step -/

/-- The session stands still or takes a step of its own, with the text that comes in. -/
theorem DiskStep.server_cases {parses : DiskParses} {act : DiskAct} {run next : DiskRun m}
    (h : DiskStep parses act run next) :
    next.server = run.server ∨
      ∃ step, FileStep parses.ever step run.server next.server ∧ step.text? = act.text? := by
  cases h with
  | serves _ hStep => exact .inr ⟨_, hStep _, rfl⟩
  | parses hUpdate hText _ _ hFound =>
    exact .inr ⟨.proceeds, .parses hUpdate hText ⟨_, hFound⟩, rfl⟩
  | closes uri =>
    obtain ⟨_, _, _, hClose⟩ := run.close_eq uri
    rw [hClose]
    exact .inr ⟨.closes uri, .closes uri, rfl⟩
  | @tells _ uri change later hUntold =>
    rcases DiskRun.tell_cases { run with untold := later } uri change with
      ⟨path, _, _, _, hTell⟩ | ⟨_, _, _, _, hTell⟩ | ⟨_, hTell⟩
    · rw [hTell]
      exact .inr ⟨.removes path, .removes path, rfl⟩
    · rw [hTell]
      exact .inl rfl
    · rw [hTell]
      exact .inl rfl
  | renews path => exact .inr ⟨_, .renews path, rfl⟩
  | loads => exact .inr ⟨_, .loads _ _ _, rfl⟩
  | lags => exact .inr ⟨_, .loads _ _ _, rfl⟩
  | changes => exact .inl rfl
  | reads => exact .inl rfl
  | misses => exact .inl rfl

/-- Entities are stored with a digest only. -/
def FileRegistry.Paired {α : Type} (registry : FileRegistry α) : Prop :=
  ∀ path, (registry.stored path).2 = none → registry.stored path = (none, none)

theorem RegistryRun.paired_step {α : Type} {run : RegistryRun α} (h : run.registry.Paired)
    (event : RegistryEvent α) : (run.step event).registry.Paired := by
  intro path hDigest
  rcases stored_step run event path with
    ⟨hKept, _⟩ | ⟨_, _, _, hForgotten⟩ | ⟨_, _, _, _, _, _, _, hTaken⟩
  · rw [hKept] at hDigest ⊢
    exact h path hDigest
  · exact hForgotten
  · rw [hTaken] at hDigest
    cases hDigest

theorem FileStep.paired {parses : Parses} {act : FileAct} {run next : EditRun m}
    (hStep : FileStep parses act run next) {kind : EntityKind}
    (h : (run.registryRun kind).registry.Paired) :
    (next.registryRun kind).registry.Paired := by
  rcases hStep.registryRun_cases kind with hSame | ⟨event, hEvent, _⟩ | ⟨_, hClear⟩
  · rwa [hSame]
  · rw [hEvent]
    exact RegistryRun.paired_step h event
  · rw [hClear]
    exact fun _ _ => rfl

namespace DiskRun

variable {parses : DiskParses} {known : Set String} {session : Session m} {act : DiskAct}
  {run next : DiskRun m} {kind : EntityKind} {path : Path}

/-- The session is sound, stores entities with digests only, and every update has its disks. -/
structure Sound (parses : DiskParses) (known : Set String) (session : Session m)
    (run : DiskRun m) : Prop where
  server : run.server.Sound parses.ever known session
  paired : ∀ kind, (run.server.registryRun kind).registry.Paired
  views : ∀ kind, (run.views kind).length = (run.server.updates kind).length

theorem views_proceed {server : EditRun m} {number : Nat} {disks : List Disk}
    (h : ((run.proceed server).views kind)[number]? = some disks) :
    (run.views kind)[number]? = some disks ∨ disks = [run.disk] := by
  simp only [proceed] at h
  rcases Nat.lt_or_ge number (run.views kind).length with hOld | hNew
  · rw [List.getElem?_append_left hOld] at h
    exact .inl h
  · rw [List.getElem?_append_right hNew] at h
    exact .inr (List.eq_of_mem_replicate (List.mem_of_getElem? h))

theorem length_views_proceed {server : EditRun m}
    (h : (run.views kind).length = (run.server.updates kind).length) {parses : Parses}
    {step : FileAct} (hStep : FileStep parses step run.server server) :
    ((run.proceed server).views kind).length = (server.updates kind).length := by
  have hLonger : (run.server.updates kind).length ≤ (server.updates kind).length := by
    rcases hStep.registryRun_cases kind with hSame | ⟨event, hEvent, _⟩ | ⟨_, hClear⟩
    · exact (congrArg (·.updates.length) hSame).ge
    · have hLength := congrArg (·.updates.length) hEvent
      rw [RegistryRun.length_updates_step] at hLength
      exact Nat.le.intro hLength.symm
    · exact (congrArg (·.updates.length) hClear).ge
  simp only [proceed, List.length_append, List.length_replicate]
  omega

theorem length_views_step (h : ∀ kind, (run.views kind).length = (run.server.updates kind).length)
    (hStep : DiskStep parses act run next) (kind : EntityKind) :
    (next.views kind).length = (next.server.updates kind).length := by
  cases hStep with
  | serves _ hStep => exact length_views_proceed (h kind) (hStep parses.ever)
  | @loads _ other path text =>
    have hLoad := @FileStep.loads _ parses.ever run.server other path text
    exact length_views_proceed (h kind) hLoad
  | @lags _ other path text =>
    have hLoad := @FileStep.loads _ parses.ever run.server other path text
    exact length_views_proceed (h kind) hLoad
  | parses => exact (h kind).trans (run.server.length_updates_finish _ _ _ kind).symm
  | closes uri =>
    obtain ⟨_, _, _, hClose⟩ := run.close_eq uri
    rw [hClose]
    exact h kind
  | changes => simpa [change] using h kind
  | @tells _ uri change later _ =>
    rcases tell_cases { run with untold := later } uri change with
      ⟨_, _, _, _, hTell⟩ | ⟨_, _, _, _, hTell⟩ | ⟨_, hTell⟩
    · rw [hTell]
      exact h kind
    · rw [hTell]
      exact h kind
    · rw [hTell]
      exact h kind
  | _ => exact h kind

theorem Sound.step (h : run.Sound parses known session)
    (hKnown : ∀ text, act.text? = some text → text ∈ known) (hStep : DiskStep parses act run next) :
    next.Sound parses known session := by
  have hViews := length_views_step h.views hStep
  rcases hStep.server_cases with hSame | ⟨step, hServer, hText⟩
  · exact ⟨hSame ▸ h.server, hSame ▸ h.paired, hViews⟩
  · rw [← hText] at hKnown
    exact ⟨h.server.step hKnown hServer, fun kind => hServer.paired (h.paired kind), hViews⟩

/-! ### What parses have seen -/

/-- What is stored of a file, and what is awaited, is what parses find with the present disk. -/
structure Fresh (parses : DiskParses) (known : Set String) (kind : EntityKind) (path : Path)
    (run : DiskRun m) : Prop where
  awaited : ∀ number update disks, (run.server.registryRun kind).inFlight? number = some update →
    update.path.same path = true →
    (run.server.registryRun kind).registry.generation path = update.generation →
    (run.views kind)[number]? = some disks →
    ∀ disk ∈ disks, parses.Carries kind path disk run.disk
  stored : ∀ digest, ((run.server.registryRun kind).registry.stored path).2 = some digest →
    ∃ text ∈ known, Text.contentDigest text = digest ∧
      ∃ spelling found, Path.same spelling path = true ∧
        parses run.disk kind spelling text found ∧
        ((run.server.registryRun kind).registry.stored path).1 = some (kind.ofFile spelling found)

namespace Fresh

theorem of_eq (h : run.Fresh parses known kind path)
    (hRegistry : next.server.registryRun kind = run.server.registryRun kind)
    (hDisk : next.disk = run.disk)
    (hViews : ∀ (number : Nat) (disks : List Disk), (next.views kind)[number]? = some disks →
      (run.views kind)[number]? = some disks ∨ disks = [run.disk]) :
    next.Fresh parses known kind path := by
  refine ⟨?_, ?_⟩
  · intro number update disks hUpdate hPath hGeneration hDisks disk hMem
    rw [hRegistry] at hUpdate hGeneration
    rw [hDisk]
    rcases hViews number disks hDisks with hOld | hNew
    · exact h.awaited number update disks hUpdate hPath hGeneration hOld disk hMem
    · rw [hNew] at hMem
      rw [List.mem_singleton.mp hMem]
      exact parses.carries_refl kind path _
  · rw [hRegistry, hDisk]
    exact h.stored

/-- An update begins, or a file is forgotten. -/
theorem of_step (h : run.Fresh parses known kind path) (hSound : run.Sound parses known session)
    {event : RegistryEvent kind.Entity}
    (hEvent : next.server.registryRun kind = (run.server.registryRun kind).step event)
    (hOpen : ∀ number entities, event ≠ .ends number entities) (hDisk : next.disk = run.disk)
    (hViews : ∀ (number : Nat) (disks : List Disk), (next.views kind)[number]? = some disks →
      (run.views kind)[number]? = some disks ∨ disks = [run.disk]) :
    next.Fresh parses known kind path := by
  refine ⟨?_, ?_⟩
  · intro number update disks hUpdate hPath hGeneration hDisks disk hMem
    rw [hDisk]
    rw [hEvent] at hUpdate hGeneration
    rw [RegistryRun.generation_step] at hGeneration
    rcases hViews number disks hDisks with hOld | hNew
    · rcases RegistryRun.inFlight?_step hUpdate with hUpdate | ⟨_, _, _, hLast, _⟩
      -- an update that is still awaited was so before
      · have hBound := ((hSound.server.backed kind).wellFormed number update hUpdate).2
        rw [FileRegistry.generation_congr _ hPath] at hBound
        exact h.awaited number update disks hUpdate hPath (by omega) hOld disk hMem
      · have hNumber := (List.getElem?_eq_some_iff.mp hOld).1
        rw [hSound.views] at hNumber
        exact absurd hLast (Nat.ne_of_lt hNumber)
    · rw [hNew] at hMem
      rw [List.mem_singleton.mp hMem]
      exact parses.carries_refl kind path _
  · intro digest hDigest
    rw [hDisk]
    rw [hEvent] at hDigest ⊢
    rcases RegistryRun.stored_step (run.server.registryRun kind) event path with
      ⟨hKept, _⟩ | ⟨_, _, _, hForgotten⟩ | ⟨number, entities, _, hEnds, _⟩
    · rw [hKept] at hDigest ⊢
      exact h.stored digest hDigest
    · rw [hForgotten] at hDigest
      cases hDigest
    · exact absurd hEnds (hOpen number entities)

/-- A parse ends that has seen one of the disks of its update. -/
theorem finish (h : run.Fresh parses known kind path) (hSound : run.Sound parses known session)
    {number : Nat} {update : PendingUpdate} {text : String} {found : List kind.Entity}
    {disks : List Disk} {disk : Disk}
    (hUpdate : (run.server.registryRun kind).inFlight? number = some update)
    (hText : (run.server.texts kind)[number]? = some text)
    (hDisks : (run.views kind)[number]? = some disks) (hDisk : disk ∈ disks)
    (hFound : parses disk kind update.path text found) :
    (run.finish kind number (kind.ofFile update.path found)).Fresh parses known kind path := by
  have hBacked := hSound.server.backed kind
  refine ⟨?_, ?_⟩
  · intro other later laterDisks hLater hPath hGeneration
    rw [DiskRun.finish, EditRun.registryRun_finish] at hLater hGeneration
    rw [RegistryRun.generation_step] at hGeneration
    rcases RegistryRun.inFlight?_step hLater with hOld | ⟨_, _, hEvent, _⟩
    · exact h.awaited other later laterDisks hOld hPath hGeneration
    · cases hEvent
  · intro digest hDigest
    rw [DiskRun.finish, EditRun.registryRun_finish] at hDigest ⊢
    rcases RegistryRun.stored_step (run.server.registryRun kind)
      (.ends number (kind.ofFile update.path found)) path with
      ⟨hKept, _⟩ | ⟨_, hEvent, _⟩ | ⟨_, _, ended, hEvent, hEnded, hCommits, hPath, hTaken⟩
    · rw [hKept] at hDigest ⊢
      exact h.stored digest hDigest
    · cases hEvent
    · cases hEvent
      rw [hUpdate] at hEnded
      cases hEnded
      obtain ⟨_, hCurrent, hGeneration⟩ :=
        (RegistryRun.commits_iff hBacked.wellFormed).mp hCommits
      rw [hUpdate] at hCurrent
      cases hCurrent
      rw [FileRegistry.generation_congr _ hPath] at hGeneration
      obtain ⟨_, hKnown, hKnownText, hOf⟩ := hBacked.update number update hUpdate
      rw [hText] at hKnownText
      cases hKnownText
      have hCarries := h.awaited number update disks hUpdate hPath hGeneration hDisks disk hDisk
      rw [hTaken] at hDigest ⊢
      exact ⟨text, hKnown, hOf.symm.trans (Option.some.inj hDigest), update.path, found, hPath,
        hCarries update.path text found hPath hFound, rfl⟩

theorem change (h : run.Fresh parses known kind path) {disk : Disk}
    (hCarries : parses.Carries kind path run.disk disk) (uri : Uri) (change : FileChange) :
    (run.change uri change disk).Fresh parses known kind path := by
  refine ⟨?_, ?_⟩
  · intro number update disks hUpdate hPath hGeneration hDisks other hOther
    rw [DiskRun.change, List.getElem?_map, Option.map_eq_some_iff] at hDisks
    obtain ⟨old, hOld, rfl⟩ := hDisks
    rcases List.mem_cons.mp hOther with rfl | hSeen
    · exact parses.carries_refl kind path _
    · exact (h.awaited number update old hUpdate hPath hGeneration hOld other hSeen).trans hCarries
  · intro digest hDigest
    obtain ⟨text, hKnown, hText, spelling, found, hSame, hFound, hStored⟩ := h.stored digest hDigest
    exact ⟨text, hKnown, hText, spelling, found, hSame,
      hCarries spelling text found hSame hFound, hStored⟩

/-- Whatever parses have seen before, a file that is forgotten is known afresh. -/
theorem of_removes (hSound : run.Sound parses known session) {file : Path}
    (hSame : file.same path = true)
    (hRemoves : next.server.registryRun kind =
      (run.server.registryRun kind).step (.removes file)) :
    next.Fresh parses known kind path := by
  refine ⟨?_, ?_⟩
  · intro number update _ hUpdate hPath hGeneration
    rw [hRemoves] at hUpdate hGeneration
    rcases RegistryRun.inFlight?_step hUpdate with hOld | ⟨_, _, hEvent, _⟩
    · have hBound := ((hSound.server.backed kind).wellFormed number update hOld).2
      have hSupersedes : (RegistryEvent.removes file : RegistryEvent kind.Entity).supersedes path =
          true := hSame
      rw [FileRegistry.generation_congr _ hPath] at hBound
      rw [RegistryRun.generation_step, hSupersedes, Bool.toNat_true] at hGeneration
      omega
    · cases hEvent
  · intro digest hDigest
    rw [hRemoves, RegistryRun.step, FileRegistry.stored_remove, if_pos hSame] at hDigest
    cases hDigest

theorem load (h : run.Fresh parses known kind path) (hSound : run.Sound parses known session)
    (other : EntityKind) (file : Path) (text : String) :
    (run.load other file text).Fresh parses known kind path := by
  by_cases hKind : kind = other
  · cases hKind
    exact h.of_step hSound (run.server.registryRun_load kind file text) nofun rfl
      fun _ _ => views_proceed
  · exact h.of_eq (run.server.registryRun_load_of_ne hKind file text) rfl
      fun _ _ => views_proceed

theorem remove (h : run.Fresh parses known kind path) (hSound : run.Sound parses known session)
    (file : Path) (untold : List (Uri × FileChange)) :
    Fresh parses known kind path { run with server := run.server.remove file, untold } :=
  h.of_step hSound (run.server.registryRun_remove file kind) nofun rfl fun _ _ => .inl

theorem step (h : run.Fresh parses known kind path) (hSound : run.Sound parses known session)
    (hSteady : ¬act.Disturbs parses kind path) (hStep : DiskStep parses act run next) :
    next.Fresh parses known kind path := by
  cases hStep with
  | serves hOwn hStep =>
    rcases FileStep.registryRun_own hStep hOwn kind with hSame | ⟨_, _, hBegins⟩
    · exact h.of_eq hSame rfl fun _ _ => views_proceed
    · exact h.of_step hSound hBegins nofun rfl fun _ _ => views_proceed
  | @parses _ other number _ _ _ _ _ hUpdate hText hDisks hDisk hFound =>
    by_cases hKind : kind = other
    · cases hKind
      exact h.finish hSound hUpdate hText hDisks hDisk hFound
    · exact h.of_eq (run.server.registryRun_finish_of_ne hKind number _) rfl fun _ _ => .inl
  | closes uri =>
    obtain ⟨_, _, _, hClose⟩ := run.close_eq uri
    rw [hClose]
    exact h.of_eq rfl rfl fun _ _ => .inl
  | changes => exact h.change (not_not.mp hSteady) _ _
  | @tells _ uri change later _ =>
    rcases tell_cases { run with untold := later } uri change with
      ⟨file, _, _, _, hTell⟩ | ⟨_, _, _, _, hTell⟩ | ⟨_, hTell⟩
    · rw [hTell]
      exact h.remove hSound file later
    · rw [hTell]
      exact h.of_eq rfl rfl fun _ _ => .inl
    · rw [hTell]
      exact h.of_eq rfl rfl fun _ _ => .inl
  | renews file =>
    by_cases hKind : kind = .templates
    · cases hKind
      exact h.of_step hSound (run.server.registryRun_renew file) nofun rfl fun _ _ => .inl
    · exact h.of_eq (run.server.registryRun_renew_of_ne hKind file) rfl fun _ _ => .inl
  | loads => exact h.load hSound _ _ _
  | lags => exact h.load hSound _ _ _
  | reads => exact h.of_eq rfl rfl fun _ _ => .inl
  | misses => exact h.of_eq rfl rfl fun _ _ => .inl

theorem of_forgets (hSound : run.Sound parses known session) (hTracks : session.tracks path = true)
    (hForgets : act.forgets kind path = true) (hStep : DiskStep parses act run next) :
    next.Fresh parses known kind path := by
  have hSame := Path.same_refl path
  cases hStep with
  | @tells _ uri change later _ =>
    cases change with
    | deleted =>
      have hPath : uri.toPath? = some path := beq_iff_eq.mp hForgets
      rw [← hSound.server.tracks] at hTracks
      rcases tell_cases { run with untold := later } uri .deleted with
        ⟨file, hFile, _, _, hTell⟩ | ⟨_, _, _, hOther, _⟩ | ⟨hKept, _⟩
      · rw [hPath] at hFile
        cases hFile
        rw [hTell]
        exact of_removes hSound hSame (run.server.registryRun_remove path kind)
      · exact absurd rfl hOther
      · exact absurd rfl (hKept path hPath hTracks).1
    | _ => cases hForgets
  | renews file =>
    simp only [DiskAct.forgets, Bool.and_eq_true, beq_iff_eq] at hForgets
    obtain ⟨rfl, rfl⟩ := hForgets
    exact of_removes hSound hSame (run.server.registryRun_renew file)
  | @serves _ own _ hOwn _ =>
    cases own <;> first | cases hForgets | cases hOwn
  | _ => cases hForgets

end Fresh

end DiskRun

end PhoenixLens
