import PhoenixLens.Proofs.Session.DiskRun

/-!
# Closed files and the disk

A closed file is owed a reading, or known by its present content, with two exceptions. If it is not
there when it is read, what its document has left stays until the file is deleted. And if it changes
after it has been read, the update with the old text may be the last one to begin. A list of
templates depends on other files, too: it is up to date if it has been forgotten since these have
changed.
-/

namespace PhoenixLens

variable {m : Type → Type} {parses : DiskParses}

namespace DiskRun

/-! ### Where a file stands -/

/-- The last change of the file that has not been told. -/
def lastUntold? (path : Path) (untold : List (Uri × FileChange)) : Option FileChange :=
  ((untold.filter (·.1.toPath? == some path)).getLast?).map (·.2)

theorem lastUntold?_cons (path : Path) (event : Uri × FileChange)
    (untold : List (Uri × FileChange)) :
    lastUntold? path (event :: untold) = (lastUntold? path untold).or
      (if event.1.toPath? = some path then some event.2 else none) := by
  simp only [lastUntold?, List.filter_cons, beq_iff_eq]
  split
  · cases hLast : (untold.filter (·.1.toPath? == some path)).getLast? with
    | none => simp [List.getLast?_cons, hLast]
    | some last => simp [List.getLast?_cons, hLast]
  · simp

theorem lastUntold?_change (path : Path) (run : DiskRun m) (uri : Uri) (change : FileChange)
    (disk : Disk) :
    lastUntold? path (run.change uri change disk).untold =
      if uri.toPath? = some path then some change else lastUntold? path run.untold := by
  simp only [lastUntold?, DiskRun.change, List.filter_append, List.filter_cons, List.filter_nil,
    beq_iff_eq]
  split
  · simp
  · simp

/-- The session is still to be told of a change, to read the file, or to take what it has read. -/
inductive Owes (kind : EntityKind) (path : Path) (run : DiskRun m) : Prop where
  | untold (h : lastUntold? path run.untold ≠ none)
  | wanted (h : (kind, path) ∈ run.wanted)
  | held {text : String} (h : (kind, path, text) ∈ run.held)
      (hText : run.disk.read? path = some text)

/-- The file has an open document. -/
def IsOpen (run : DiskRun m) (path : Path) : Prop :=
  ∃ uri text other, run.server.session.text? uri = some text ∧ uri.toPath? = some other ∧
    run.server.session.tracks other = true ∧ other.same path = true

/-- What a registry knows of a file, after some acts. -/
inductive Standing (acts : List DiskAct) (kind : EntityKind) (path : Path) (run : DiskRun m) :
    Prop where
  | owed (h : run.Owes kind path)
  | opened (h : run.IsOpen path)
  /-- The file is on its way to its present content, or to nothing if it is not there. -/
  | bound (h : (run.server.registryRun kind).LeadsTo path
      ((run.disk.read? path).map Text.contentDigest))
  | missed (hNone : run.disk.read? path = none) (h : DiskAct.Missed kind path acts)
  | lagged (h : DiskAct.Lagged kind path acts)

/-- The last change that has not been told agrees with the disk. -/
def Tells (run : DiskRun m) (path : Path) : Prop :=
  ∀ change, lastUntold? path run.untold = some change →
    (change = .deleted ↔ run.disk.read? path = none)

variable {known : Set String} {session : Session m} {acts : List DiskAct} {act : DiskAct}
  {run next : DiskRun m} {kind : EntityKind} {path : Path}

theorem IsOpen.of_text? (h : run.IsOpen path)
    (hTracks : next.server.session.tracks = run.server.session.tracks)
    (hText : ∀ uri text, run.server.session.text? uri = some text →
      ∃ later, next.server.session.text? uri = some later) : next.IsOpen path := by
  obtain ⟨uri, text, other, hOpen, hPath, hOther, hSame⟩ := h
  obtain ⟨later, hLater⟩ := hText uri text hOpen
  exact ⟨uri, later, other, hLater, hPath, hTracks ▸ hOther, hSame⟩

theorem Owes.mono (h : run.Owes kind path) (hUntold : next.untold = run.untold)
    (hWanted : run.wanted ⊆ next.wanted) (hHeld : run.held ⊆ next.held)
    (hDisk : next.disk.read? path = run.disk.read? path) : next.Owes kind path := by
  cases h with
  | untold h => exact .untold (hUntold ▸ h)
  | wanted h => exact .wanted (hWanted h)
  | held h hText => exact .held (hHeld h) (hDisk.trans hText)

/-- A step that neither changes the file nor makes up for it. -/
theorem Standing.step (h : run.Standing acts kind path)
    (hDisk : next.disk.read? path = run.disk.read? path)
    (hRestores : act.restores kind path = false)
    (hOwes : run.Owes kind path → next.Owes kind path)
    (hOpen : run.IsOpen path → next.Owes kind path ∨ next.IsOpen path)
    (hLeads : ∀ goal, (run.server.registryRun kind).LeadsTo path goal →
      (next.server.registryRun kind).LeadsTo path goal ∨ next.IsOpen path ∨
        act.lagsBehind kind path = true) :
    next.Standing (acts ++ [act]) kind path := by
  cases h with
  | owed h => exact .owed (hOwes h)
  | opened h => exact (hOpen h).elim .owed .opened
  | bound h =>
    rw [← hDisk] at h
    rcases hLeads _ h with hBound | hOpened | hLags
    · exact .bound hBound
    · exact .opened hOpened
    · exact .lagged (since_concat.mpr ⟨hRestores, .inl hLags⟩)
  | missed hNone h =>
    refine .missed (hDisk ▸ hNone) (since_concat.mpr ⟨?_, .inr h⟩)
    exact DiskAct.tellsDeletion_of_restores hRestores
  | lagged h => exact .lagged (since_concat.mpr ⟨hRestores, .inr h⟩)

namespace Standing

theorem serves (h : run.Standing acts kind path) (hSound : run.Sound parses known session)
    {own : FileAct} (hOwn : own.isOwn = true)
    (hStep : FileStep parses.ever own run.server next.server) (hDisk : next.disk = run.disk)
    (hUntold : next.untold = run.untold) (hWanted : next.wanted = run.wanted)
    (hHeld : next.held = run.held) : next.Standing (acts ++ [.serves own]) kind path := by
  have hRead : next.disk.read? path = run.disk.read? path := by rw [hDisk]
  have hStillOpen : run.IsOpen path → next.IsOpen path := by
    intro hOpen
    refine hOpen.of_text? hStep.tracks_eq ?_
    intro uri text hText
    rw [hStep.text?_eq]
    cases own with
    | edits other new =>
      simp only [FileAct.textAfter]
      split
      · exact ⟨new, rfl⟩
      · exact ⟨text, hText⟩
    | refreshes => exact ⟨text, hText⟩
    | proceeds => exact ⟨text, hText⟩
    | _ => cases hOwn
  have hOvertakes : own.overtakes kind path = false := by
    cases own <;> first | rfl | cases hOwn
  have hRestores : (DiskAct.serves own).restores kind path = false := by
    cases own <;> first | rfl | cases hOwn
  have hOwes : run.Owes kind path → next.Owes kind path := by
    refine (·.mono hUntold ?_ ?_ hRead)
    · rw [hWanted]
      exact List.Subset.refl _
    · rw [hHeld]
      exact List.Subset.refl _
  refine h.step hRead hRestores hOwes (fun hOpen => .inr (hStillOpen hOpen)) ?_
  intro goal hLeads
  by_cases hRefreshes : run.server.Refreshes own path
  · obtain ⟨uri, text, other, rfl, hText, hPath, hTracks, hSame⟩ := hRefreshes
    exact .inr (.inl (hStillOpen ⟨uri, text, other, hText, hPath, hTracks, hSame⟩))
  · exact .inl (hSound.server.leadsTo_step hStep hLeads hOvertakes hRefreshes)

theorem closes (h : run.Standing acts kind path) (hTakes : kind.takes path = true) (uri : Uri)
    (hSpelled : ∀ other, uri.toPath? = some other → other.same path = true → other = path) :
    (run.close uri).Standing (acts ++ [.serves (.closes uri)]) kind path := by
  obtain ⟨wanted, hOld, hNew, hClose⟩ := run.close_eq uri
  rw [hClose]
  refine h.step rfl rfl (·.mono rfl hOld (List.Subset.refl _) rfl) ?_ (fun _ => .inl)
  rintro ⟨other, text, file, hOpen, hPath, hTracks, hSame⟩
  by_cases hOther : uri = other
  -- the document that has kept the file from being read is gone
  · rw [← hOther] at hPath
    have hFile := hSpelled file hPath hSame
    rw [hFile] at hPath hTracks
    exact .inl (.wanted (hNew path hPath hTracks (mem_readings hTakes)))
  · refine .inr ⟨other, text, file, ?_, hPath, hTracks, hSame⟩
    exact (run.server.session.text?_drop uri other).trans ((if_neg hOther).trans hOpen)

/-- A change that is told makes up for the disk, unless the editor has more to tell of the file. -/
theorem tells (h : run.Standing acts kind path) (hSound : run.Sound parses known session)
    (hTells : run.Tells path) (hTracks : session.tracks path = true)
    (hTakes : kind.takes path = true) {uri : Uri} {change : FileChange}
    {later : List (Uri × FileChange)} (hUntold : run.untold = (uri, change) :: later)
    (hSpelled : ∀ other, uri.toPath? = some other → other.same path = true → other = path) :
    ({ run with untold := later }.tell uri change).Standing (acts ++ [DiskAct.tells uri change])
      kind path := by
  have hLast := lastUntold?_cons path (uri, change) later
  rw [← hUntold] at hLast
  rw [← hSound.server.tracks] at hTracks
  cases hLater : lastUntold? path later with
  | some next =>
    refine .owed (.untold ?_)
    rw [untold_tell, hLater]
    nofun
  | none =>
    rw [hLater, Option.none_or] at hLast
    by_cases hUri : uri.toPath? = some path
    · rw [if_pos hUri] at hLast
      have hChange := hTells change hLast
      rcases tell_cases { run with untold := later } uri change with
        ⟨other, hOther, _, hDeleted, hTell⟩ | ⟨other, hOther, _, _, hTell⟩ | ⟨hKept, hTell⟩
      · rw [hUri] at hOther
        cases hOther
        rw [hTell]
        refine .bound ?_
        simp only [hChange.mp hDeleted]
        rw [EditRun.registryRun_remove]
        exact RegistryRun.leadsTo_step_of_supersedes (hSound.server.backed kind).wellFormed
          (Path.same_refl path)
      · rw [hUri] at hOther
        cases hOther
        rw [hTell]
        exact .owed (.wanted (List.mem_append_left _ (mem_readings hTakes)))
      · rw [hTell]
        obtain ⟨text, hText⟩ := Option.isSome_iff_exists.mp (hKept path hUri hTracks).2
        exact .opened ⟨uri, text, path, hText, hUri, hTracks, Path.same_refl path⟩
    · rw [if_neg hUri] at hLast
      have hOwes : ∀ {next : DiskRun m}, run.Owes kind path → run.wanted ⊆ next.wanted →
          next.held = run.held → next.disk = run.disk → next.Owes kind path := by
        intro next hOwes hWanted hHeld hDisk
        cases hOwes with
        | untold h => exact absurd hLast h
        | wanted h => exact .wanted (hWanted h)
        | held h hText => exact .held (hHeld ▸ h) (hDisk ▸ hText)
      have hRestores : (DiskAct.tells uri change).restores kind path = false := by
        cases change <;> simp [DiskAct.restores, DiskAct.tellsDeletion, hUri]
      rcases tell_cases { run with untold := later } uri change with
        ⟨other, hOther, _, _, hTell⟩ | ⟨_, _, _, _, hTell⟩ | ⟨_, hTell⟩
      · rw [hTell]
        refine h.step rfl hRestores (hOwes · (List.Subset.refl _) rfl rfl) .inr ?_
        intro goal hLeads
        refine .inl (hSound.server.leadsTo_step (.removes other) hLeads ?_ ?_)
        · rw [← Bool.not_eq_true]
          intro hSame
          exact hUri (hSpelled other hOther hSame ▸ hOther)
        · rintro ⟨_, _, _, hAct, _⟩
          cases hAct
      · rw [hTell]
        exact h.step rfl hRestores (hOwes · (List.subset_append_right _ _) rfl rfl) .inr
          (fun _ => .inl)
      · rw [hTell]
        exact h.step rfl hRestores (hOwes · (List.Subset.refl _) rfl rfl) .inr (fun _ => .inl)

theorem changes (h : run.Standing acts kind path) (hDown : path.GoesDown) {uri : Uri} {file : Path}
    {change : FileChange} {disk : Disk} (hPath : uri.toPath? = some file)
    (hElsewhere : ∀ other : Path, other.GoesDown → other.same file = false →
      disk.read? other = run.disk.read? other)
    (hSpelled : ∀ other, uri.toPath? = some other → other.same path = true → other = path) :
    (run.change uri change disk).Standing (acts ++ [.changes uri change run.disk disk]) kind
      path := by
  have hLast := lastUntold?_change path run uri change disk
  by_cases hFile : uri.toPath? = some path
  · rw [if_pos hFile] at hLast
    refine .owed (.untold ?_)
    rw [hLast]
    nofun
  · rw [if_neg hFile] at hLast
    have hRead : disk.read? path = run.disk.read? path := by
      refine hElsewhere path hDown ?_
      rw [← Bool.not_eq_true, Path.same_comm]
      intro hSame
      exact hFile (hSpelled file hPath hSame ▸ hPath)
    refine h.step hRead rfl ?_ .inr (fun _ => .inl)
    intro hOwes
    cases hOwes with
    | untold h => exact .untold (hLast ▸ h)
    | wanted h => exact .wanted h
    | held h hText => exact .held h (hRead.trans hText)

theorem renews (h : run.Standing acts kind path) (hSound : run.Sound parses known session)
    (file : Path) (hSpelled : file.same path = true → file = path) :
    (run.renew file).Standing (acts ++ [.serves (.renews file)]) kind path := by
  by_cases hFile : kind = .templates ∧ file = path
  · obtain ⟨rfl, rfl⟩ := hFile
    exact .owed (.wanted List.mem_cons_self)
  · refine h.step rfl rfl (·.mono rfl (List.subset_cons_self _ _) (List.Subset.refl _) rfl) .inr ?_
    intro goal hLeads
    refine .inl (hSound.server.leadsTo_step (.renews file) hLeads ?_ ?_)
    · rw [← Bool.not_eq_true, FileAct.overtakes, Bool.and_eq_true, decide_eq_true_eq]
      exact fun hBoth => hFile ⟨hBoth.1, hSpelled hBoth.2⟩
    · rintro ⟨_, _, _, hAct, _⟩
      cases hAct

theorem reads (h : run.Standing acts kind path) {other : EntityKind} {file : Path} {text : String}
    (hText : run.disk.read? file = some text) :
    (run.read other file text).Standing (acts ++ [.reads other file]) kind path := by
  refine h.step rfl rfl ?_ .inr (fun _ => .inl)
  intro hOwes
  cases hOwes with
  | untold h => exact .untold h
  | wanted h =>
    by_cases hFile : (kind, path) = (other, file)
    · cases hFile
      exact .held List.mem_cons_self hText
    · exact .wanted ((List.mem_erase_of_ne hFile).mpr h)
  | held h hText => exact .held (List.mem_cons_of_mem _ h) hText

theorem misses (h : run.Standing acts kind path) {other : EntityKind} {file : Path}
    (hNone : run.disk.read? file = none) :
    (run.miss other file).Standing (acts ++ [.misses other file]) kind path := by
  by_cases hFile : (kind, path) = (other, file)
  · cases hFile
    exact .missed hNone (since_concat.mpr ⟨rfl, .inl rfl⟩)
  · refine h.step rfl rfl ?_ .inr (fun _ => .inl)
    intro hOwes
    cases hOwes with
    | untold h => exact .untold h
    | wanted h => exact .wanted ((List.mem_erase_of_ne hFile).mpr h)
    | held h hText => exact .held h hText

/-- An update begins. It is of the file if its kind and its path are. -/
theorem leadsTo_load (hSound : run.Sound parses known session) {other : EntityKind} {file : Path}
    (text : String) (hSpelled : file.same path = true → file = path)
    (hFile : ¬(other = kind ∧ file = path)) {goal : Option String}
    (hLeads : (run.server.registryRun kind).LeadsTo path goal) :
    ((run.server.load other file text).registryRun kind).LeadsTo path goal := by
  refine hSound.server.leadsTo_step (.loads other file text) hLeads ?_ ?_
  · rw [← Bool.not_eq_true, FileAct.overtakes, Bool.and_eq_true, decide_eq_true_eq]
    exact fun hBoth => hFile ⟨hBoth.1, hSpelled hBoth.2⟩
  · rintro ⟨_, _, _, hAct, _⟩
    cases hAct

/-- A file is on its way to what stands there if an update begins with that. -/
theorem loads (h : run.Standing acts kind path) (hSound : run.Sound parses known session)
    {other : EntityKind} {file : Path} {text : String} (hText : run.disk.read? file = some text)
    (hSpelled : file.same path = true → file = path) :
    (run.load other file text).Standing (acts ++ [.serves (.loads other file text)]) kind path := by
  by_cases hFile : other = kind ∧ file = path
  · obtain ⟨rfl, rfl⟩ := hFile
    refine .bound ?_
    simp only [load, proceed, hText, EditRun.registryRun_load]
    exact RegistryRun.leadsTo_step_of_supersedes (hSound.server.backed other).wellFormed
      (Path.same_refl file)
  · refine h.step rfl ?_ ?_ .inr
      fun _ hLeads => .inl (leadsTo_load hSound text hSpelled hFile hLeads)
    · simpa [DiskAct.restores] using hFile
    · intro hOwes
      cases hOwes with
      | untold h => exact .untold h
      | wanted h => exact .wanted h
      | held h hHeld =>
        refine .held ((List.mem_erase_of_ne ?_).mpr h) hHeld
        rintro ⟨⟩
        exact hFile ⟨rfl, rfl⟩

theorem lags (h : run.Standing acts kind path) (hSound : run.Sound parses known session)
    {other : EntityKind} {file : Path} {text : String} (hLate : run.disk.read? file ≠ some text)
    (hSpelled : file.same path = true → file = path) :
    (run.load other file text).Standing (acts ++ [.lags other file text]) kind path := by
  refine h.step rfl rfl ?_ .inr ?_
  · intro hOwes
    cases hOwes with
    | untold h => exact .untold h
    | wanted h => exact .wanted h
    | held h hText =>
      refine .held ((List.mem_erase_of_ne ?_).mpr h) hText
      rintro ⟨⟩
      exact hLate hText
  · intro goal hLeads
    by_cases hFile : other = kind ∧ file = path
    · exact .inr (.inr (by simpa [DiskAct.lagsBehind] using hFile))
    · exact .inl (leadsTo_load hSound text hSpelled hFile hLeads)

end Standing

/-! ### What a run preserves -/

/-- What holds of a file after every step. -/
structure Follows (parses : DiskParses) (known : Set String) (session : Session m)
    (acts : List DiskAct) (kind : EntityKind) (path : Path) (run : DiskRun m) : Prop
    extends run.Sound parses known session where
  tells : run.Tells path
  standing : run.Standing acts kind path
  fresh : ¬DiskAct.Disturbed parses kind path acts → run.Fresh parses known kind path

theorem Tells.step (h : run.Tells path) (hDown : path.GoesDown)
    (hStep : DiskStep parses act run next)
    (hSpelled : ∀ other, act.path? = some other → other.same path = true → other = path) :
    next.Tells path := by
  cases hStep with
  | closes uri =>
    obtain ⟨_, _, _, hClose⟩ := run.close_eq uri
    rw [hClose]
    exact h
  | @changes _ uri file change disk hPath hElsewhere hChange =>
    intro last hLast
    rw [lastUntold?_change] at hLast
    split at hLast
    · rename_i hFile
      rw [hPath] at hFile
      cases hFile
      rw [← Option.some.inj hLast]
      exact hChange
    · rename_i hFile
      have hRead : (run.change uri change disk).disk.read? path = run.disk.read? path := by
        refine hElsewhere path hDown ?_
        rw [← Bool.not_eq_true, Path.same_comm]
        intro hSame
        exact hFile (hSpelled file hPath hSame ▸ hPath)
      rw [hRead]
      exact h last hLast
  | @tells _ uri change later hUntold =>
    intro last hLast
    rw [untold_tell] at hLast
    rw [disk_tell]
    refine h last ?_
    rw [hUntold, lastUntold?_cons]
    exact Option.or_eq_some_iff.mpr (.inl hLast)
  | _ => exact h

theorem Follows.step (h : run.Follows parses known session acts kind path)
    (hDown : path.GoesDown) (hTracks : session.tracks path = true) (hTakes : kind.takes path = true)
    (hKnown : ∀ text, act.text? = some text → text ∈ known)
    (hSpelled : ∀ other, act.path? = some other → other.same path = true → other = path)
    (hStep : DiskStep parses act run next) :
    next.Follows parses known session (acts ++ [act]) kind path := by
  refine ⟨h.toSound.step hKnown hStep, h.tells.step hDown hStep hSpelled, ?_, ?_⟩
  · cases hStep with
    | serves hOwn hServer => exact h.standing.serves h.toSound hOwn (hServer _) rfl rfl rfl rfl
    | parses hUpdate hText _ _ hFound =>
      exact h.standing.serves h.toSound rfl (.parses hUpdate hText ⟨_, hFound⟩) rfl rfl rfl rfl
    | closes uri => exact h.standing.closes hTakes uri hSpelled
    | changes hPath hElsewhere => exact h.standing.changes hDown hPath hElsewhere hSpelled
    | tells hUntold => exact h.standing.tells h.toSound h.tells hTracks hTakes hUntold hSpelled
    | renews file => exact h.standing.renews h.toSound file (hSpelled file rfl)
    | reads _ hText => exact h.standing.reads hText
    | misses _ hText => exact h.standing.misses hText
    | loads _ hText => exact h.standing.loads h.toSound hText (hSpelled _ rfl)
    | lags _ hLate => exact h.standing.lags h.toSound hLate (hSpelled _ rfl)
  · intro hDisturbed
    cases hForgets : act.forgets kind path with
    | true => exact Fresh.of_forgets h.toSound hTracks hForgets hStep
    | false =>
      rw [DiskAct.Disturbed, since_concat, not_and, not_or] at hDisturbed
      obtain ⟨hSteady, hBefore⟩ := hDisturbed hForgets
      exact (h.fresh hBefore).step h.toSound hSteady hStep

theorem Follows.start {disk : Disk} {root : Path} (hQuiet : session.pending = [])
    (hDocuments : session.documents = [])
    (hIndex : ∀ kind file, (session.index.registry kind).stored file = (none, none))
    (hTakes : kind.takes path = true)
    (hScanned : path ∈ collectFiles disk session.filter root ∨ disk.read? path = none) :
    (scan session disk root).Follows parses known session [] kind path := by
  have hComesFrom : ∀ kind, (session.index.registry kind).ComesFrom parses.ever known := by
    intro kind file digest hDigest
    rw [hIndex] at hDigest
    cases hDigest
  have hSound : (scan session disk root).Sound parses known session :=
    ⟨.start hQuiet hDocuments hComesFrom, fun kind file _ => hIndex kind file, fun _ => rfl⟩
  refine ⟨hSound, nofun, ?_, fun _ => ⟨?_, ?_⟩⟩
  · rcases hScanned with hFile | hNone
    · exact .owed (.wanted (List.mem_flatMap.mpr ⟨path, hFile, mem_readings hTakes⟩))
    · refine .bound ?_
      have hLeads := RegistryRun.leadsTo_start (session.index.registry kind) path
      rw [hIndex] at hLeads
      simp only [scan, hNone]
      exact hLeads
  · intro number update disks hUpdate
    cases hUpdate
  · intro digest hDigest
    have hNone : ((scan session disk root).server.registryRun kind).registry.stored path =
        (none, none) := hIndex kind path
    rw [hNone] at hDigest
    cases hDigest

theorem Follows.steps (h : run.Follows parses known session [] kind path)
    (hDown : path.GoesDown) (hTracks : session.tracks path = true) (hTakes : kind.takes path = true)
    (hKnown : ∀ act ∈ acts, ∀ text, act.text? = some text → text ∈ known)
    (hSpelled : ∀ act ∈ acts, ∀ other, act.path? = some other → other.same path = true →
      other = path)
    (hSteps : DiskSteps parses run acts next) :
    next.Follows parses known session acts kind path := by
  induction hSteps with
  | none => exact h
  | @more before act _ _ _ hStep ih =>
    have hLast : act ∈ before ++ [act] := List.mem_append_right _ (List.mem_singleton_self _)
    refine Follows.step (ih ?_ ?_) hDown hTracks hTakes (hKnown act hLast) (hSpelled act hLast)
      hStep
    · exact fun act hAct => hKnown act (List.mem_append_left _ hAct)
    · exact fun act hAct => hSpelled act (List.mem_append_left _ hAct)

/-- A file that nothing is under way for, and that has no open document, is known by what stands
on disk, or has been looked for in vain. -/
theorem Standing.of_settled (h : run.Standing acts kind path) (hSettled : run.settled)
    (hClosed : run.server.session.documents = []) (hLagged : ¬DiskAct.Lagged kind path acts) :
    ((run.server.session.index.registry kind).stored path).2 =
        (run.disk.read? path).map Text.contentDigest ∨
      run.disk.read? path = none ∧ DiskAct.Missed kind path acts := by
  obtain ⟨hServer, hUntold, hWanted, hHeld⟩ := hSettled
  cases h with
  | owed h =>
    cases h with
    | untold h =>
      rw [hUntold] at h
      exact absurd rfl h
    | wanted h =>
      rw [hWanted] at h
      cases h
    | held h =>
      rw [hHeld] at h
      cases h
  | opened h =>
    obtain ⟨uri, text, _, hText, _⟩ := h
    rw [Session.text?, hClosed] at hText
    cases hText
  | bound h => exact .inl (h.of_settled (hServer.2.2.2 kind))
  | missed hNone h => exact .inr ⟨hNone, h⟩
  | lagged h => exact absurd h hLagged

end DiskRun

/-- However messages, changes of files, readings, refreshes and the ends of parses follow each other
after a scan has begun: once nothing is under way and no document is open, every registry that takes
a file of the project knows it by what stands on disk, and holds what a parse of that finds with the
present disk. Of a file that is not there nothing is known, unless it has been looked for in vain
since its deletion was told. The digest is assumed to tell texts apart, and the file to be always
called by the same path. Its last update must not have begun late, and what parses look at beside
the file must not have changed since the file was last forgotten. -/
theorem closed_files_mirror_disk {known : Set String} {session : Session m} {disk : Disk}
    {root : Path} {acts : List DiskAct} {run : DiskRun m} (hQuiet : session.pending = [])
    (hDocuments : session.documents = [])
    (hIndex : ∀ kind file, (session.index.registry kind).stored file = (none, none))
    (hSteps : DiskSteps parses (.scan session disk root) acts run)
    (hKnown : ∀ act ∈ acts, ∀ text, act.text? = some text → text ∈ known)
    (hDigests : Set.InjOn Text.contentDigest known) (hSettled : run.settled)
    (hClosed : run.server.session.documents = []) {path : Path} (hDown : path.GoesDown)
    (hTracks : session.tracks path = true)
    (hScanned : path ∈ collectFiles disk session.filter root ∨ disk.read? path = none)
    (hSpelled : ∀ act ∈ acts, ∀ other, act.path? = some other → other.same path = true →
      other = path)
    (hContent : ∀ text, run.disk.read? path = some text → text ∈ known) {kind : EntityKind}
    (hTakes : kind.takes path = true) (hLagged : ¬DiskAct.Lagged kind path acts)
    (hDisturbed : ¬DiskAct.Disturbed parses kind path acts) :
    match run.disk.read? path with
    | some text =>
      ((run.server.session.index.registry kind).stored path).2 = some (Text.contentDigest text) ∧
        ∃ spelling found, Path.same spelling path = true ∧
          parses run.disk kind spelling text found ∧
          ((run.server.session.index.registry kind).stored path).1 =
            some (kind.ofFile spelling found)
    | none =>
      ¬DiskAct.Missed kind path acts →
        (run.server.session.index.registry kind).stored path = (none, none) := by
  have hStart : (DiskRun.scan session disk root).Follows parses known session [] kind path :=
    .start hQuiet hDocuments hIndex hTakes hScanned
  have hRun := hStart.steps hDown hTracks hTakes hKnown hSpelled hSteps
  have hStands := hRun.standing.of_settled hSettled hClosed hLagged
  cases hText : run.disk.read? path with
  | some text =>
    have hStored : ((run.server.session.index.registry kind).stored path).2 =
        some (Text.contentDigest text) := by
      rcases hStands with hStored | ⟨hNone, _⟩
      · rw [hStored, hText]
        rfl
      · rw [hText] at hNone
        cases hNone
    obtain ⟨parsed, hParsed, hSame, hEntities⟩ := (hRun.fresh hDisturbed).stored _ hStored
    rw [hDigests hParsed (hContent text hText) hSame] at hEntities
    exact ⟨hStored, hEntities⟩
  | none =>
    intro hMissed
    rcases hStands with hStored | ⟨_, hVain⟩
    · rw [hText] at hStored
      exact hRun.paired kind path hStored
    · exact absurd hVain hMissed

/-- A router is scanned, opened and changed on disk before it is closed. The update with the text
that the scan has read begins late, and the one with the changed text after it. -/
theorem closed_files_mirror_disk_changed :
    let disk := ({} : Disk).write routerPath (routerText "/saved") 0
    ∃ (acts : List DiskAct) (run : DiskRun Id),
      DiskSteps scannedParses (.scan routerSession disk ⟨"/"⟩) acts run ∧ run.settled ∧
      run.server.session.documents = [] ∧
      .serves (.edits routerUri (routerText "/dash")) ∈ acts ∧
      .lags .routes routerPath (routerText "/saved") ∈ acts ∧
      run.disk.read? routerPath = some (routerText "/new") ∧
      ((run.server.session.index.registry .routes).stored routerPath).2 =
        some (Text.contentDigest (routerText "/new")) ∧
      ∃ spelling found, Path.same spelling routerPath = true ∧
        scannedParses run.disk .routes spelling (routerText "/new") found ∧
        ((run.server.session.index.registry .routes).stored routerPath).1 =
          some (EntityKind.routes.ofFile spelling found) := by
  intro disk
  let texts := ["/dash", "/saved", "/new"].map routerText
  let later : Disk := disk.put routerPath.names (.file (routerText "/new") 1)
  let refresh : PendingRefresh := { uri := routerUri, version := 1, due := 300 }
  let update (path : String) (generation : Nat) : PendingUpdate :=
    { path := routerPath, digest := Text.contentDigest (routerText path), generation }
  let entities (update : PendingUpdate) (path : String) : List Route :=
    EntityKind.routes.ofFile update.path
      (EntityKind.routes.scan later update.path (routerText path).toList)
  let start : DiskRun Id := .scan routerSession disk ⟨"/"⟩
  let opened := start.proceed (start.server.receive routerUri (routerText "/dash"))
  let counted := opened.proceed (opened.server.count 0 routerUri)
  let scanned := counted.read .routes routerPath (routerText "/saved")
  let changed := scanned.change routerUri .changed later
  let closed := changed.close routerUri
  let woken := closed.proceed (closed.server.wake refresh)
  let lagged := woken.load .routes routerPath (routerText "/saved")
  let read := lagged.read .routes routerPath (routerText "/new")
  let loaded := read.load .routes routerPath (routerText "/new")
  let parsed := loaded.finish .routes 1 (entities (update "/new" 2) "/new")
  let told := DiskRun.tell { parsed with untold := [] } routerUri .changed
  let reread := told.read .routes routerPath (routerText "/new")
  let reloaded := reread.load .routes routerPath (routerText "/new")
  let run := reloaded.finish .routes 0 (entities (update "/saved" 1) "/saved")
  have hPath : routerUri.toPath? = some routerPath := rfl
  have hSaved : disk.read? routerPath = some (routerText "/saved") := by decide
  have hNew : later.read? routerPath = some (routerText "/new") := by decide
  have hElsewhere : ∀ other : Path, other.GoesDown → other.same routerPath = false →
      later.read? other = disk.read? other := by
    intro other hDown hOther
    have hFile : disk.entry? routerPath.names = some (.file (routerText "/saved") 0) := by
      decide
    exact Disk.read?_put hFile (by decide) (by decide) hDown hOther
  -- the steps of the run are decided together, since each of them replays the ones before
  obtain ⟨hCalled, hScanned, hWaits, hHeld, hClose, hUpdate, hText, hDisks, hAgain, hOld, hOldText,
      hOldDisks, hDocuments, hDistinct⟩ :
      routerUri ∈ opened.server.called ∧ (EntityKind.routes, routerPath) ∈ counted.wanted ∧
      refresh ∈ closed.server.session.pending ∧
      (EntityKind.routes, routerPath, routerText "/saved") ∈ woken.held ∧
      (EntityKind.routes, routerPath) ∈ lagged.wanted ∧
      (loaded.server.registryRun .routes).inFlight? 1 = some (update "/new" 2) ∧
      (loaded.server.texts .routes)[1]? = some (routerText "/new") ∧
      (loaded.views .routes)[1]? = some [later] ∧
      (EntityKind.routes, routerPath) ∈ told.wanted ∧
      (reloaded.server.registryRun .routes).inFlight? 0 = some (update "/saved" 1) ∧
      (reloaded.server.texts .routes)[0]? = some (routerText "/saved") ∧
      (reloaded.views .routes)[0]? = some [later] ∧ run.server.session.documents = [] ∧
      (texts.map Text.contentDigest).Nodup := by
    decide +kernel
  have hFirst : DiskSteps scannedParses start _ closed :=
    .more (.more (.more (.more (.more .none (.serves rfl fun _ => .edits _ _))
      (.serves rfl fun _ => .counts 0 hCalled)) (.reads hScanned hSaved))
      (.changes hPath hElsewhere (by rw [hNew]; decide))) (.closes _)
  have hLate : later.read? routerPath ≠ some (routerText "/saved") := by decide
  have hSecond : DiskSteps scannedParses start _ parsed :=
    .more (.more (.more (.more (.more hFirst (.serves rfl fun _ => .wakes hWaits))
      (.lags hHeld hLate)) (.reads hClose hNew)) (.loads List.mem_cons_self hNew))
      (.scans hUpdate hText hDisks List.mem_cons_self)
  have hTold : parsed.untold = [(routerUri, .changed)] := rfl
  have hThird : DiskSteps scannedParses start _ reloaded :=
    .more (.more (.more hSecond (.tells hTold)) (.reads hAgain hNew))
      (.loads List.mem_cons_self hNew)
  have hSteps : DiskSteps scannedParses start _ run :=
    .more hThird (.scans hOld hOldText hOldDisks List.mem_cons_self)
  have hSettled : run.settled := by
    refine ⟨⟨by decide, by decide, by decide, ?_⟩, by decide,
      by decide +kernel, by decide⟩
    intro kind
    rw [RegistryRun.settled_iff]
    cases kind <;> decide +kernel
  have hDisk : run.disk.read? routerPath = some (routerText "/new") := hNew
  refine ⟨_, run, hSteps, hSettled, hDocuments, by simp, by simp, hDisk, ?_⟩
  have hDigests : Set.InjOn Text.contentDigest {text | text ∈ texts} :=
    fun _ hOne _ hOther => List.inj_on_of_nodup_map hDistinct hOne hOther
  have hTracks : routerSession.tracks routerPath = true := by decide
  have hFound : routerPath ∈ collectFiles disk routerSession.filter ⟨"/"⟩ := by decide +kernel
  have hTakes : EntityKind.routes.takes routerPath = true := by decide
  have hNotDisturbed : ∀ acts, ¬DiskAct.Disturbed scannedParses .routes routerPath acts :=
    DiskAct.not_disturbed_of_ne_templates (by decide) routerPath
  have hMirror := @closed_files_mirror_disk _ scannedParses _ _ _ _ _ _ rfl rfl ?_ hSteps ?_
    hDigests hSettled hDocuments _ (by decide) hTracks (.inl hFound) ?_ ?_ _ hTakes ?_
    (hNotDisturbed _)
  · rw [hDisk] at hMirror
    exact hMirror
  · intro kind file
    cases kind <;> rfl
  · simp [DiskAct.text?, FileAct.text?, texts]
  · simp [DiskAct.path?, hPath]
  · intro text hRead
    rw [← Option.some.inj (hNew.symm.trans hRead)]
    simp [texts]
  · decide

/-- A router that has no file is opened and closed; what its document has left stays. -/
theorem closing_keeps_missing_file :
    let opening : Serving Id Unit := do
      Serving.edit routerUri (routerText "/dash")
      Serving.resumeUntil 300
    let opened := (opening.run { session := routerSession, disk := {}, now := 0 }).2
    let closed := ((Serving.close routerUri).run opened).2
    closed.session.documents = [] ∧ closed.session.pending = [] ∧
      closed.disk.read? routerPath = none ∧
      closed.session.index.routes.all.map Route.path = ["/dash"] := by
  decide

end PhoenixLens
