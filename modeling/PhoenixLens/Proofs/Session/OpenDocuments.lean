import PhoenixLens.Proofs.Session.Files

/-!
# Open documents and the disk

The text of an open document is to count for more than its file. A changed file is not read while
its document is open, but a deletion, a scan and a renewed template list never ask for that, and a
file may be read before its document is opened and reach the registries afterwards. What holds of
every run is that the last one wins: a registry holds the text of an open document unless the disk
has overtaken it since the document was last refreshed.
-/

namespace PhoenixLens

variable {m : Type → Type} {parses : Parses}

namespace EditRun.Expects

variable {run next : EditRun m} {uri : Uri}

theorem of_eq (h : run.Expects uri) (hCalled : next.called = run.called)
    (hPending : next.session.pending = run.session.pending) (hDue : next.due = run.due)
    (hDebouncer : next.session.debouncer = run.session.debouncer) : next.Expects uri := by
  cases h with
  | called hMem => exact .called (hCalled ▸ hMem)
  | waits hWaits hUri hCounts =>
    refine .waits (hPending ▸ hWaits) hUri ?_
    simpa [Session.mayRun, hDebouncer] using hCounts
  | due hMem hUri => exact .due (hDue ▸ hMem) hUri

/-- The end of another document cancels other calls. -/
theorem close (h : run.Expects uri) {other : Uri} (hOther : other ≠ uri) :
    (run.close other).Expects uri := by
  cases h with
  | called hCalled => exact .called hCalled
  | @waits refresh hWaits hUri hCounts =>
    refine .waits hWaits hUri ?_
    simp only [Session.mayRun, Bool.or_eq_true, Debouncer.isCurrent_iff] at hCounts ⊢
    rcases hCounts with hDelay | hCurrent
    · exact .inl hDelay
    · refine .inr ?_
      rw [← hCurrent]
      exact Debouncer.version?_cancel_of_ne _ (by rw [hUri]; exact Ne.symm hOther)
  | due hDue hUri => exact .due hDue hUri

/-- A document is waited for until it is refreshed or closed. -/
theorem step {act : FileAct} (h : run.Expects uri) (hRun : run.Counted)
    (hStep : FileStep parses act run next) (hRefreshes : act ≠ .refreshes uri)
    (hCloses : act ≠ .closes uri) : next.Expects uri := by
  cases hStep with
  | edits other text => exact h.receive other text
  | closes other =>
    refine h.close ?_
    rintro rfl
    exact hCloses rfl
  | @refreshes _ refresh hDue =>
    have hOther : refresh.uri ≠ uri := by
      rintro rfl
      exact hRefreshes rfl
    rcases run.read_cases refresh with ⟨text, path, _, _, _, hRead⟩ | ⟨_, hRead⟩
    · rw [hRead]
      exact (h.take hOther).begin path text
    · rw [hRead]
      exact h.take hOther
  | counts now hCalled => exact h.count now _
  | wakes hWaits => exact h.wake _
  | @parses _ kind number _ _ _ _ _ _ => exact h.finish kind number _
  | completes hRunning => exact h.complete hRun hRunning
  | _ => exact h.of_eq rfl rfl rfl rfl

end EditRun.Expects

namespace EditRun.Sound

variable {known : Set String} {session : Session m} {acts : List FileAct} {act : FileAct}
  {run next : EditRun m}

/-- The refresh of a document sets every registry that takes the file on its way to the text. -/
theorem boundFor_read (h : run.Sound parses known session) {refresh : PendingRefresh}
    {text : String} {path : Path} (hText : run.session.text? refresh.uri = some text)
    (hPath : refresh.uri.toPath? = some path) (hTracks : session.tracks path = true) :
    (run.read refresh).BoundFor path text := by
  have hTaken : (run.take refresh).Backed parses known := h.backed
  rw [← h.tracks] at hTracks
  rcases run.read_cases refresh with ⟨other, file, hOther, hFile, _, hRead⟩ | ⟨hOutside, _⟩
  · rw [hText] at hOther
    rw [hPath] at hFile
    cases hOther
    cases hFile
    rw [hRead]
    exact boundFor_begin hTaken path text
  · rw [hOutside text path hText hPath] at hTracks
    cases hTracks

/-- An open document has a refresh to come, or the file is on its way to its text, or the disk has
overtaken it. -/
theorem newest (hStart : EditRun.Sound parses known session { session })
    (hDocuments : session.documents = [])
    (hKnown : ∀ act ∈ acts, ∀ text, act.text? = some text → text ∈ known)
    (hSteps : FileSteps parses { session } acts run) {uri : Uri} {path : Path}
    (hPath : uri.toPath? = some path) (hTracks : session.tracks path = true)
    (hAlone : ∀ other, .refreshes other ∈ acts → session.SharesFile other uri → other = uri)
    {kind : EntityKind} (hTakes : kind.takes path = true) {text : String}
    (hText : run.session.text? uri = some text) :
    run.Expects uri ∨ (run.registryRun kind).LeadsTo path (some (Text.contentDigest text)) ∨
      FileAct.Overtaken kind uri path acts := by
  induction hSteps with
  | none =>
    rw [Session.text?, hDocuments] at hText
    cases hText
  | @more before act run next hBefore hStep ih =>
    have hKnownBefore : ∀ act ∈ before, ∀ text, act.text? = some text → text ∈ known :=
      fun act hAct => hKnown act (List.mem_append_left _ hAct)
    have hSound := hStart.steps hKnownBefore hBefore
    rw [hStep.text?_eq] at hText
    by_cases hRefreshed : act = .refreshes uri
    · cases hStep with
      | refreshes hDue =>
        cases hRefreshed
        exact .inr (.inl (hSound.boundFor_read hText hPath hTracks kind hTakes))
      | _ => cases hRefreshed
    by_cases hEdited : ∃ new, act = .edits uri new
    · obtain ⟨new, rfl⟩ := hEdited
      cases hStep
      refine .inl (.called ?_)
      simp [receive, hPath]
    by_cases hClosed : act = .closes uri
    · rw [hClosed, FileAct.textAfter, if_pos rfl] at hText
      cases hText
    -- the document is as before, and only the disk can come between
    have hOld : run.session.text? uri = some text := by
      cases act with
      | edits other new =>
        rwa [FileAct.textAfter, if_neg] at hText
        rintro rfl
        exact hEdited ⟨new, rfl⟩
      | closes other =>
        rwa [FileAct.textAfter, if_neg] at hText
        rintro rfl
        exact hClosed rfl
      | _ => exact hText
    have hAloneBefore : ∀ other, .refreshes other ∈ before → session.SharesFile other uri →
        other = uri := fun other hOther => hAlone other (List.mem_append_left _ hOther)
    have hOther : (act == .refreshes uri) = false := by simpa using hRefreshed
    rw [FileAct.Overtaken, since_concat, hOther]
    rcases ih hKnownBefore hAloneBefore hOld with hExpects | hLeads | hOvertaken
    · exact .inl (hExpects.step hSound.toCounted hStep hRefreshed hClosed)
    · cases hOvertakes : act.overtakes kind path with
      | true => exact .inr (.inr ⟨rfl, .inl rfl⟩)
      | false =>
        refine .inr (.inl (hSound.leadsTo_step hStep hLeads hOvertakes ?_))
        rintro ⟨other, _, file, rfl, _, hFile, hFileTracks, hSame⟩
        rw [hSound.tracks] at hFileTracks
        exact hRefreshed (congrArg _ (hAlone other (by simp)
          ⟨file, path, hFile, hPath, hFileTracks, hTracks, hSame⟩))
    · exact .inr (.inr ⟨rfl, .inr hOvertaken⟩)

end EditRun.Sound

/-- However messages, scans, deletions, refreshes and the ends of parses follow each other: once
nothing is under way, a registry that takes the file of an open document knows it by the text of the
document, and holds what a parse of that text has found, unless the disk has overtaken it since the
document was last refreshed. The digest is assumed to tell the texts apart, and the file to have no
other document. -/
theorem open_documents_prevail {known : Set String} {session : Session m} {acts : List FileAct}
    {run : EditRun m} (hQuiet : session.pending = []) (hDocuments : session.documents = [])
    (hIndex : ∀ kind, (session.index.registry kind).ComesFrom parses known)
    (hKnown : ∀ act ∈ acts, ∀ text, act.text? = some text → text ∈ known)
    (hDigests : Set.InjOn Text.contentDigest known)
    (hSteps : FileSteps parses { session } acts run) (hSettled : run.settled) {uri : Uri}
    {path : Path} {text : String} (hText : run.session.text? uri = some text)
    (hPath : uri.toPath? = some path) (hTracks : session.tracks path = true)
    (hAlone : ∀ other, .refreshes other ∈ acts → session.SharesFile other uri → other = uri)
    {kind : EntityKind} (hTakes : kind.takes path = true)
    (hOvertaken : ¬FileAct.Overtaken kind uri path acts) :
    ((run.session.index.registry kind).stored path).2 = some (Text.contentDigest text) ∧
      ∃ spelling found, Path.same spelling path = true ∧ parses kind spelling text found ∧
        ((run.session.index.registry kind).stored path).1 = some (kind.ofFile spelling found) := by
  have hStart := EditRun.Sound.start hQuiet hDocuments hIndex
  have hRun := hStart.steps hKnown hSteps
  have hNewest := hStart.newest hDocuments hKnown hSteps hPath hTracks hAlone hTakes hText
  have hStored : ((run.session.index.registry kind).stored path).2 =
      some (Text.contentDigest text) := by
    rcases hNewest with hExpects | hLeads | hNever
    · exact absurd hExpects hSettled.not_expects
    · exact hLeads.of_settled (hSettled.2.2.2 kind)
    · exact absurd hNever hOvertaken
  obtain ⟨parsed, hParsed, hSame, hEntities⟩ := (hRun.backed kind).stored path _ hStored
  rw [hDigests hParsed (hRun.texts uri text hText) hSame] at hEntities
  exact ⟨hStored, hEntities⟩

/-- A router is opened with a text that differs from its file. The scan of the project has begun
with the file before the document is refreshed, and ends first. -/
theorem open_documents_prevail_beside_scan :
    ∃ (acts : List FileAct) (run : EditRun Id),
      FileSteps (scannedParses {}) { session := routerSession } acts run ∧ run.settled ∧
      .loads .routes routerPath (routerText "/saved") ∈ acts ∧
      ((run.session.index.registry .routes).stored routerPath).2 =
        some (Text.contentDigest (routerText "/dash")) ∧
      ∃ spelling found, Path.same spelling routerPath = true ∧
        scannedParses {} .routes spelling (routerText "/dash") found ∧
        ((run.session.index.registry .routes).stored routerPath).1 =
          some (EntityKind.routes.ofFile spelling found) := by
  let refresh : PendingRefresh := { uri := routerUri, version := 1, due := 300 }
  let saved : PendingUpdate :=
    { path := routerPath, digest := Text.contentDigest (routerText "/saved"), generation := 1 }
  let dash : PendingUpdate :=
    { path := routerPath, digest := Text.contentDigest (routerText "/dash"), generation := 2 }
  let found (path : String) : List Route :=
    EntityKind.routes.scan {} routerPath (routerText path).toList
  let opened : EditRun Id :=
    ({ session := routerSession } : EditRun Id).receive routerUri (routerText "/dash")
  let loaded := opened.load .routes routerPath (routerText "/saved")
  let awake := (loaded.count 0 routerUri).wake refresh
  let read := awake.read refresh
  let ended := read.finish .routes 0 (EntityKind.routes.ofFile routerPath (found "/saved"))
  let run := ended.finish .routes 1 (EntityKind.routes.ofFile routerPath (found "/dash"))
  -- the steps of the run are decided together, since each of them replays the ones before
  obtain ⟨hCalled, hWaits, hDue, hSaved, hDash, hSavedText, hDashText, hDistinct, hText⟩ :
      routerUri ∈ loaded.called ∧ refresh ∈ (loaded.count 0 routerUri).session.pending ∧
      refresh ∈ awake.due ∧ (read.registryRun .routes).inFlight? 0 = some saved ∧
      (ended.registryRun .routes).inFlight? 1 = some dash ∧
      (read.texts .routes)[0]? = some (routerText "/saved") ∧
      (ended.texts .routes)[1]? = some (routerText "/dash") ∧ saved.digest ≠ dash.digest ∧
      run.session.text? routerUri = some (routerText "/dash") := by
    decide +kernel
  have hRead : FileSteps (scannedParses {}) { session := routerSession } _ read :=
    .more (.more (.more (.more (.more .none (.edits _ _)) (.loads _ _ _)) (.counts 0 hCalled))
      (.wakes hWaits)) (.refreshes hDue)
  have hEnded : FileSteps (scannedParses {}) { session := routerSession } _ ended :=
    .more hRead (@FileStep.parses _ _ read .routes 0 saved _ (found "/saved") hSaved hSavedText rfl)
  have hSteps : FileSteps (scannedParses {}) { session := routerSession } _ run :=
    .more hEnded (@FileStep.parses _ _ ended .routes 1 dash _ (found "/dash") hDash hDashText rfl)
  have hSettled : run.settled := by
    refine ⟨by decide +kernel, by decide, by decide, ?_⟩
    intro kind
    rw [RegistryRun.settled_iff]
    cases kind <;> decide
  refine ⟨_, run, hSteps, hSettled, by simp, ?_⟩
  have hIndex : ∀ kind, (routerSession.index.registry kind).ComesFrom (scannedParses {})
      {routerText "/dash", routerText "/saved"} := by
    intro kind path digest hDigest
    cases kind <;> cases hDigest
  have hDigests : Set.InjOn Text.contentDigest {routerText "/dash", routerText "/saved"} := by
    have hApart : Text.contentDigest (routerText "/saved") ≠
        Text.contentDigest (routerText "/dash") := hDistinct
    simp [Set.InjOn, hApart, hApart.symm]
  have hPath : routerUri.toPath? = some routerPath := by decide
  have hTracks : routerSession.tracks routerPath = true := by decide
  have hTakes : EntityKind.routes.takes routerPath = true := by decide +kernel
  refine open_documents_prevail rfl rfl hIndex ?_ hDigests hSteps hSettled hText hPath hTracks ?_
    hTakes ?_
  · simp [FileAct.text?]
  · simp [refresh]
  · decide

/-- A router is open with a text that differs from its file. Reading the project anew brings the
saved routes back, and a deletion forgets the router; the document is open all the time. -/
theorem disk_overtakes_open_document :
    let opening : Serving Id Unit := do
      Serving.edit routerUri (routerText "/dash")
      Serving.resumeUntil 300
    let disk := ({} : Disk).write routerPath (routerText "/saved") 0
    let session := { routerSession with root := some ⟨"/"⟩ }
    let opened := (opening.run { session, disk, now := 0 }).2
    let scanned := (Serving.startOver.run opened).2
    let deleted := ((Serving.fileChanged routerUri .deleted).run scanned).2
    opened.session.index.routes.all.map Route.path = ["/dash"] ∧
      scanned.session.text? routerUri = some (routerText "/dash") ∧
      scanned.session.pending = [] ∧
      scanned.session.index.routes.all.map Route.path = ["/saved"] ∧
      deleted.session.text? routerUri = some (routerText "/dash") ∧
      deleted.session.pending = [] ∧ deleted.session.index.routes.all = [] := by
  decide +kernel

end PhoenixLens
