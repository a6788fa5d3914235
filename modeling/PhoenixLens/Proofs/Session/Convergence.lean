import Mathlib.Data.List.Perm.Subperm
import Mathlib.Data.Set.Function
import PhoenixLens.Proofs.Session.Edits

/-!
# Edits converge

Three mechanisms act together: a refresh reads its document when it goes on, the debouncer lets only
the last call of a document go on, and a registry takes only the result of a file's last update. An
edited document either has a refresh to come, which will read its newest text, or its file is on
its way to the digest of that text in every registry that takes it. No step breaks this.
-/

namespace PhoenixLens

variable {m : Type → Type} {parses : Parses}

/-! ### Documents -/

theorem Session.text?_store (session : Session m) (uri other : Uri) (text : String) :
    (session.store uri text).text? other =
      if uri = other then some text else session.text? other := by
  simp only [store, drop, text?, List.lookup_append, bne]
  split
  · rename_i hUri
    rw [hUri, Debouncer.lookup_filter_self]
    simp
  · rename_i hUri
    have hOther : (other == uri) = false := by simpa using Ne.symm hUri
    rw [Debouncer.lookup_filter_ne _ (Ne.symm hUri)]
    simp only [List.lookup_cons, hOther, List.lookup_nil, Option.or_none]

theorem Notice.edits_append (notices more : List Notice) :
    edits (notices ++ more) = edits notices ++ edits more := List.filterMap_append

theorem Notice.lastText?_concat {notices : List Notice} {notice : Notice} {uri : Uri}
    {text : String} (h : notice.edit? = some (uri, text)) (other : Uri) :
    lastText? (notices ++ [notice]) other =
      if uri = other then some text else lastText? notices other := by
  have hEdits : edits [notice] = [(uri, text)] := by simp [edits, h]
  rw [lastText?, edits_append, hEdits, List.filter_append]
  split
  · rename_i hUri
    simp [hUri]
  · rename_i hUri
    simp [hUri, lastText?]

theorem Notice.mem_edits_of_lastText? {notices : List Notice} {uri : Uri} {text : String}
    (h : lastText? notices uri = some text) : (uri, text) ∈ edits notices := by
  obtain ⟨edit, hEdit, rfl⟩ := Option.map_eq_some_iff.mp h
  obtain ⟨hMem, hUri⟩ := List.mem_filter.mp (List.mem_of_getLast? hEdit)
  rwa [← beq_iff_eq.mp hUri]

/-! ### What the steps do to the registries -/

namespace EditRun

theorem registryRun_begin (run : EditRun m) (path : Path) (text : String) (kind : EntityKind) :
    (run.begin path text).registryRun kind =
      if kind.takes path then (run.registryRun kind).step (.begins path text)
      else run.registryRun kind := by
  simp only [registryRun, begin, Index.registry_mapRegistries]
  split <;> rfl

theorem registryRun_finish (run : EditRun m) (kind : EntityKind) (number : Nat)
    (entities : List kind.Entity) :
    (run.finish kind number entities).registryRun kind =
      (run.registryRun kind).step (.ends number entities) := by
  simp [registryRun, finish]

theorem registryRun_finish_of_ne (run : EditRun m) {kind other : EntityKind} (h : other ≠ kind)
    (number : Nat) (entities : List kind.Entity) :
    (run.finish kind number entities).registryRun other = run.registryRun other := by
  simp [registryRun, finish, h, Index.registry_withRegistry_of_ne]

/-- A refresh begins updates with the newest text of its document, or its file does not belong to
the project. -/
theorem read_cases (run : EditRun m) (refresh : PendingRefresh) :
    (∃ text path, run.session.text? refresh.uri = some text ∧ refresh.uri.toPath? = some path ∧
      run.session.tracks path = true ∧ run.read refresh = (run.take refresh).begin path text) ∨
    (∀ text path, run.session.text? refresh.uri = some text → refresh.uri.toPath? = some path →
      run.session.tracks path = false) ∧ run.read refresh = run.take refresh := by
  cases hText : run.session.text? refresh.uri with
  | none => exact .inr ⟨nofun, by simp only [read, hText]⟩
  | some text =>
    cases hPath : refresh.uri.toPath? with
    | none => exact .inr ⟨nofun, by simp only [read, hText, hPath]⟩
    | some path =>
      cases hTracks : run.session.tracks path with
      | true =>
        exact .inl ⟨text, path, rfl, rfl, hTracks, by simp [read, hText, hPath, hTracks]⟩
      | false =>
        refine .inr ⟨?_, by simp [read, hText, hPath, hTracks]⟩
        intro _ _ _ hSame
        rwa [← Option.some.inj hSame]

end EditRun

theorem EditStep.tracks_eq {more : List Notice} {run next : EditRun m}
    (h : EditStep parses more run next) : next.session.tracks = run.session.tracks := by
  cases h with
  | @reads run refresh hDue =>
    rcases run.read_cases refresh with ⟨text, path, _, _, _, hRead⟩ | ⟨_, hRead⟩
    · rw [hRead]
      rfl
    · rw [hRead]
      rfl
  | _ => rfl

/-! ### What the parses bring -/

/-- What is stored comes from parses of known texts. -/
def FileRegistry.ComesFrom {kind : EntityKind} (parses : Parses) (known : Set String)
    (registry : FileRegistry kind.Entity) : Prop :=
  ∀ path digest, (registry.stored path).2 = some digest →
    ∃ text ∈ known, Text.contentDigest text = digest ∧
      ∃ spelling found, Path.same spelling path = true ∧ parses kind spelling text found ∧
        (registry.stored path).1 = some (kind.ofFile spelling found)

structure RegistryRun.Backed {kind : EntityKind} (parses : Parses) (known : Set String)
    (run : RegistryRun kind.Entity) (texts : List String) : Prop where
  wellFormed : run.WellFormed
  length : texts.length = run.updates.length
  update : ∀ number update, run.inFlight? number = some update →
    ∃ text ∈ known, texts[number]? = some text ∧ update.digest = Text.contentDigest text
  stored : run.registry.ComesFrom parses known

namespace RegistryRun.Backed

variable {kind : EntityKind} {known : Set String} {run : RegistryRun kind.Entity}
  {texts : List String}

theorem begins (h : run.Backed parses known texts) (path : Path) {text : String}
    (hText : text ∈ known) :
    (run.step (.begins path text)).Backed parses known (texts ++ [text]) := by
  refine ⟨h.wellFormed.step _, ?_, ?_, h.stored⟩
  · rw [length_updates_step, List.length_append, h.length]
    rfl
  · intro number update hUpdate
    rcases inFlight?_step hUpdate with hOld | ⟨other, content, hEvent, hNumber, hNew⟩
    · obtain ⟨old, hKnown, hOldText, hDigest⟩ := h.update number update hOld
      refine ⟨old, hKnown, ?_, hDigest⟩
      rw [List.getElem?_append_left (List.getElem?_eq_some_iff.mp hOldText).1]
      exact hOldText
    · cases hEvent
      refine ⟨text, hText, ?_, by rw [FileRegistry.startUpdate_snd_eq_some hNew]⟩
      rw [hNumber, ← h.length, List.getElem?_append_right (Nat.le_refl _)]
      simp

theorem ends (h : run.Backed parses known texts) {number : Nat} {update : PendingUpdate}
    {text : String} {found : List kind.Entity} (hUpdate : run.inFlight? number = some update)
    (hText : texts[number]? = some text) (hFound : parses kind update.path text found) :
    (run.step (.ends number (kind.ofFile update.path found))).Backed parses known texts := by
  refine ⟨h.wellFormed.step _, ?_, ?_, ?_⟩
  · rw [length_updates_step]
    exact h.length
  · intro other later hLater
    rcases inFlight?_step hLater with hOld | ⟨_, _, hEvent, _⟩
    · exact h.update other later hOld
    · cases hEvent
  · intro path digest hDigest
    rcases stored_step run (.ends number (kind.ofFile update.path found)) path with
      ⟨hKept, _⟩ | ⟨_, hEvent, _⟩ | ⟨other, entities, ended, hEvent, hEnded, _, hPath, hTaken⟩
    · rw [hKept] at hDigest ⊢
      exact h.stored path digest hDigest
    · cases hEvent
    · cases hEvent
      rw [hUpdate] at hEnded
      cases hEnded
      obtain ⟨known, hKnown, hKnownText, hOf⟩ := h.update number update hUpdate
      rw [hText] at hKnownText
      cases hKnownText
      rw [hTaken] at hDigest ⊢
      exact ⟨text, hKnown, hOf.symm.trans (Option.some.inj hDigest), update.path, found, hPath,
        hFound, rfl⟩

end RegistryRun.Backed

/-- Every registry is backed by the texts of a set. -/
def EditRun.Backed (parses : Parses) (known : Set String) (run : EditRun m) : Prop :=
  ∀ kind, (run.registryRun kind).Backed parses known (run.texts kind)

namespace EditRun.Backed

variable {known : Set String} {run : EditRun m}

theorem begin (h : run.Backed parses known) (path : Path) {text : String} (hText : text ∈ known) :
    (run.begin path text).Backed parses known := by
  intro kind
  rw [registryRun_begin]
  cases hTakes : kind.takes path with
  | true => simpa [EditRun.begin, hTakes] using (h kind).begins path hText
  | false => simpa [EditRun.begin, hTakes] using h kind

theorem finish (h : run.Backed parses known) {kind : EntityKind} {number : Nat}
    {update : PendingUpdate} {text : String} {found : List kind.Entity}
    (hUpdate : (run.registryRun kind).inFlight? number = some update)
    (hText : (run.texts kind)[number]? = some text)
    (hFound : parses kind update.path text found) :
    (run.finish kind number (kind.ofFile update.path found)).Backed parses known := by
  intro other
  by_cases hKind : other = kind
  · cases hKind
    rw [registryRun_finish]
    exact (h _).ends hUpdate hText hFound
  · rw [registryRun_finish_of_ne run hKind]
    exact h other

end EditRun.Backed

/-! ### Refreshes -/

namespace EditRun

/-- The refreshes that have been counted and have not ended. -/
def refreshes (run : EditRun m) : List PendingRefresh :=
  run.session.pending ++ (run.due ++ run.running)

/-- Refreshes have versions of their own. -/
structure Counted (run : EditRun m) : Prop where
  nodup : (run.refreshes.map (·.version)).Nodup
  counted : ∀ refresh ∈ run.refreshes, refresh.version ≤ run.session.debouncer.lastVersion

theorem Counted.start {session : Session m} (hQuiet : session.pending = []) :
    ({ session } : EditRun m).Counted := by
  constructor
  · simp [refreshes, hQuiet]
  · simp [refreshes, hQuiet]

/-- A step that only moves refreshes on or ends them. -/
theorem Counted.of_subperm {run next : EditRun m} (h : run.Counted)
    (hRefreshes : next.refreshes.Subperm run.refreshes)
    (hVersion : next.session.debouncer.lastVersion = run.session.debouncer.lastVersion) :
    next.Counted := by
  refine ⟨?_, ?_⟩
  · obtain ⟨kept, hPerm, hSub⟩ := hRefreshes
    exact (hPerm.map _).nodup_iff.mp (h.nodup.sublist (hSub.map _))
  · intro refresh hRefresh
    rw [hVersion]
    exact h.counted refresh (hRefreshes.subset hRefresh)

theorem refreshes_count (run : EditRun m) (now : Nat) (uri : Uri) :
    (run.count now uri).refreshes.Perm
      ({ uri, version := run.session.debouncer.lastVersion + 1
         due := now + run.session.debouncer.delay } :: run.refreshes) := by
  simp only [refreshes, EditRun.count, Session.schedule, List.append_assoc]
  exact List.perm_middle

theorem Counted.count {run : EditRun m} (h : run.Counted) (now : Nat) (uri : Uri) :
    (run.count now uri).Counted := by
  have hPerm := run.refreshes_count now uri
  have hVersion : (run.count now uri).session.debouncer.lastVersion =
      run.session.debouncer.lastVersion + 1 := rfl
  refine ⟨?_, ?_⟩
  · rw [(hPerm.map _).nodup_iff, List.map_cons, List.nodup_cons]
    refine ⟨?_, h.nodup⟩
    intro hOld
    obtain ⟨refresh, hRefresh, hSame⟩ := List.mem_map.mp hOld
    have hBound := h.counted refresh hRefresh
    rw [hSame] at hBound
    exact absurd hBound (Nat.not_succ_le_self _)
  · intro refresh hRefresh
    rw [hVersion]
    rcases List.mem_cons.mp (hPerm.mem_iff.mp hRefresh) with rfl | hOld
    · exact Nat.le_refl _
    · exact Nat.le_succ_of_le (h.counted refresh hOld)

theorem refreshes_wake {run : EditRun m} {refresh : PendingRefresh}
    (hWaits : refresh ∈ run.session.pending) :
    (run.wake refresh).refreshes.Subperm run.refreshes := by
  have hPending := (List.perm_cons_erase hWaits).symm
  simp only [refreshes, EditRun.wake]
  split
  · refine List.Perm.subperm ?_
    exact List.perm_middle.trans (hPending.append_right _)
  · exact List.Subperm.append (List.erase_subperm _ _) (List.Subperm.refl _)

theorem refreshes_take {run : EditRun m} {refresh : PendingRefresh} (hDue : refresh ∈ run.due) :
    (run.take refresh).refreshes.Perm run.refreshes := by
  refine List.Perm.append_left _ ?_
  exact List.perm_middle.trans ((List.perm_cons_erase hDue).symm.append_right _)

theorem refreshes_complete (run : EditRun m) (refresh : PendingRefresh) :
    (run.complete refresh).refreshes.Subperm run.refreshes :=
  List.Subperm.append (List.Subperm.refl _)
    (List.Subperm.append (List.Subperm.refl _) (List.erase_subperm _ _))

/-- Refreshes have versions of their own and belong to documents that have been edited, and the
session holds the newest texts of these. -/
structure Scheduled (notices : List Notice) (run : EditRun m) : Prop extends run.Counted where
  called : ∀ uri ∈ run.called, ∃ text, Notice.lastText? notices uri = some text
  edited : ∀ refresh ∈ run.refreshes, ∃ text, Notice.lastText? notices refresh.uri = some text
  text : ∀ uri text, Notice.lastText? notices uri = some text → run.session.text? uri = some text

/-- A step that only moves refreshes on or ends them. -/
theorem Scheduled.of_subperm {notices : List Notice} {run next : EditRun m}
    (h : run.Scheduled notices) (hRefreshes : next.refreshes.Subperm run.refreshes)
    (hCalled : next.called = run.called)
    (hVersion : next.session.debouncer.lastVersion = run.session.debouncer.lastVersion)
    (hDocuments : next.session.documents = run.session.documents) : next.Scheduled notices := by
  refine ⟨h.toCounted.of_subperm hRefreshes hVersion, by rw [hCalled]; exact h.called, ?_, ?_⟩
  · intro refresh hRefresh
    exact h.edited refresh (hRefreshes.subset hRefresh)
  · intro uri text hText
    rw [Session.text?, hDocuments]
    exact h.text uri text hText

theorem Scheduled.receive {notices : List Notice} {run : EditRun m} (h : run.Scheduled notices)
    {notice : Notice} {uri : Uri} {text : String} (hNotice : notice.edit? = some (uri, text)) :
    (run.receive uri text).Scheduled (notices ++ [notice]) := by
  have hKnown : ∀ other, (∃ old, Notice.lastText? notices other = some old) →
      ∃ new, Notice.lastText? (notices ++ [notice]) other = some new := by
    rintro other ⟨old, hOld⟩
    rw [Notice.lastText?_concat hNotice]
    split
    · exact ⟨text, rfl⟩
    · exact ⟨old, hOld⟩
  refine ⟨⟨h.nodup, h.counted⟩, ?_, fun refresh hRefresh => hKnown _ (h.edited refresh hRefresh),
    ?_⟩
  · intro other hOther
    have hCases : other = uri ∨ other ∈ run.called := by
      simp only [EditRun.receive] at hOther
      split at hOther
      · exact List.mem_cons.mp hOther
      · exact .inr hOther
    rcases hCases with rfl | hOld
    · exact ⟨text, by rw [Notice.lastText?_concat hNotice, if_pos rfl]⟩
    · exact hKnown other (h.called other hOld)
  · intro other new hNew
    rw [Notice.lastText?_concat hNotice] at hNew
    simp only [EditRun.receive, Session.text?_store]
    split
    · rename_i hUri
      rwa [if_pos hUri] at hNew
    · rename_i hUri
      rw [if_neg hUri] at hNew
      exact h.text other new hNew

theorem Scheduled.count {notices : List Notice} {run : EditRun m} (h : run.Scheduled notices)
    (now : Nat) {uri : Uri} (hCalled : uri ∈ run.called) :
    (run.count now uri).Scheduled notices := by
  refine ⟨h.toCounted.count now uri,
    fun other hOther => h.called other (List.mem_of_mem_erase hOther), ?_, h.text⟩
  intro refresh hRefresh
  rcases List.mem_cons.mp ((run.refreshes_count now uri).mem_iff.mp hRefresh) with rfl | hOld
  · exact h.called uri hCalled
  · exact h.edited refresh hOld

theorem Scheduled.wake {notices : List Notice} {run : EditRun m} (h : run.Scheduled notices)
    {refresh : PendingRefresh} (hWaits : refresh ∈ run.session.pending) :
    (run.wake refresh).Scheduled notices := h.of_subperm (refreshes_wake hWaits) rfl rfl rfl

theorem Scheduled.take {notices : List Notice} {run : EditRun m} (h : run.Scheduled notices)
    {refresh : PendingRefresh} (hDue : refresh ∈ run.due) :
    (run.take refresh).Scheduled notices := h.of_subperm (refreshes_take hDue).subperm rfl rfl rfl

theorem Scheduled.complete {notices : List Notice} {run : EditRun m} (h : run.Scheduled notices)
    (refresh : PendingRefresh) : (run.complete refresh).Scheduled notices :=
  h.of_subperm (run.refreshes_complete refresh) rfl (Debouncer.lastVersion_complete _ _ _) rfl

/-! ### The newest texts -/

/-- A refresh is still to read the document. -/
inductive Expects (run : EditRun m) (uri : Uri) : Prop where
  | called (hCalled : uri ∈ run.called)
  | waits {refresh : PendingRefresh} (hWaits : refresh ∈ run.session.pending)
      (hUri : refresh.uri = uri) (hCounts : run.session.mayRun refresh = true)
  | due {refresh : PendingRefresh} (hDue : refresh ∈ run.due) (hUri : refresh.uri = uri)

/-- Every registry that takes the file is on its way to the digest of the text. -/
def BoundFor (run : EditRun m) (path : Path) (text : String) : Prop :=
  ∀ kind : EntityKind, kind.takes path = true →
    (run.registryRun kind).LeadsTo path (some (Text.contentDigest text))

theorem settled.not_expects {run : EditRun m} (h : run.settled) {uri : Uri} : ¬run.Expects uri := by
  obtain ⟨hCalled, hPending, hDue, _⟩ := h
  intro hExpects
  cases hExpects with
  | called hMem => rw [hCalled] at hMem; cases hMem
  | waits hMem _ _ => rw [hPending] at hMem; cases hMem
  | due hMem _ => rw [hDue] at hMem; cases hMem

theorem Expects.receive {run : EditRun m} {uri : Uri} (h : run.Expects uri) (other : Uri)
    (text : String) : (run.receive other text).Expects uri := by
  cases h with
  | called hCalled =>
    refine .called ?_
    simp only [EditRun.receive]
    split
    · exact List.mem_cons_of_mem _ hCalled
    · exact hCalled
  | waits hWaits hUri hCounts => exact .waits hWaits hUri hCounts
  | due hDue hUri => exact .due hDue hUri

/-- A further call of the document supersedes the others, and is itself expected. -/
theorem Expects.count {run : EditRun m} {uri : Uri} (h : run.Expects uri) (now : Nat)
    (other : Uri) : (run.count now other).Expects uri := by
  by_cases hOther : other = uri
  · refine .waits (List.mem_append_right _ (List.mem_singleton_self _)) hOther ?_
    simp only [EditRun.count, Session.schedule, Session.mayRun, Bool.or_eq_true,
      Debouncer.isCurrent_iff]
    exact .inr (Debouncer.version?_bump_self _ _)
  · cases h with
    | called hCalled => exact .called ((List.mem_erase_of_ne (Ne.symm hOther)).mpr hCalled)
    | @waits refresh hWaits hUri hCounts =>
      refine .waits (List.mem_append_left _ hWaits) hUri ?_
      simp only [Session.mayRun, Bool.or_eq_true, Debouncer.isCurrent_iff] at hCounts ⊢
      rcases hCounts with hDelay | hCurrent
      · exact .inl hDelay
      · refine .inr ?_
        rw [← hCurrent]
        exact Debouncer.version?_bump_of_ne _ (by rw [hUri]; exact Ne.symm hOther)
    | due hDue hUri => exact .due hDue hUri

theorem Expects.wake {run : EditRun m} {uri : Uri} (h : run.Expects uri)
    (woken : PendingRefresh) : (run.wake woken).Expects uri := by
  cases h with
  | called hCalled => exact .called hCalled
  | @waits refresh hWaits hUri hCounts =>
    by_cases hWoken : refresh = woken
    · cases hWoken
      exact .due (by simp [EditRun.wake, hCounts]) hUri
    · exact .waits ((List.mem_erase_of_ne hWoken).mpr hWaits) hUri hCounts
  | due hDue hUri =>
    refine .due ?_ hUri
    simp only [EditRun.wake]
    split
    · exact List.mem_cons_of_mem _ hDue
    · exact hDue

theorem Expects.take {run : EditRun m} {uri : Uri} (h : run.Expects uri) {taken : PendingRefresh}
    (hOther : taken.uri ≠ uri) : (run.take taken).Expects uri := by
  cases h with
  | called hCalled => exact .called hCalled
  | waits hWaits hUri hCounts => exact .waits hWaits hUri hCounts
  | @due refresh hDue hUri =>
    refine .due ((List.mem_erase_of_ne ?_).mpr hDue) hUri
    rintro rfl
    exact hOther hUri

/-- A refresh that ends has a version of its own, so those that wait go on counting. -/
theorem Expects.complete {run : EditRun m} {uri : Uri} (h : run.Expects uri) (hRun : run.Counted)
    {ended : PendingRefresh} (hRunning : ended ∈ run.running) :
    (run.complete ended).Expects uri := by
  cases h with
  | called hCalled => exact .called hCalled
  | @waits refresh hWaits hUri hCounts =>
    refine .waits hWaits hUri ?_
    have hVersions : ended.version ≠ refresh.version := by
      have hNodup := hRun.nodup
      rw [refreshes, List.map_append, List.nodup_append] at hNodup
      have hEnded : ended ∈ run.due ++ run.running := List.mem_append_right _ hRunning
      exact (hNodup.2.2 _ (List.mem_map_of_mem hWaits) _ (List.mem_map_of_mem hEnded)).symm
    simp only [Session.mayRun, Bool.or_eq_true] at hCounts ⊢
    rcases hCounts with hDelay | hCurrent
    · exact .inl (by simpa [EditRun.complete] using hDelay)
    · exact .inr (Debouncer.isCurrent_complete hCurrent hVersions)
  | due hDue hUri => exact .due hDue hUri

theorem Expects.begin {run : EditRun m} {uri : Uri} (h : run.Expects uri) (path : Path)
    (text : String) : (run.begin path text).Expects uri := by
  cases h with
  | called hCalled => exact .called hCalled
  | waits hWaits hUri hCounts => exact .waits hWaits hUri hCounts
  | due hDue hUri => exact .due hDue hUri

theorem Expects.finish {run : EditRun m} {uri : Uri} (h : run.Expects uri) (kind : EntityKind)
    (number : Nat) (entities : List kind.Entity) :
    (run.finish kind number entities).Expects uri := by
  cases h with
  | called hCalled => exact .called hCalled
  | waits hWaits hUri hCounts => exact .waits hWaits hUri hCounts
  | due hDue hUri => exact .due hDue hUri

theorem boundFor_begin {known : Set String} {run : EditRun m} (hRun : run.Backed parses known)
    (path : Path) (text : String) : (run.begin path text).BoundFor path text := by
  intro kind hTakes
  rw [registryRun_begin, if_pos hTakes]
  exact RegistryRun.leadsTo_step_of_supersedes (hRun kind).wellFormed (Path.same_refl path)

theorem BoundFor.begin_of_not_same {known : Set String} {run : EditRun m} {path other : Path}
    {text : String} (h : run.BoundFor path text) (hRun : run.Backed parses known)
    (hOther : other.same path = false) (newer : String) :
    (run.begin other newer).BoundFor path text := by
  intro kind hTakes
  rw [registryRun_begin]
  split
  · exact (h kind hTakes).step_of_not_supersedes (hRun kind).wellFormed hOther
  · exact h kind hTakes

theorem BoundFor.finish {known : Set String} {run : EditRun m} {path : Path} {text : String}
    (h : run.BoundFor path text) (hRun : run.Backed parses known) (kind : EntityKind) (number : Nat)
    (entities : List kind.Entity) : (run.finish kind number entities).BoundFor path text := by
  intro other hTakes
  by_cases hKind : other = kind
  · cases hKind
    rw [registryRun_finish]
    exact (h _ hTakes).step_of_not_supersedes (hRun _).wellFormed rfl
  · rw [registryRun_finish_of_ne run hKind]
    exact h other hTakes

end EditRun

/-! ### The main result -/

/-- The documents stand for one file of the project. -/
def Session.SharesFile (session : Session m) (uri other : Uri) : Prop :=
  ∃ path otherPath, uri.toPath? = some path ∧ other.toPath? = some otherPath ∧
    session.tracks path = true ∧ session.tracks otherPath = true ∧ path.same otherPath = true

/-- No two edited documents stand for one file of the project. -/
def Session.Separates (session : Session m) (notices : List Notice) : Prop :=
  ∀ edit ∈ Notice.edits notices, ∀ other ∈ Notice.edits notices,
    session.SharesFile edit.1 other.1 → edit.1 = other.1

/-- What holds after every step: edited documents have a refresh to come, or their files are on
their way to the newest texts. -/
structure EditRun.Converging (parses : Parses) (known : Set String) (session : Session m)
    (notices : List Notice) (run : EditRun m) : Prop where
  tracks : run.session.tracks = session.tracks
  scheduled : run.Scheduled notices
  backed : run.Backed parses known
  newest : ∀ uri path text, Notice.lastText? notices uri = some text → uri.toPath? = some path →
    session.tracks path = true → run.Expects uri ∨ run.BoundFor path text

namespace EditRun.Converging

variable {known : Set String} {session : Session m} {notices more : List Notice}
  {run : EditRun m}

theorem start (hQuiet : session.pending = [])
    (hIndex : ∀ kind, (session.index.registry kind).ComesFrom parses known) :
    EditRun.Converging parses known session [] { session } := by
  refine ⟨rfl, ⟨Counted.start hQuiet, ?_, ?_, ?_⟩, ?_, ?_⟩
  · simp
  · simp [refreshes, hQuiet]
  · intro uri text hText
    cases hText
  · intro kind
    refine ⟨RegistryRun.wellFormed_start _, rfl, ?_, hIndex kind⟩
    intro number update hUpdate
    simp [registryRun, RegistryRun.inFlight?] at hUpdate
  · intro uri path text hText
    cases hText

theorem receive (h : run.Converging parses known session notices) {notice : Notice} {uri : Uri}
    {text : String} (hNotice : notice.edit? = some (uri, text)) :
    (run.receive uri text).Converging parses known session (notices ++ [notice]) := by
  refine ⟨h.tracks, h.scheduled.receive hNotice, h.backed, ?_⟩
  intro other path newest hText hPath hTracks
  rw [Notice.lastText?_concat hNotice] at hText
  split at hText
  · rename_i hUri
    refine .inl (.called ?_)
    rw [← hUri] at hPath ⊢
    simp [EditRun.receive, hPath]
  · rcases h.newest other path newest hText hPath hTracks with hExpects | hBound
    · exact .inl (hExpects.receive uri text)
    · exact .inr hBound

/-- The refresh of a document sets the registries on their way to its newest text; those of other
documents are about other files. -/
theorem read (h : run.Converging parses known session notices)
    (hKnown : ∀ edit ∈ Notice.edits notices, edit.2 ∈ known) (hSeparate : session.Separates notices)
    {refresh : PendingRefresh} (hDue : refresh ∈ run.due) :
    (run.read refresh).Converging parses known session notices := by
  obtain ⟨newest, hNewest⟩ :=
    h.scheduled.edited refresh (List.mem_append_right _ (List.mem_append_left _ hDue))
  have hEdit := Notice.mem_edits_of_lastText? hNewest
  have hTaken : (run.take refresh).Scheduled notices := h.scheduled.take hDue
  have hBacked : (run.take refresh).Backed parses known := h.backed
  rcases run.read_cases refresh with ⟨text, path, hText, hPath, hTracks, hRead⟩ | ⟨hOutside, hRead⟩
  -- the document is read now and not when the call came, so its newest text is what is updated to
  · have hBuffer : text = newest :=
      Option.some.inj (hText.symm.trans (h.scheduled.text _ _ hNewest))
    rw [hBuffer] at hRead
    rw [h.tracks] at hTracks
    rw [hRead]
    refine ⟨h.tracks, hTaken.of_subperm (.refl _) rfl rfl rfl,
      hBacked.begin path (hKnown _ hEdit), ?_⟩
    intro uri other last hLast hOther hOtherTracks
    by_cases hUri : refresh.uri = uri
    · rw [hUri] at hNewest hPath
      have hSameText : newest = last := Option.some.inj (hNewest.symm.trans hLast)
      have hSamePath : path = other := Option.some.inj (hPath.symm.trans hOther)
      rw [hSameText, hSamePath]
      exact .inr (boundFor_begin hBacked other last)
    · rcases h.newest uri other last hLast hOther hOtherTracks with hExpects | hBound
      · exact .inl ((hExpects.take hUri).begin path newest)
      · have hBoundTaken : (run.take refresh).BoundFor other last := hBound
        refine .inr (hBoundTaken.begin_of_not_same hBacked ?_ newest)
        rw [← Bool.not_eq_true]
        intro hSame
        exact hUri (hSeparate _ hEdit _ (Notice.mem_edits_of_lastText? hLast)
          ⟨path, other, hPath, hOther, hTracks, hOtherTracks, hSame⟩)
  · rw [hRead]
    refine ⟨h.tracks, hTaken, h.backed, ?_⟩
    intro uri path last hLast hPath hTracks
    by_cases hUri : refresh.uri = uri
    · rw [hUri] at hOutside
      have hNot := hOutside last path (h.scheduled.text _ _ hLast) hPath
      rw [h.tracks, hTracks] at hNot
      cases hNot
    · rcases h.newest uri path last hLast hPath hTracks with hExpects | hBound
      · exact .inl (hExpects.take hUri)
      · exact .inr hBound

theorem step (h : run.Converging parses known session notices)
    (hKnown : ∀ edit ∈ Notice.edits notices, edit.2 ∈ known) (hSeparate : session.Separates notices)
    {next : EditRun m} (hStep : EditStep parses more run next) :
    next.Converging parses known session (notices ++ more) := by
  have hTracks := hStep.tracks_eq.trans h.tracks
  cases hStep with
  | receives hNotice => exact h.receive hNotice
  | @counts _ uri now hCalled =>
    rw [List.append_nil]
    refine ⟨hTracks, h.scheduled.count now hCalled, h.backed, ?_⟩
    intro other path text hText hPath hFile
    exact (h.newest other path text hText hPath hFile).imp_left (·.count now uri)
  | @wakes _ refresh hWaits =>
    rw [List.append_nil]
    refine ⟨hTracks, h.scheduled.wake hWaits, h.backed, ?_⟩
    intro uri path text hText hPath hFile
    exact (h.newest uri path text hText hPath hFile).imp_left (·.wake refresh)
  | reads hDue =>
    rw [List.append_nil]
    exact h.read hKnown hSeparate hDue
  | @parses _ kind number update text found hUpdate hText hFound =>
    rw [List.append_nil]
    refine ⟨hTracks, h.scheduled.of_subperm (.refl _) rfl rfl rfl,
      h.backed.finish hUpdate hText hFound, ?_⟩
    intro uri path newest hNewest hPath hFile
    exact (h.newest uri path newest hNewest hPath hFile).imp (·.finish kind number _)
      (·.finish h.backed kind number _)
  | @completes _ refresh hRunning =>
    rw [List.append_nil]
    refine ⟨hTracks, h.scheduled.complete refresh, h.backed, ?_⟩
    intro uri path text hText hPath hFile
    exact (h.newest uri path text hText hPath hFile).imp_left
      (·.complete h.scheduled.toCounted hRunning)

theorem steps (hQuiet : session.pending = [])
    (hIndex : ∀ kind, (session.index.registry kind).ComesFrom parses known)
    (hSteps : EditSteps parses { session } notices run)
    (hKnown : ∀ edit ∈ Notice.edits notices, edit.2 ∈ known)
    (hSeparate : session.Separates notices) : run.Converging parses known session notices := by
  -- the steps before the last one know fewer edits, for which the assumptions hold as well
  induction hSteps with
  | none => exact start hQuiet hIndex
  | @more before _ _ _ _ hStep ih =>
    simp only [Notice.edits_append, List.mem_append] at hKnown
    have hKnownBefore : ∀ edit ∈ Notice.edits before, edit.2 ∈ known :=
      fun edit hEdit => hKnown edit (.inl hEdit)
    have hSeparateBefore : session.Separates before := by
      intro edit hEdit other hOther
      refine hSeparate edit ?_ other ?_
      · rw [Notice.edits_append]
        exact List.mem_append_left _ hEdit
      · rw [Notice.edits_append]
        exact List.mem_append_left _ hOther
    exact (ih hKnownBefore hSeparateBefore).step hKnownBefore hSeparateBefore hStep

/-- A document that nothing is under way for is known by its newest text. -/
theorem of_settled (h : run.Converging parses known session notices) (hSettled : run.settled)
    {uri : Uri} {path : Path} {text : String} (hText : Notice.lastText? notices uri = some text)
    (hPath : uri.toPath? = some path) (hTracks : session.tracks path = true) {kind : EntityKind}
    (hTakes : kind.takes path = true) :
    ((run.session.index.registry kind).stored path).2 = some (Text.contentDigest text) := by
  rcases h.newest uri path text hText hPath hTracks with hExpects | hBound
  · exact absurd hExpects hSettled.not_expects
  · exact (hBound kind hTakes).of_settled (hSettled.2.2.2 kind)

end EditRun.Converging

/-- However edits, wake-ups, refreshes and the ends of parses follow each other: once nothing is
under way, every registry that takes the file of an edited document knows it by the last text of the
document, and holds what a parse of that text has found. The digest is assumed to tell the texts
apart that are edited or stored. -/
theorem edits_converge {known : Set String} {session : Session m} {notices : List Notice}
    {run : EditRun m} (hQuiet : session.pending = [])
    (hIndex : ∀ kind, (session.index.registry kind).ComesFrom parses known)
    (hKnown : ∀ edit ∈ Notice.edits notices, edit.2 ∈ known)
    (hDigests : Set.InjOn Text.contentDigest known) (hSeparate : session.Separates notices)
    (hSteps : EditSteps parses { session } notices run) (hSettled : run.settled) {uri : Uri}
    {path : Path} {text : String} (hText : Notice.lastText? notices uri = some text)
    (hPath : uri.toPath? = some path) (hTracks : session.tracks path = true) {kind : EntityKind}
    (hTakes : kind.takes path = true) :
    ((run.session.index.registry kind).stored path).2 = some (Text.contentDigest text) ∧
      ∃ spelling found, Path.same spelling path = true ∧ parses kind spelling text found ∧
        ((run.session.index.registry kind).stored path).1 = some (kind.ofFile spelling found) := by
  have hRun := EditRun.Converging.steps hQuiet hIndex hSteps hKnown hSeparate
  have hStored := hRun.of_settled hSettled hText hPath hTracks hTakes
  obtain ⟨parsed, hParsed, hSame, hEntities⟩ := (hRun.backed kind).stored path _ hStored
  have hTexts : parsed = text :=
    hDigests hParsed (hKnown _ (Notice.mem_edits_of_lastText? hText)) hSame
  rw [hTexts] at hEntities
  exact ⟨hStored, hEntities⟩

/-- A document that is opened and edited to the same text: the first call is superseded, and the
second one reads the text. -/
theorem edits_converge_reopened :
    let parses : Parses := fun _ _ _ found => found = []
    let session : Session Id := { connect := fun _ => {} }
    let uri : Uri := { scheme := "file", authority := some {}, path := "/router.ex" }
    let notices : List Notice := [.opened uri "", .edited uri (some "")]
    ∃ run : EditRun Id,
      EditSteps parses { session } notices run ∧ run.settled ∧
      ((run.session.index.registry .routes).stored ⟨"/router.ex"⟩).2 =
        some (Text.contentDigest "") ∧
      ∃ spelling found, Path.same spelling ⟨"/router.ex"⟩ = true ∧
        parses .routes spelling "" found ∧
        ((run.session.index.registry .routes).stored ⟨"/router.ex"⟩).1 =
          some (EntityKind.routes.ofFile spelling found) := by
  intro parses session uri notices
  let path : Path := ⟨"/router.ex"⟩
  have hPath : uri.toPath? = some path := by
    simp only [uri, path]
    rfl
  have hTracks : session.tracks path = true := by
    simp only [session, path]
    rfl
  have hTakes : ∀ kind : EntityKind, kind.takes path = decide (kind = .routes) := by
    intro kind
    simp only [path]
    cases kind <;> rfl
  -- The second call comes before the first one wakes up.
  let first : PendingRefresh := { uri, version := 1, due := 300 }
  let second : PendingRefresh := { uri, version := 2, due := 310 }
  let called : EditRun Id :=
    ((({ session } : EditRun Id).receive uri "").count 0 uri).receive uri "" |>.count 10 uri
  have hCalled : EditSteps parses { session } notices called := by
    refine .more (.more (.more (.more .none (.receives rfl)) (.counts 0 ?_)) (.receives rfl))
      (.counts 10 ?_)
    · simp [EditRun.receive, hPath]
    · simp [EditRun.receive, hPath]
  let awake : EditRun Id := (called.wake first).wake second
  have hAwake : EditSteps parses { session } notices awake := by
    refine .more (.more hCalled (.wakes ?_)) (.wakes ?_)
    · decide
    · decide
  have hRead : awake.read second = (awake.take second).begin path "" := by
    have hText : awake.session.text? uri = some "" := by decide
    simp only [EditRun.read]
    rw [hText, hPath]
    exact if_pos hTracks
  have hRun : ∀ kind, (awake.read second).registryRun kind =
      if kind = .routes then (RegistryRun.start {}).step (.begins path "") else .start {} := by
    intro kind
    rw [hRead, EditRun.registryRun_begin, hTakes]
    cases kind <;> rfl
  let update : PendingUpdate := { path, digest := Text.contentDigest "", generation := 1 }
  have hUpdate : ((awake.read second).registryRun .routes).inFlight? 0 = some update := by
    have hBegun : (({} : FileRegistry Route).startUpdate path "").2 = some update :=
      FileRegistry.startUpdate_snd_of_ne (by simp [FileRegistry.stored, PathTable.get?_empty])
    rw [hRun, if_pos rfl, RegistryRun.inFlight?_eq_some, RegistryRun.start, RegistryRun.step]
    exact congrArg some hBegun
  have hSteps : EditSteps parses { session } notices
      ((awake.read second).finish .routes 0 (EntityKind.routes.ofFile path [])) := by
    have hTexts : ((awake.read second).texts .routes)[0]? = some "" := by
      simp [hRead, EditRun.begin, hTakes]
      rfl
    have hDue : second ∈ awake.due := by decide
    have hStep := @EditStep.parses _ parses _ .routes 0 update "" [] hUpdate hTexts rfl
    exact .more (.more hAwake (.reads hDue)) hStep
  have hSettled :
      ((awake.read second).finish .routes 0 (EntityKind.routes.ofFile path [])).settled := by
    have hWaits : awake.called = [] ∧ awake.session.pending = [] ∧ awake.due = [second] := by decide
    rw [hRead]
    refine ⟨hWaits.1, hWaits.2.1, ?_, ?_⟩
    · simp [EditRun.finish, EditRun.begin, EditRun.take, hWaits.2.2]
    · rw [← hRead]
      intro kind number
      by_cases hKind : kind = .routes
      · cases hKind
        rw [EditRun.registryRun_finish, RegistryRun.step_ends hUpdate, hRun, if_pos rfl]
        cases number <;> rfl
      · rw [EditRun.registryRun_finish_of_ne _ hKind, hRun, if_neg hKind]
        rfl
  refine ⟨_, hSteps, hSettled, ?_⟩
  have hSeparate : session.Separates notices := by
    simp [notices, Session.Separates, Notice.edits, Notice.edit?]
  have hKnown : ∀ edit ∈ Notice.edits notices, edit.2 ∈ ({""} : Set String) := by
    simp [notices, Notice.edits, Notice.edit?]
  have hLast : Notice.lastText? notices uri = some "" := by
    simp [notices, Notice.lastText?, Notice.edits, Notice.edit?]
  have hIndex : ∀ kind, (session.index.registry kind).ComesFrom parses {""} := by
    intro kind path digest h
    cases kind <;> cases h
  exact edits_converge rfl hIndex hKnown (Set.injOn_singleton _ _) hSeparate hSteps hSettled
    hLast hPath hTracks (by rw [hTakes]; rfl)

end PhoenixLens
