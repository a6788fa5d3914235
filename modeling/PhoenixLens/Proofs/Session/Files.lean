import PhoenixLens.Proofs.History
import PhoenixLens.Proofs.Session.Convergence

/-!
# Files beside documents

What is known of a file does not come from its document alone. A file is read when a project is
scanned, when it has changed on disk, when its document is closed and when a template has come or
gone; it is forgotten when it is deleted. Each of these touches the same registries as a refresh
does, at any time. Between the reading of a file and the update that it leads to anything may
happen, so an update begins with any text.
-/

namespace PhoenixLens

variable {m : Type → Type} {parses : Parses}

/-! ### Acts -/

/-- What happens to documents and to what is known of files. -/
inductive FileAct where
  | edits (uri : Uri) (text : String)
  | closes (uri : Uri)
  /-- A refresh reads its document. -/
  | refreshes (uri : Uri)
  /-- A registry begins an update with what has been read from disk. -/
  | loads (kind : EntityKind) (path : Path) (text : String)
  /-- All registries forget a file. -/
  | removes (path : Path)
  /-- The template list of a module file is forgotten, to be read anew. -/
  | renews (path : Path)
  /-- All registries forget all files. -/
  | clears
  /-- Something that is under way goes on. -/
  | proceeds
deriving DecidableEq

namespace FileAct

/-- The text that comes from the editor or from the disk. -/
def text? : FileAct → Option String
  | edits _ text | loads _ _ text => some text
  | _ => none

/-- It concerns documents alone. -/
def isOwn : FileAct → Bool
  | edits _ _ | refreshes _ | proceeds => true
  | _ => false

/-- What is known of the file in the registry is replaced, whatever document is open. -/
def overtakes (kind : EntityKind) (path : Path) : FileAct → Bool
  | loads other file _ => decide (other = kind) && file.same path
  | removes file => file.same path
  | renews file => decide (kind = .templates) && file.same path
  | clears => true
  | _ => false

/-- The disk has replaced what the registry knows of the file since the document was refreshed. -/
def Overtaken (kind : EntityKind) (uri : Uri) (path : Path) (acts : List FileAct) : Prop :=
  Since (· == .refreshes uri) (·.overtakes kind path = true) acts

instance (kind : EntityKind) (uri : Uri) (path : Path) (acts : List FileAct) :
    Decidable (Overtaken kind uri path acts) := inferInstanceAs (Decidable (Since _ _ _))

end FileAct

namespace EditRun

/-! ### Steps -/

/-- A document is closed, and its call no longer counts. -/
def close (run : EditRun m) (uri : Uri) : EditRun m :=
  { run with
    session := { run.session.drop uri with debouncer := run.session.debouncer.cancel uri } }

def load (run : EditRun m) (kind : EntityKind) (path : Path) (text : String) : EditRun m :=
  let next := (run.registryRun kind).step (.begins path text)
  { run with
    session := { run.session with index := run.session.index.withRegistry kind next.registry }
    updates := fun other => if other = kind then next.updates else run.updates other
    texts := fun other => if other = kind then run.texts other ++ [text] else run.texts other }

def remove (run : EditRun m) (path : Path) : EditRun m :=
  { run with session := { run.session with index := run.session.index.remove path } }

def renew (run : EditRun m) (path : Path) : EditRun m :=
  { run with
    session :=
      { run.session with
        index :=
          run.session.index.withRegistry .templates (run.session.index.templates.remove path) } }

def clear (run : EditRun m) : EditRun m :=
  { run with session := { run.session with index := run.session.index.clear } }

end EditRun

/-- One step of a session under edits, with files coming and going. -/
inductive FileStep (parses : Parses) : FileAct → EditRun m → EditRun m → Prop where
  | edits {run : EditRun m} (uri : Uri) (text : String) :
      FileStep parses (.edits uri text) run (run.receive uri text)
  | closes {run : EditRun m} (uri : Uri) : FileStep parses (.closes uri) run (run.close uri)
  | refreshes {run : EditRun m} {refresh : PendingRefresh} (hDue : refresh ∈ run.due) :
      FileStep parses (.refreshes refresh.uri) run (run.read refresh)
  | loads {run : EditRun m} (kind : EntityKind) (path : Path) (text : String) :
      FileStep parses (.loads kind path text) run (run.load kind path text)
  | removes {run : EditRun m} (path : Path) : FileStep parses (.removes path) run (run.remove path)
  | renews {run : EditRun m} (path : Path) : FileStep parses (.renews path) run (run.renew path)
  | clears {run : EditRun m} : FileStep parses .clears run run.clear
  | counts {run : EditRun m} {uri : Uri} (now : Nat) (hCalled : uri ∈ run.called) :
      FileStep parses .proceeds run (run.count now uri)
  | wakes {run : EditRun m} {refresh : PendingRefresh} (hWaits : refresh ∈ run.session.pending) :
      FileStep parses .proceeds run (run.wake refresh)
  | parses {run : EditRun m} {kind : EntityKind} {number : Nat} {update : PendingUpdate}
      {text : String} {found : List kind.Entity}
      (hUpdate : (run.registryRun kind).inFlight? number = some update)
      (hText : (run.texts kind)[number]? = some text)
      (hFound : parses kind update.path text found) :
      FileStep parses .proceeds run (run.finish kind number (kind.ofFile update.path found))
  | completes {run : EditRun m} {refresh : PendingRefresh} (hRunning : refresh ∈ run.running) :
      FileStep parses .proceeds run (run.complete refresh)

/-- Any number of steps, with what has happened, in order. -/
inductive FileSteps (parses : Parses) (first : EditRun m) : List FileAct → EditRun m → Prop where
  | none : FileSteps parses first [] first
  | more {acts : List FileAct} {act : FileAct} {run next : EditRun m}
      (hSteps : FileSteps parses first acts run) (hStep : FileStep parses act run next) :
      FileSteps parses first (acts ++ [act]) next

/-! ### What the steps do to the registries -/

namespace RegistryRun

/-- The registry forgets all files; updates that are in flight stay so. -/
def clear {α : Type} (run : RegistryRun α) : RegistryRun α :=
  { run with registry := run.registry.clear }

namespace Backed

variable {kind : EntityKind} {known : Set String} {run : RegistryRun kind.Entity}
  {texts : List String}

theorem removes (h : run.Backed parses known texts) (path : Path) :
    (run.step (.removes path)).Backed parses known texts := by
  refine ⟨h.wellFormed.step _, h.length, h.update, ?_⟩
  intro other digest hDigest
  rw [step, FileRegistry.stored_remove] at hDigest ⊢
  split at hDigest
  · cases hDigest
  · rename_i hOther
    rw [if_neg hOther]
    exact h.stored other digest hDigest

theorem clear (h : run.Backed parses known texts) : run.clear.Backed parses known texts :=
  ⟨h.wellFormed, h.length, h.update, nofun⟩

end Backed

end RegistryRun

namespace EditRun

theorem registryRun_load (run : EditRun m) (kind : EntityKind) (path : Path) (text : String) :
    (run.load kind path text).registryRun kind =
      (run.registryRun kind).step (.begins path text) := by
  simp [registryRun, load]

theorem registryRun_load_of_ne (run : EditRun m) {kind other : EntityKind} (h : other ≠ kind)
    (path : Path) (text : String) :
    (run.load kind path text).registryRun other = run.registryRun other := by
  simp [registryRun, load, h, Index.registry_withRegistry_of_ne]

theorem registryRun_remove (run : EditRun m) (path : Path) (kind : EntityKind) :
    (run.remove path).registryRun kind = (run.registryRun kind).step (.removes path) := by
  simp only [registryRun, remove, Index.remove, Index.registry_mapRegistries]
  rfl

theorem registryRun_renew (run : EditRun m) (path : Path) :
    (run.renew path).registryRun .templates =
      (run.registryRun .templates).step (.removes path) := by
  simp only [registryRun, renew, Index.registry_withRegistry]
  rfl

theorem registryRun_renew_of_ne (run : EditRun m) {kind : EntityKind} (h : kind ≠ .templates)
    (path : Path) : (run.renew path).registryRun kind = run.registryRun kind := by
  simp [registryRun, renew, Index.registry_withRegistry_of_ne _ h]

theorem registryRun_clear (run : EditRun m) (kind : EntityKind) :
    run.clear.registryRun kind = (run.registryRun kind).clear := by
  simp only [registryRun, clear, Index.clear, Index.registry_mapRegistries]
  rfl

theorem length_updates_finish (run : EditRun m) (kind : EntityKind) (number : Nat)
    (entities : List kind.Entity) (other : EntityKind) :
    ((run.finish kind number entities).updates other).length = (run.updates other).length := by
  by_cases hKind : other = kind
  · cases hKind
    have hFinish := congrArg (·.updates.length) (run.registryRun_finish kind number entities)
    rw [RegistryRun.length_updates_step] at hFinish
    exact hFinish
  · exact congrArg (·.updates.length) (run.registryRun_finish_of_ne hKind number entities)

/-- The act refreshes a document of the file. -/
def Refreshes (run : EditRun m) (act : FileAct) (path : Path) : Prop :=
  ∃ uri text other, act = .refreshes uri ∧ run.session.text? uri = some text ∧
    uri.toPath? = some other ∧ run.session.tracks other = true ∧ other.same path = true

end EditRun

/-- A registry takes at most one step, and this supersedes the updates of a file only if the file
is refreshed or overtaken; or it is cleared. -/
theorem FileStep.registryRun_cases {act : FileAct} {run next : EditRun m}
    (h : FileStep parses act run next) (kind : EntityKind) :
    next.registryRun kind = run.registryRun kind ∨
      (∃ event, next.registryRun kind = (run.registryRun kind).step event ∧
        ∀ path, event.supersedes path = true →
          act.overtakes kind path = true ∨ run.Refreshes act path) ∨
      act = .clears ∧ next.registryRun kind = (run.registryRun kind).clear := by
  cases h with
  | @refreshes _ refresh hDue =>
    rcases run.read_cases refresh with ⟨text, path, hText, hPath, hTracks, hRead⟩ | ⟨_, hRead⟩
    · have hBegin := (run.take refresh).registryRun_begin path text kind
      rw [← hRead] at hBegin
      split at hBegin
      · refine .inr (.inl ⟨_, hBegin, ?_⟩)
        intro other hOther
        exact .inr ⟨refresh.uri, text, path, rfl, hText, hPath, hTracks, hOther⟩
      · exact .inl hBegin
    · rw [hRead]
      exact .inl rfl
  | loads other path text =>
    by_cases hKind : kind = other
    · cases hKind
      refine .inr (.inl ⟨_, run.registryRun_load kind path text, ?_⟩)
      intro file hFile
      exact .inl (by simpa [FileAct.overtakes, RegistryEvent.supersedes] using hFile)
    · exact .inl (run.registryRun_load_of_ne hKind path text)
  | removes path =>
    exact .inr (.inl ⟨_, run.registryRun_remove path kind, fun file hFile => .inl hFile⟩)
  | renews path =>
    by_cases hKind : kind = .templates
    · cases hKind
      refine .inr (.inl ⟨_, run.registryRun_renew path, ?_⟩)
      intro file hFile
      exact .inl (by simpa [FileAct.overtakes, RegistryEvent.supersedes] using hFile)
    · exact .inl (run.registryRun_renew_of_ne hKind path)
  | clears => exact .inr (.inr ⟨rfl, run.registryRun_clear kind⟩)
  | @parses _ other number _ _ _ _ _ _ =>
    by_cases hKind : kind = other
    · cases hKind
      refine .inr (.inl ⟨_, run.registryRun_finish kind number _, ?_⟩)
      intro path hEnds
      cases hEnds
    · exact .inl (run.registryRun_finish_of_ne hKind number _)
  | _ => exact .inl rfl

/-- What a session does with documents alone begins updates at most. -/
theorem FileStep.registryRun_own {act : FileAct} {run next : EditRun m}
    (h : ∀ parses, FileStep parses act run next) (hOwn : act.isOwn = true) (kind : EntityKind) :
    next.registryRun kind = run.registryRun kind ∨
      ∃ path text, next.registryRun kind = (run.registryRun kind).step (.begins path text) := by
  cases h fun _ _ _ _ => False with
  | @refreshes _ refresh _ =>
    rcases run.read_cases refresh with ⟨text, path, _, _, _, hRead⟩ | ⟨_, hRead⟩
    · have hBegin := (run.take refresh).registryRun_begin path text kind
      rw [← hRead] at hBegin
      split at hBegin
      · exact .inr ⟨path, text, hBegin⟩
      · exact .inl hBegin
    · rw [hRead]
      exact .inl rfl
  | parses _ _ hFound => exact hFound.elim
  | loads => cases hOwn
  | removes => cases hOwn
  | renews => cases hOwn
  | clears => cases hOwn
  | _ => exact .inl rfl

/-! ### What every step preserves -/

theorem FileStep.tracks_eq {act : FileAct} {run next : EditRun m}
    (h : FileStep parses act run next) : next.session.tracks = run.session.tracks := by
  cases h with
  | @refreshes _ refresh hDue =>
    have hRead : EditStep parses [] run (run.read refresh) := .reads hDue
    exact hRead.tracks_eq
  | _ => rfl

theorem Session.text?_drop (session : Session m) (uri other : Uri) :
    (session.drop uri).text? other = if uri = other then none else session.text? other := by
  simp only [drop, text?, bne]
  split
  · rename_i hUri
    rw [hUri]
    exact Debouncer.lookup_filter_self _ _
  · rename_i hUri
    exact Debouncer.lookup_filter_ne _ (Ne.symm hUri)

/-- What the act makes of the text of a document. -/
def FileAct.textAfter (act : FileAct) (uri : Uri) (old : Option String) : Option String :=
  match act with
  | .edits other text => if other = uri then some text else old
  | .closes other => if other = uri then none else old
  | _ => old

theorem FileStep.text?_eq {act : FileAct} {run next : EditRun m}
    (h : FileStep parses act run next) (uri : Uri) :
    next.session.text? uri = act.textAfter uri (run.session.text? uri) := by
  cases h with
  | edits other text => exact Session.text?_store run.session other uri text
  | closes other => exact Session.text?_drop run.session other uri
  | @refreshes _ refresh hDue =>
    rcases run.read_cases refresh with ⟨text, path, _, _, _, hRead⟩ | ⟨_, hRead⟩
    · rw [hRead]
      rfl
    · rw [hRead]
      rfl
  | _ => rfl

/-- Refreshes have versions of their own, and every text that is open or stored is known. -/
structure EditRun.Sound (parses : Parses) (known : Set String) (session : Session m)
    (run : EditRun m) : Prop extends run.Counted where
  tracks : run.session.tracks = session.tracks
  texts : ∀ uri text, run.session.text? uri = some text → text ∈ known
  backed : run.Backed parses known

namespace EditRun.Sound

variable {known : Set String} {session : Session m} {acts : List FileAct} {act : FileAct}
  {run next : EditRun m}

theorem start (hQuiet : session.pending = []) (hDocuments : session.documents = [])
    (hIndex : ∀ kind, (session.index.registry kind).ComesFrom parses known) :
    EditRun.Sound parses known session { session } := by
  refine ⟨Counted.start hQuiet, rfl, ?_, ?_⟩
  · intro uri text hText
    rw [Session.text?, hDocuments] at hText
    cases hText
  · intro kind
    refine ⟨RegistryRun.wellFormed_start _, rfl, ?_, hIndex kind⟩
    intro number update hUpdate
    simp [registryRun, RegistryRun.inFlight?] at hUpdate

theorem counted_step (h : run.Counted) (hStep : FileStep parses act run next) : next.Counted := by
  cases hStep with
  | @refreshes _ refresh hDue =>
    rcases run.read_cases refresh with ⟨text, path, _, _, _, hRead⟩ | ⟨_, hRead⟩
    · rw [hRead]
      exact h.of_subperm (refreshes_take hDue).subperm rfl
    · rw [hRead]
      exact h.of_subperm (refreshes_take hDue).subperm rfl
  | @counts _ uri now hCalled => exact h.count now uri
  | wakes hWaits => exact h.of_subperm (refreshes_wake hWaits) rfl
  | @completes _ refresh hRunning =>
    exact h.of_subperm (run.refreshes_complete refresh) (Debouncer.lastVersion_complete _ _ _)
  | _ => exact h.of_subperm (.refl _) rfl

theorem backed_step (h : run.Sound parses known session)
    (hKnown : ∀ text, act.text? = some text → text ∈ known)
    (hStep : FileStep parses act run next) : next.Backed parses known := by
  cases hStep with
  | @refreshes _ refresh hDue =>
    have hTaken : (run.take refresh).Backed parses known := h.backed
    rcases run.read_cases refresh with ⟨text, path, hText, _, _, hRead⟩ | ⟨_, hRead⟩
    · rw [hRead]
      exact hTaken.begin path (h.texts _ _ hText)
    · rw [hRead]
      exact hTaken
  | loads kind path text =>
    intro other
    by_cases hKind : other = kind
    · cases hKind
      rw [registryRun_load]
      simpa [load] using (h.backed kind).begins path (hKnown text rfl)
    · rw [registryRun_load_of_ne run hKind]
      simpa [load, hKind] using h.backed other
  | removes path =>
    intro kind
    rw [registryRun_remove]
    exact (h.backed kind).removes path
  | renews path =>
    intro kind
    by_cases hKind : kind = .templates
    · cases hKind
      rw [registryRun_renew]
      exact (h.backed _).removes path
    · rw [registryRun_renew_of_ne run hKind]
      exact h.backed kind
  | clears =>
    intro kind
    rw [registryRun_clear]
    exact (h.backed kind).clear
  | parses hUpdate hText hFound => exact h.backed.finish hUpdate hText hFound
  | _ => exact h.backed

theorem step (h : run.Sound parses known session)
    (hKnown : ∀ text, act.text? = some text → text ∈ known)
    (hStep : FileStep parses act run next) : next.Sound parses known session := by
  refine ⟨counted_step h.toCounted hStep, hStep.tracks_eq.trans h.tracks, ?_,
    h.backed_step hKnown hStep⟩
  intro uri text hText
  rw [hStep.text?_eq] at hText
  cases act with
  | edits other new =>
    simp only [FileAct.textAfter] at hText
    split at hText
    · rw [← Option.some.inj hText]
      exact hKnown new rfl
    · exact h.texts uri text hText
  | closes other =>
    simp only [FileAct.textAfter] at hText
    split at hText
    · cases hText
    · exact h.texts uri text hText
  | _ => exact h.texts uri text hText

theorem steps (h : run.Sound parses known session)
    (hKnown : ∀ act ∈ acts, ∀ text, act.text? = some text → text ∈ known)
    (hSteps : FileSteps parses run acts next) : next.Sound parses known session := by
  induction hSteps with
  | none => exact h
  | @more before act _ _ _ hStep ih =>
    have hBefore : ∀ act ∈ before, ∀ text, act.text? = some text → text ∈ known :=
      fun act hAct => hKnown act (List.mem_append_left _ hAct)
    exact (ih hBefore).step (hKnown act (by simp)) hStep

/-- A file that is neither refreshed nor overtaken goes on towards its digest. -/
theorem leadsTo_step (h : run.Sound parses known session) (hStep : FileStep parses act run next)
    {kind : EntityKind} {path : Path} {goal : Option String}
    (hLeads : (run.registryRun kind).LeadsTo path goal)
    (hOvertakes : act.overtakes kind path = false) (hRefreshes : ¬run.Refreshes act path) :
    (next.registryRun kind).LeadsTo path goal := by
  rcases hStep.registryRun_cases kind with hSame | ⟨event, hEvent, hSupersedes⟩ | ⟨rfl, _⟩
  · rw [hSame]
    exact hLeads
  · rw [hEvent]
    refine hLeads.step_of_not_supersedes (h.backed kind).wellFormed ?_
    rw [← Bool.not_eq_true]
    intro hPath
    rcases hSupersedes path hPath with hOvertaken | hRefreshed
    · rw [hOvertaken] at hOvertakes
      cases hOvertakes
    · exact hRefreshes hRefreshed
  · cases hOvertakes

end EditRun.Sound

/-! ### The steps of a session by itself -/

namespace Serving

variable [Monad m] [LawfulMonad m] {uri : Uri} {turn : Turn m}

/-- A session that closes a document goes on as if the file had changed. -/
theorem run_close (uri : Uri) (turn : Turn m) :
    (close uri).run turn = (fileChanged uri .changed).run { turn with
      session :=
        { (({ session := turn.session } : EditRun m).close uri).session with
          extractor := turn.session.extractor.invalidate uri.text } } := by
  simp [close, modifySession, EditRun.close, Session.drop]

/-- A session forgets a file that is deleted, whether or not its document is open. -/
theorem run_fileChanged_deleted {path : Path} (hPath : uri.toPath? = some path)
    (hTracks : turn.session.tracks path = true) (hTemplate : path.isTemplate = false) :
    (fileChanged uri .deleted).run turn = pure ((), { turn with
      session :=
        { (({ session := turn.session } : EditRun m).remove path).session with
          extractor := turn.session.extractor.invalidate uri.text } }) := by
  simp [fileChanged, session, modifySession, EditRun.remove, hPath, hTracks, hTemplate,
    Option.filter]

/-- A session does not read a file that has changed while its document is open. -/
theorem run_fileChanged_open (hOpen : turn.session.isOpen uri = true) :
    (fileChanged uri .changed).run turn = pure ((), turn) := by
  cases hPath : uri.toPath?.filter turn.session.tracks with
  | none => simp [fileChanged, session, hPath]
  | some path => simp [fileChanged, session, hPath, hOpen]

theorem run_fileChanged_closed {path : Path} (hPath : uri.toPath? = some path)
    (hTracks : turn.session.tracks path = true) (hClosed : turn.session.isOpen uri = false) :
    (fileChanged uri .changed).run turn = (reread path).run turn := by
  simp [fileChanged, session, hPath, hTracks, hClosed, Option.filter]

end Serving

/-- A scan reads a file and takes the steps of an update, with the parse in between. -/
theorem Index.scanFile_eq [Monad m] [LawfulMonad m] (disk : Disk) (kind : EntityKind)
    (registry : FileRegistry kind.Entity) (path : Path) :
    (scanFile disk kind registry path : Parsing m (FileRegistry kind.Entity × Bool)) =
      match disk.read? path with
      | none => return (registry, false)
      | some text =>
        let begun := (RegistryRun.start registry).step (.begins path text)
        if (begun.inFlight? 0).isNone then return (begun.registry, true)
        else do
          let (found, _) ← Gateway.parseFile disk (.entities kind) path text
          return ((begun.step (.ends 0 (kind.ofFile path found))).registry, true) := by
  cases hText : disk.read? path with
  | none => simp [scanFile, hText]
  | some text =>
    cases hUpdate : registry.startUpdate path text with
    | mk next update =>
      cases update with
      | none =>
        simp [scanFile, hText, hUpdate, RegistryRun.start, RegistryRun.step, RegistryRun.inFlight?]
      | some update =>
        simp [scanFile, hText, hUpdate, RegistryRun.start, RegistryRun.step, RegistryRun.inFlight?]

/-! ### A router -/

def routerUri : Uri := { scheme := "file", authority := some {}, path := "/router.ex" }

def routerPath : Path := ⟨"/router.ex"⟩

def routerSession : Session Id := { connect := fun _ => {} }

def routerText (path : String) : String := "get \"" ++ path ++ "\", PageController, :index\n"

/-- Every parse finds what the scanner of its kind finds. -/
def scannedParses (disk : Disk) : Parses :=
  fun kind path text found => found = kind.scan disk path text.toList

end PhoenixLens
