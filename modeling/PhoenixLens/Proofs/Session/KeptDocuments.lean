import PhoenixLens.Session.Dispatch

/-!
# What leaves documents alone

A session refreshes, reads files, scans the project, writes its cache and answers questions. None of
this touches the texts of the documents that are open, or the phase of the session, whatever the
exact parser answers.
-/

namespace PhoenixLens

variable {σ α β : Type}

namespace Serving

/-- What a computation gives and leaves, with a state of the exact parser and the one behind it. -/
def outcome (serving : Serving (StateM σ) α) (turn : Turn (StateM σ)) (state : σ) :
    (α × Turn (StateM σ)) × σ :=
  (serving.run turn).run state

/-- The documents that are open and the phase stay, whatever the exact parser answers. -/
def Keeps (serving : Serving (StateM σ) α) : Prop :=
  ∀ turn state, (serving.outcome turn state).1.2.session.documents = turn.session.documents ∧
    (serving.outcome turn state).1.2.session.phase = turn.session.phase

theorem outcome_bind (serving : Serving (StateM σ) α) (next : α → Serving (StateM σ) β)
    (turn : Turn (StateM σ)) (state : σ) :
    (serving >>= next).outcome turn state =
      let first := serving.outcome turn state
      (next first.1.1).outcome first.1.2 first.2 := rfl

theorem keeps_pure (a : α) : Keeps (pure a : Serving (StateM σ) α) := fun _ _ => ⟨rfl, rfl⟩

theorem Keeps.bind {serving : Serving (StateM σ) α} (h : serving.Keeps)
    {next : α → Serving (StateM σ) β} (hNext : ∀ a, (next a).Keeps) : (serving >>= next).Keeps := by
  intro turn state
  rw [outcome_bind]
  obtain ⟨hDocuments, hPhase⟩ := h turn state
  obtain ⟨hLater, hLaterPhase⟩ :=
    hNext (serving.outcome turn state).1.1 (serving.outcome turn state).1.2
      (serving.outcome turn state).2
  exact ⟨hLater.trans hDocuments, hLaterPhase.trans hPhase⟩

theorem keeps_get : Keeps (get : Serving (StateM σ) (Turn (StateM σ))) := fun _ _ => ⟨rfl, rfl⟩

theorem keeps_session : Keeps (session : Serving (StateM σ) (Session (StateM σ))) :=
  fun _ _ => ⟨rfl, rfl⟩

theorem keeps_modify {f : Turn (StateM σ) → Turn (StateM σ)}
    (hDocuments : ∀ turn, (f turn).session.documents = turn.session.documents)
    (hPhase : ∀ turn, (f turn).session.phase = turn.session.phase) :
    Keeps (modify f : Serving (StateM σ) Unit) :=
  fun turn _ => ⟨hDocuments turn, hPhase turn⟩

theorem keeps_modifySession {f : Session (StateM σ) → Session (StateM σ)}
    (hDocuments : ∀ s, (f s).documents = s.documents) (hPhase : ∀ s, (f s).phase = s.phase) :
    Keeps (modifySession f) :=
  keeps_modify (fun turn => hDocuments turn.session) fun turn => hPhase turn.session

theorem keeps_send (message : ServerMessage) :
    Keeps (send message : Serving (StateM σ) Unit) := fun _ _ => ⟨rfl, rfl⟩

theorem keeps_indexing (action : Disk → Index → Parsing (StateM σ) (Index × α)) :
    Keeps (indexing action) := fun _ _ => ⟨rfl, rfl⟩

theorem keeps_forIn {items : List β} {step : β → α → Serving (StateM σ) (ForInStep α)} {a : α}
    (h : ∀ b a, (step b a).Keeps) : Keeps (forIn items a step) := by
  induction items generalizing a with
  | nil => exact keeps_pure a
  | cons item items ih =>
    rw [List.forIn_cons]
    refine (h item a).bind fun next => ?_
    cases next with
    | done a => exact keeps_pure a
    | yield a => exact ih

theorem keeps_forM {items : List β} {step : β → Serving (StateM σ) PUnit}
    (h : ∀ b, (step b).Keeps) : Keeps (items.forM step) := by
  induction items with
  | nil => exact keeps_pure _
  | cons item items ih => exact (h item).bind fun _ => ih

theorem keeps_publish (uri : Uri) (path : Path) (text : String) :
    Keeps (publish uri path text : Serving (StateM σ) Unit) := fun _ _ => ⟨rfl, rfl⟩

theorem keeps_publishOthers (uri : Uri) :
    Keeps (publishOthers uri : Serving (StateM σ) Unit) := by
  refine keeps_session.bind fun s => ?_
  refine (keeps_forIn fun d _ => ?_).bind fun _ => keeps_pure _
  obtain ⟨other, text⟩ := d
  dsimp only
  split
  · split
    · exact (keeps_publish _ _ _).bind fun _ => keeps_pure _
    · exact keeps_pure _
  · exact keeps_pure _

theorem keeps_keepTree (uri : Uri) (path : Path) (text : String) :
    Keeps (keepTree uri path text : Serving (StateM σ) Unit) := fun _ _ => ⟨rfl, rfl⟩

theorem keeps_refresh (uri : Uri) : Keeps (refresh uri : Serving (StateM σ) Unit) := by
  refine keeps_session.bind fun s => ?_
  split
  · next text path _ _ =>
    have hShown (changed : Bool) : Keeps (do
        keepTree uri path text
        publish uri path text
        if changed then publishOthers uri : Serving (StateM σ) Unit) := by
      refine (keeps_keepTree _ _ _).bind fun _ => (keeps_publish _ _ _).bind fun _ => ?_
      split
      · exact keeps_publishOthers uri
      · exact keeps_pure _
    split
    · exact (keeps_indexing _).bind hShown
    · exact (keeps_pure false).bind hShown
  · exact keeps_pure _

theorem keeps_resumeUntil (time : Nat) :
    Keeps (resumeUntil time : Serving (StateM σ) Unit) := by
  refine keeps_session.bind fun s => ?_
  split
  refine Keeps.bind ?_ fun _ => ?_
  · exact keeps_modifySession (fun _ => rfl) fun _ => rfl
  refine (keeps_forIn fun waiting _ => ?_).bind fun _ => keeps_pure _
  refine Keeps.bind ?_ fun _ => keeps_pure _
  refine keeps_session.bind fun s => ?_
  split
  · exact (keeps_refresh _).bind fun _ => keeps_modifySession (fun _ => rfl) fun _ => rfl
  · exact keeps_pure _

theorem keeps_giveWay : Keeps (giveWay : Serving (StateM σ) Unit) :=
  keeps_get.bind fun turn => keeps_resumeUntil turn.now

theorem keeps_fileChanged (uri : Uri) (change : FileChange) :
    Keeps (fileChanged uri change : Serving (StateM σ) Unit) := by
  refine keeps_session.bind fun s => ?_
  split
  · exact keeps_pure _
  · next path _ =>
    have hTemplates : Keeps (
        if path.isTemplate && change != .changed then
          indexing fun disk index => do return (← Index.refreshTemplatesNear disk index path, ())
        else pure () : Serving (StateM σ) Unit) := by
      split
      · exact keeps_indexing _
      · exact keeps_pure _
    dsimp only
    have hReread : Keeps (reread path : Serving (StateM σ) Unit) := by
      refine keeps_giveWay.bind fun _ => keeps_get.bind fun turn => ?_
      split
      · exact (keeps_indexing _).bind fun _ => keeps_pure _
      · exact keeps_pure _
    by_cases hDeleted : (change == .deleted) = true
    · rw [if_pos hDeleted]
      refine Keeps.bind ?_ fun _ => hTemplates
      exact keeps_modifySession (fun _ => rfl) fun _ => rfl
    · rw [if_neg hDeleted]
      by_cases hClosed : (!s.isOpen uri) = true
      · rw [if_pos hClosed]
        exact hReread.bind fun _ => hTemplates
      · rw [if_neg hClosed]
        exact hTemplates

theorem keeps_saveCache : Keeps (saveCache : Serving (StateM σ) Unit) := by
  refine keeps_get.bind fun turn => ?_
  split
  · exact keeps_pure _
  · split
    · exact keeps_modify (fun _ => rfl) fun _ => rfl
    · exact keeps_send _

theorem keeps_scanProject : Keeps (scanProject : Serving (StateM σ) Unit) := by
  refine keeps_session.bind fun s => ?_
  split
  · exact keeps_pure _
  · refine (keeps_send _).bind fun _ => (keeps_send _).bind fun _ => ?_
    refine keeps_giveWay.bind fun _ => (keeps_send _).bind fun _ => ?_
    refine keeps_get.bind fun turn => (keeps_send _).bind fun _ => ?_
    refine (keeps_indexing _).bind fun _ => keeps_session.bind fun s => ?_
    exact (keeps_send _).bind fun _ => keeps_send _

theorem keeps_configure (root : Path) : Keeps (configure root : Serving (StateM σ) Unit) :=
  fun _ _ => ⟨rfl, rfl⟩

theorem keeps_restoreCache (root : Path) :
    Keeps (restoreCache root : Serving (StateM σ) Unit) := by
  refine keeps_modify (fun turn => ?_) fun turn => ?_
  · split <;> rfl
  · split <;> rfl

theorem keeps_setUp (root : Option Uri) : Keeps (setUp root : Serving (StateM σ) Json) := by
  have hRest (root : Option Path) : Keeps (do
      modifySession fun s => { s with root }
      return .obj [("capabilities", capabilities),
        ("serverInfo", .obj [("name", .str "phoenix-lsp"), ("version", .str programVersion)])] :
      Serving (StateM σ) Json) := fun _ _ => ⟨rfl, rfl⟩
  rw [setUp]
  split
  · exact (keeps_pure _).bind fun _ => hRest _
  · refine (keeps_configure _).bind fun _ => keeps_session.bind fun s => ?_
    split
    · exact (keeps_restoreCache _).bind fun _ => hRest _
    · exact (keeps_pure _).bind fun _ => hRest _

theorem keeps_begin : Keeps (begin : Serving (StateM σ) Unit) := by
  refine (keeps_send _).bind fun _ => (keeps_send _).bind fun _ => ?_
  exact keeps_giveWay.bind fun _ => keeps_scanProject.bind fun _ => keeps_saveCache

theorem keeps_executeCommand (name : String) :
    Keeps (executeCommand name : Serving (StateM σ) Json) := by
  rw [executeCommand]
  split
  · refine Keeps.bind ?_ fun _ => keeps_pure _
    refine Keeps.bind ?_ fun _ => keeps_scanProject.bind fun _ => keeps_saveCache
    exact keeps_modifySession (fun _ => rfl) fun _ => rfl
  · exact (keeps_send _).bind fun _ => keeps_pure _

theorem keeps_atPlace (uri : Uri) (position : Text.Position)
    (f : Turn (StateM σ) → CompletionPlace → Option α × Markup.UsageExtractor) :
    Keeps (atPlace uri position f) := by
  refine keeps_get.bind fun turn => ?_
  split
  · refine Keeps.bind ?_ fun _ => keeps_pure _
    exact keeps_modifySession (fun _ => rfl) fun _ => rfl
  · exact keeps_pure _

theorem keeps_answer (query : Query) : Keeps (answer query : Serving (StateM σ) Reply) := by
  cases query with
  | initialization root => exact (keeps_setUp root).bind fun _ => keeps_pure _
  | shutdown => exact keeps_saveCache.bind fun _ => keeps_pure _
  | executeCommand name => exact (keeps_executeCommand name).bind fun _ => keeps_pure _
  | completion uri position => exact (keeps_atPlace uri position _).bind fun _ => keeps_pure _
  | definition uri position => exact (keeps_atPlace uri position _).bind fun _ => keeps_pure _
  | unsupported => exact keeps_pure _

end Serving

end PhoenixLens
