import Mathlib.Data.List.Nodup
import PhoenixLens.Index.Basic
import PhoenixLens.Proofs.Index.Reached
import PhoenixLens.Proofs.Index.Registry

/-!
# What holds of every index

Six registries are filled by updates, scans, refreshed templates and snapshots, and an exact parser
may answer anything. Still each registry keeps entities and digests for the same files, all of them
files that its kind takes, and what it keeps of a file says that it comes from there and lists
components and events once.
-/

namespace PhoenixLens

namespace EntityKind

/-- The file that an entity says it comes from; for a template that is the file of its module. -/
def source : (kind : EntityKind) → kind.Entity → Path
  | .components => Component.filePath
  | .routes => Route.filePath
  | .events => Event.filePath
  | .schemas => SchemaInfo.filePath
  | .templates => TemplateInfo.moduleFile
  | .controllers => ControllerInfo.filePath

/-- Of a file, components are listed once by module and name, and events by module, name and
kind. -/
def IsListedOnce : (kind : EntityKind) → List kind.Entity → Prop
  | .components, found => (found.map fun c : Component => (c.moduleName, c.name)).Nodup
  | .events, found => (found.map fun e : Event => (e.moduleName, e.name, e.kind)).Nodup
  | _, _ => True

end EntityKind

/-! ### What is kept of a file -/

theorem map_mergeFirst {β : Type} {key : Component → β}
    (hKey : ∀ c other : Component, key (c.mergeClause other) = key c) (component : Component)
    (components : List Component) :
    (addComponent.mergeFirst component components).map key = components.map key := by
  induction components with
  | nil => rfl
  | cons c components ih =>
    rw [addComponent.mergeFirst]
    split
    · rw [List.map_cons, List.map_cons, hKey]
    · rw [List.map_cons, List.map_cons, ih]

theorem listedOnce_addComponent {components : List Component}
    (h : EntityKind.components.IsListedOnce components) (component : Component) :
    EntityKind.components.IsListedOnce (addComponent components component) := by
  rw [EntityKind.IsListedOnce] at h ⊢
  rw [addComponent]
  split
  · rwa [map_mergeFirst fun _ _ => rfl]
  · next hNew =>
    rw [List.map_append, List.nodup_append]
    refine ⟨h, List.nodup_singleton _, ?_⟩
    rintro _ hMem _ hLast rfl
    obtain ⟨other, hOther, hKey⟩ := List.mem_map.mp hMem
    obtain ⟨hModule, hName⟩ := Prod.mk.inj (hKey.trans (List.mem_singleton.mp hLast))
    refine hNew (List.any_eq_true.mpr ⟨other, hOther, ?_⟩)
    rw [Component.isClauseOf, hModule, hName, beq_self_eq_true, beq_self_eq_true, Bool.and_self]

theorem listedOnce_addEvent {events : List Event} (h : EntityKind.events.IsListedOnce events)
    (event : Event) : EntityKind.events.IsListedOnce (addEvent events event) := by
  rw [EntityKind.IsListedOnce] at h ⊢
  rw [addEvent]
  split
  · exact h
  · next hNew =>
    rw [List.map_append, List.nodup_append]
    refine ⟨h, List.nodup_singleton _, ?_⟩
    rintro _ hMem _ hLast rfl
    obtain ⟨other, hOther, hKey⟩ := List.mem_map.mp hMem
    obtain ⟨hModule, hRest⟩ := Prod.mk.inj (hKey.trans (List.mem_singleton.mp hLast))
    obtain ⟨hName, hKind⟩ := Prod.mk.inj hRest
    refine hNew (List.any_eq_true.mpr ⟨other, hOther, ?_⟩)
    simp [hModule, hName, hKind]

/-- A property that both an added component and one with a further clause have holds of all. -/
theorem forall_addComponent {P : Component → Prop}
    (hMerge : ∀ c other : Component, P c → P (c.mergeClause other)) {components : List Component}
    {component : Component} (h : ∀ c ∈ components, P c) (hNew : P component) :
    ∀ c ∈ addComponent components component, P c := by
  have hMerged (cs : List Component) (hAll : ∀ c ∈ cs, P c) :
      ∀ c ∈ addComponent.mergeFirst component cs, P c := by
    induction cs with
    | nil => exact hAll
    | cons first cs ih =>
      obtain ⟨hFirst, hRest⟩ := List.forall_mem_cons.mp hAll
      rw [addComponent.mergeFirst]
      split
      · exact List.forall_mem_cons.mpr ⟨hMerge first component hFirst, hRest⟩
      · exact List.forall_mem_cons.mpr ⟨hFirst, ih hRest⟩
  rw [addComponent]
  split
  · exact hMerged components h
  · exact List.forall_mem_append.mpr ⟨h, by simpa using hNew⟩

theorem addEvent_subset (events : List Event) (event : Event) :
    addEvent events event ⊆ events ++ [event] := by
  rw [addEvent]
  split
  · exact List.subset_append_left _ _
  · exact List.Subset.refl _

namespace EntityKind

theorem source_ofFile (kind : EntityKind) (path : Path) (found : List kind.Entity) :
    ∀ a ∈ kind.ofFile path found, kind.source a = path := by
  cases kind with
  | components =>
    refine List.foldlRecOn (motive := fun cs => ∀ c ∈ cs, Component.filePath c = path) _ _ nofun
      fun components h component hFound => ?_
    obtain ⟨_, _, rfl⟩ := List.mem_map.mp hFound
    exact forall_addComponent (fun _ _ hPath => hPath) h rfl
  | events =>
    refine List.foldlRecOn (motive := fun es => ∀ e ∈ es, Event.filePath e = path) _ _ nofun
      fun events h event hFound e hMem => ?_
    obtain ⟨_, _, rfl⟩ := List.mem_map.mp hFound
    obtain hBefore | hNew := List.mem_append.mp (addEvent_subset events _ hMem)
    · exact h e hBefore
    · rw [List.mem_singleton.mp hNew]
  | _ =>
    intro a ha
    obtain ⟨_, _, rfl⟩ := List.mem_map.mp ha
    rfl

theorem listedOnce_ofFile (kind : EntityKind) (path : Path) (found : List kind.Entity) :
    kind.IsListedOnce (kind.ofFile path found) := by
  cases kind with
  | components =>
    exact List.foldlRecOn (motive := EntityKind.components.IsListedOnce) _ _ List.nodup_nil
      fun _ h component _ => listedOnce_addComponent h component
  | events =>
    exact List.foldlRecOn (motive := EntityKind.events.IsListedOnce) _ _ List.nodup_nil
      fun _ h event _ => listedOnce_addEvent h event
  | _ => trivial

end EntityKind

/-! ### Registries -/

namespace FileRegistry

/-- Entities and digests are kept for the same files, which the kind takes, and the entities of a
file say that they come from there. -/
structure Sound {kind : EntityKind} (registry : FileRegistry kind.Entity) : Prop where
  proper : registry.Proper fun _ => True
  taken : ∀ file ∈ registry.files, kind.takes file = true
  source : ∀ e ∈ registry.entries.entries, ∀ a ∈ e.2, (kind.source a).same e.1 = true
  listedOnce : ∀ e ∈ registry.entries.entries, kind.IsListedOnce e.2

namespace Sound

variable {kind : EntityKind} {registry other : FileRegistry kind.Entity}

theorem empty : ({} : FileRegistry kind.Entity).Sound := ⟨.empty, nofun, nofun, nofun⟩

/-- What is known of the files is all that matters. -/
theorem congr (h : registry.Sound) (hEntries : other.entries = registry.entries)
    (hDigests : other.digests = registry.digests) : other.Sound := by
  obtain ⟨hProper, hTaken, hSource, hOnce⟩ := h
  rw [files, ← hEntries] at hTaken
  rw [← hEntries] at hSource hOnce
  refine ⟨⟨?_, ?_, fun _ _ _ _ => trivial⟩, hTaken, hSource, hOnce⟩
  · rw [hEntries, hDigests, hProper.paired]
  · rw [hDigests]
    exact hProper.distinct

theorem commit (h : registry.Sound) {path : Path} (hTaken : kind.takes path = true)
    (found : List kind.Entity) (digest : String) :
    (registry.commit path (kind.ofFile path found) digest).Sound := by
  refine ⟨h.proper.commit path digest fun _ _ => trivial, ?_, ?_, ?_⟩
  · intro file hFile
    rw [files, FileRegistry.commit, PathTable.keys_set] at hFile
    split at hFile
    · exact h.taken file hFile
    · obtain hBefore | hNew := List.mem_append.mp hFile
      · exact h.taken file hBefore
      · exact List.mem_singleton.mp hNew ▸ hTaken
  · intro e he a ha
    obtain hBefore | ⟨hSame, hValue⟩ := PathTable.mem_set he
    · exact h.source e hBefore a ha
    · rw [kind.source_ofFile path found a (hValue ▸ ha), Path.same_comm]
      exact hSame
  · intro e he
    obtain hBefore | ⟨_, hValue⟩ := PathTable.mem_set he
    · exact h.listedOnce e hBefore
    · exact hValue ▸ kind.listedOnce_ofFile path found

theorem startUpdate (h : registry.Sound) (path : Path) (content : String) :
    (registry.startUpdate path content).1.Sound := h.congr rfl rfl

theorem finishUpdate (h : registry.Sound) {update : PendingUpdate} {path : Path}
    (hPath : update.path = path) (hTaken : kind.takes path = true) (found : List kind.Entity) :
    (registry.finishUpdate update (kind.ofFile path found)).Sound := by
  subst hPath
  rw [FileRegistry.finishUpdate, commitIfCurrent]
  split
  · exact h.commit hTaken found update.digest
  · exact h

theorem remove (h : registry.Sound) (path : Path) : (registry.remove path).Sound := by
  refine ⟨h.proper.remove path, ?_, ?_, ?_⟩
  · intro file hFile
    rw [files, FileRegistry.remove, PathTable.keys_erase] at hFile
    exact h.taken file (List.mem_of_mem_filter hFile)
  · exact fun e he => h.source e (List.mem_of_mem_filter he)
  · exact fun e he => h.listedOnce e (List.mem_of_mem_filter he)

/-- A part of what a registry holds is taken over as it is. -/
theorem restore (h : other.Sound) (registry : FileRegistry kind.Entity) (keep : Path → Bool) :
    (registry.restore (other.snapshot.retain keep)).Sound := by
  have hDistinct : Path.Distinct ((other.entries.sorted.filter fun e => keep e.1).map (·.1)) :=
    (PathTable.distinct_sorted (h.proper.paired ▸ h.proper.distinct)).map_filter _
  have hTable : (registry.restore (other.snapshot.retain keep)).entries =
      ⟨other.entries.sorted.filter fun e => keep e.1⟩ := PathTable.ofList_of_distinct hDistinct
  have hKept (e : Path × List kind.Entity)
      (he : e ∈ (registry.restore (other.snapshot.retain keep)).entries.entries) :
      e ∈ other.entries.entries := by
    rw [hTable] at he
    exact other.entries.sorted_perm.mem_iff.mp (List.mem_of_mem_filter he)
  refine ⟨.restore ?_ fun _ _ _ _ => trivial, ?_, fun e he => h.source e (hKept e he),
    fun e he => h.listedOnce e (hKept e he)⟩
  · have hFiles {β : Type} (table : PathTable β) :
        (table.sorted.filter fun e => keep e.1).map (·.1) = (Path.sort table.keys).filter keep := by
      rw [← PathTable.map_fst_sorted, List.filter_map]
      rfl
    exact (hFiles _).trans ((congrArg _ (congrArg _ h.proper.paired)).trans (hFiles _).symm)
  · intro file hFile
    obtain ⟨e, he, rfl⟩ := List.mem_map.mp hFile
    exact h.taken e.1 (List.mem_map_of_mem (hKept e he))

end Sound

end FileRegistry

/-! ### Whatever an exact parser answers -/

/-- What a computation gives, with a gateway and the state of the parser behind it. -/
def Parsing.given {σ α : Type} (parsing : Parsing (StateM σ) α) (gateway : Gateway (StateM σ))
    (state : σ) : α :=
  ((parsing.run gateway).run state).1.1

def Parsing.Ensures {σ α : Type} (P : α → Prop) (parsing : Parsing (StateM σ) α) : Prop :=
  ∀ gateway state, P (parsing.given gateway state)

namespace Parsing

variable {σ α β : Type} {P : α → Prop} {Q : β → Prop}

theorem ensures_pure {a : α} (h : P a) : Ensures P (pure a : Parsing (StateM σ) α) :=
  fun _ _ => h

theorem Ensures.bind {parsing : Parsing (StateM σ) α} (h : parsing.Ensures P)
    {next : α → Parsing (StateM σ) β} (hNext : ∀ a, P a → (next a).Ensures Q) :
    (parsing >>= next).Ensures Q :=
  fun gateway state => hNext _ (h gateway state) _ _

theorem ensures_true (parsing : Parsing (StateM σ) α) : parsing.Ensures fun _ => True :=
  fun _ _ => trivial

theorem ensures_foldlM {step : α → β → Parsing (StateM σ) α} {bs : List β}
    (h : ∀ a, P a → ∀ b ∈ bs, (step a b).Ensures P) {a : α} (hStart : P a) :
    (bs.foldlM step a).Ensures P := by
  induction bs generalizing a with
  | nil => exact ensures_pure hStart
  | cons b bs ih =>
    rw [List.foldlM_cons]
    refine (h a hStart b List.mem_cons_self).bind fun next hNext => ?_
    exact ih (fun a ha b hb => h a ha b (List.mem_cons_of_mem _ hb)) hNext

end Parsing

namespace Index

variable {σ : Type} {index : Index} {kind : EntityKind}

/-- All six registries are sound. -/
def Sound (index : Index) : Prop := ∀ kind, (index.registry kind).Sound

theorem Sound.withRegistry (h : index.Sound) {registry : FileRegistry kind.Entity}
    (hRegistry : registry.Sound) : (index.withRegistry kind registry).Sound := by
  intro other
  by_cases hKind : other = kind
  · subst hKind
    rwa [registry_withRegistry]
  · rw [registry_withRegistry_of_ne index hKind]
    exact h other

theorem Sound.updateKind (h : index.Sound) (disk : Disk) {path : Path}
    (hTaken : kind.takes path = true) (text : String) :
    (index.updateKind disk kind path text : Parsing (StateM σ) _).Ensures fun r => r.1.Sound := by
  have hBegun := (h kind).startUpdate path text
  rw [Index.updateKind]
  split
  · next registry hStart =>
    rw [hStart] at hBegun
    exact Parsing.ensures_pure (h.withRegistry hBegun)
  · next registry update hStart =>
    rw [hStart] at hBegun
    have hUpdate := FileRegistry.startUpdate_snd_eq_some (congrArg Prod.snd hStart)
    refine (Parsing.ensures_true _).bind fun found _ => Parsing.ensures_pure (h.withRegistry ?_)
    exact hBegun.finishUpdate (congrArg PendingUpdate.path hUpdate) hTaken found.1

theorem Sound.update (h : index.Sound) (disk : Disk) (path : Path) (text : String) :
    (index.update disk path text : Parsing (StateM σ) _).Ensures fun r => r.1.Sound := by
  refine Parsing.ensures_foldlM (P := fun r : Index × Bool => r.1.Sound) ?_ h
  rintro ⟨index, changed⟩ hIndex kind hKind
  have hTaken : kind.takes path = true := (List.mem_filter.mp hKind).2
  exact (hIndex.updateKind disk hTaken text).bind fun _ hNext => Parsing.ensures_pure hNext

theorem sound_scanFile (disk : Disk) {registry : FileRegistry kind.Entity} (h : registry.Sound)
    {path : Path} (hTaken : kind.takes path = true) :
    (scanFile disk kind registry path : Parsing (StateM σ) _).Ensures fun r => r.1.Sound := by
  rw [scanFile]
  split
  · exact Parsing.ensures_pure h
  · next text hText =>
    have hBegun := h.startUpdate path text
    split
    · next next hStart =>
      rw [hStart] at hBegun
      exact Parsing.ensures_pure hBegun
    · next next update hStart =>
      rw [hStart] at hBegun
      have hUpdate := FileRegistry.startUpdate_snd_eq_some (congrArg Prod.snd hStart)
      refine (Parsing.ensures_true _).bind fun found _ => Parsing.ensures_pure ?_
      exact hBegun.finishUpdate (congrArg PendingUpdate.path hUpdate) hTaken found.1

theorem sound_scanKind (disk : Disk) (root : Path) (files : List Path)
    {registry : FileRegistry kind.Entity} (h : registry.Sound) :
    (scanKind disk root files kind registry : Parsing (StateM σ) _).Ensures fun r => r.1.Sound := by
  refine Parsing.ensures_foldlM (P := fun r : FileRegistry kind.Entity × Nat => r.1.Sound) ?_
    (h.congr rfl rfl)
  rintro ⟨registry, count⟩ hRegistry path hPath
  have hTaken : kind.takes path = true := (List.mem_filter.mp hPath).2
  exact (sound_scanFile disk hRegistry hTaken).bind fun _ hNext => Parsing.ensures_pure hNext

theorem Sound.scan (h : index.Sound) (disk : Disk) (root : Path) (files : List Path) :
    (index.scan disk root files : Parsing (StateM σ) _).Ensures fun r => r.1.Sound := by
  refine Parsing.ensures_foldlM (P := fun r : Index × Nat => r.1.Sound) ?_ h
  rintro ⟨index, count⟩ hIndex kind _
  exact (sound_scanKind disk root files (hIndex kind)).bind fun _ hNext =>
    Parsing.ensures_pure (hIndex.withRegistry hNext)

/-- A module file whose templates are refreshed has been taken before. -/
theorem Sound.refreshOwner (h : index.Sound) (disk : Disk) {file : Path}
    (hTaken : EntityKind.templates.takes file = true) :
    (index.refreshOwner disk file : Parsing (StateM σ) _).Ensures Sound := by
  have hRemoved : (index.withRegistry .templates (index.templates.remove file)).Sound :=
    h.withRegistry ((h .templates).remove file)
  rw [Index.refreshOwner]
  split
  · exact Parsing.ensures_pure hRemoved
  · next text hText =>
    exact (hRemoved.updateKind disk hTaken text).bind fun _ hNext => Parsing.ensures_pure hNext

theorem Sound.refreshTemplatesNear (h : index.Sound) (disk : Disk) (template : Path) :
    (index.refreshTemplatesNear disk template : Parsing (StateM σ) _).Ensures Sound := by
  refine Parsing.ensures_foldlM (fun index hIndex directory _ => ?_) h
  have hOwners : ∀ file ∈ index.templateOwnersIn directory,
      EntityKind.templates.takes file = true := fun file hFile =>
    (hIndex .templates).taken file (List.mem_of_mem_filter hFile)
  refine Parsing.ensures_foldlM (fun _ hNext file hFile => ?_) hIndex
  exact hNext.refreshOwner disk (hOwners file hFile)

/-! ### Every index -/

/-- The indexes that are led to from a new one. Each time something is parsed, the gateway, its
exact parser and the disk may be any. -/
inductive Attained : Index → Prop where
  | new : Attained {}
  | updates {index : Index} (h : Attained index) (disk : Disk) (path : Path) (text : String)
    {σ : Type} (gateway : Gateway (StateM σ)) (state : σ) :
    Attained (Parsing.given (index.update disk path text) gateway state).1
  | removes {index : Index} (h : Attained index) (path : Path) : Attained (index.remove path)
  | scans {index : Index} (h : Attained index) (disk : Disk) (root : Path) (files : List Path)
    {σ : Type} (gateway : Gateway (StateM σ)) (state : σ) :
    Attained (Parsing.given (index.scan disk root files) gateway state).1
  | refreshes {index : Index} (h : Attained index) (disk : Disk) (template : Path)
    {σ : Type} (gateway : Gateway (StateM σ)) (state : σ) :
    Attained (Parsing.given (index.refreshTemplatesNear disk template) gateway state)
  | clears {index : Index} (h : Attained index) : Attained index.clear
  | loads {index other : Index} (h : Attained index) (hOther : Attained other) :
    Attained (index.restore other.snapshot)
  | loadsPart {index other : Index} (h : Attained index) (hOther : Attained other)
    (keep : Path → Bool) : Attained (index.restore (other.snapshot.retain keep))

theorem Sound.restore {index other : Index} (h : other.Sound) (keep : Path → Bool) :
    (index.restore (other.snapshot.retain keep)).Sound := by
  intro kind
  rw [IndexSnapshot.registry_restore, IndexSnapshot.registry_retain,
    IndexSnapshot.registry_snapshot]
  exact (h kind).restore (index.registry kind) keep

theorem snapshot_retain_true (index : Index) :
    index.snapshot.retain (fun _ => true) = index.snapshot := by
  simp [IndexSnapshot.retain, RegistrySnapshot.retain]

theorem Attained.sound {index : Index} (h : index.Attained) : index.Sound := by
  induction h with
  | new => exact fun kind => by cases kind <;> exact .empty
  | updates _ disk path text gateway state ih => exact ih.update disk path text gateway state
  | @removes index _ path ih =>
    intro kind
    rw [Index.remove, registry_mapRegistries]
    exact (ih kind).remove path
  | scans _ disk root files gateway state ih => exact ih.scan disk root files gateway state
  | refreshes _ disk template gateway state ih =>
    exact ih.refreshTemplatesNear disk template gateway state
  | @clears index _ ih =>
    intro kind
    rw [Index.clear, registry_mapRegistries]
    exact ⟨⟨rfl, .nil, nofun⟩, nofun, nofun, nofun⟩
  | @loads _ other _ _ _ ihOther =>
    rw [← snapshot_retain_true other]
    exact ihOther.restore fun _ => true
  | loadsPart _ _ keep _ ihOther => exact ihOther.restore keep

/-- In every index, the files with entities are those with digests, and their kind takes them; what
is kept of a file comes from it; and no file has two components of one module and name, or two
events of one module, name and kind. -/
theorem represents_files {index : Index} (h : index.Attained) :
    (∀ kind, (index.registry kind).entries.keys = (index.registry kind).digests.keys) ∧
      (∀ kind, ∀ file ∈ (index.registry kind).files, kind.takes file = true) ∧
      (∀ kind, ∀ e ∈ (index.registry kind).entries.entries, ∀ a ∈ e.2,
        (kind.source a).same e.1 = true) ∧
      (∀ e ∈ index.components.entries.entries,
        (e.2.map fun c => (c.moduleName, c.name)).Nodup) ∧
      ∀ e ∈ index.events.entries.entries,
        (e.2.map fun c => (c.moduleName, c.name, c.kind)).Nodup :=
  ⟨fun kind => (h.sound kind).proper.paired, fun kind => (h.sound kind).taken,
    fun kind => (h.sound kind).source, (h.sound .components).listedOnce,
    (h.sound .events).listedOnce⟩

/-- A parser that reports the same event twice, as if it came from another file. -/
def repeatingParser : ExactParser (StateM Unit) where
  isAvailable := pure true
  run _ _ := pure (.ok (.obj [("events", .arr [event, event])]))
where
  event : Json := .obj [("name", .str "save"), ("filePath", .str "/etc/passwd"),
    ("moduleName", .str "Shop.CartLive"), ("line", .nat 3), ("kind", .str "handle_event"),
    ("nameKind", .str "string")]

theorem represents_files_of_repeated_event :
    let index :=
      (Parsing.given (({} : Index).update {} ⟨"lib/cart_live.ex"⟩ "")
        { parser := some repeatingParser } ()).1
    index.Attained ∧
      index.events.entries.entries.map (fun e => (e.1, e.2.map fun a => (a.filePath, a.name))) =
        [(⟨"lib/cart_live.ex"⟩, [(⟨"lib/cart_live.ex"⟩, "save")])] ∧
      (∀ kind, ∀ file ∈ (index.registry kind).files, kind.takes file = true) ∧
      ∀ e ∈ index.events.entries.entries,
        (e.2.map fun c => (c.moduleName, c.name, c.kind)).Nodup := by
  intro index
  have hAttained : index.Attained := Attained.new.updates {} _ _ _ ()
  obtain ⟨_, hTaken, _, _, hOnce⟩ := represents_files hAttained
  refine ⟨hAttained, ?_, hTaken, hOnce⟩
  decide

end Index

end PhoenixLens
