import PhoenixLens.Proofs.Index.Representation

/-!
# Indexes of files that are read one after the other

What is found in a text is up to a gateway and its exact parser, each time in the state that it is
in then. It does not depend on what the index knows of other files. So an index of files that are
read once each holds, kind by kind, what is held of each of them, in the order of reading.
-/

namespace PhoenixLens

/-- A text of a file, with the gateway and the state of its parser when the text is read. -/
structure FileReading (σ : Type) where
  path : Path
  text : String
  disk : Disk := {}
  gateway : Gateway (StateM σ) := {}
  state : σ

namespace FileReading

variable {σ : Type} (reading : FileReading σ)

def readInto (index : Index) : Index :=
  (Parsing.given (index.update reading.disk reading.path reading.text) reading.gateway
    reading.state).1

/-- What is held of the file for a kind, whatever else has been read. -/
def held (kind : EntityKind) : List kind.Entity :=
  ((reading.readInto {}).registry kind).fromFile reading.path

end FileReading

/-- The index of files that have been read in the given order. -/
def Index.readAll {σ : Type} (readings : List (FileReading σ)) : Index :=
  readings.foldl (fun index reading => reading.readInto index) {}

/-! ### Reading a file that is new -/

namespace FileRegistry

variable {kind : EntityKind}

/-- Takes the entities of a file that has begun an update to the text. -/
def take (registry : FileRegistry kind.Entity) (path : Path) (text : String)
    (entities : List kind.Entity) : FileRegistry kind.Entity :=
  (registry.beginUpdate path).commit path entities (Text.contentDigest text)

theorem finishUpdate_startUpdate {registry : FileRegistry kind.Entity} {path : Path}
    (hNew : registry.digests.get? path = none) (text : String) :
    ∃ update, registry.startUpdate path text = (registry.beginUpdate path, some update) ∧
      ∀ entities, (registry.beginUpdate path).finishUpdate update entities =
        registry.take path text entities := by
  have hDigest : (registry.stored path).2 ≠ some (Text.contentDigest text) := by
    rw [stored, hNew]
    exact Option.some_ne_none _ ∘ Eq.symm
  refine ⟨_, Prod.ext rfl (startUpdate_snd_of_ne hDigest), fun entities => ?_⟩
  have hCurrent : (registry.beginUpdate path).isCurrent path (registry.generation path + 1) =
      true := by
    rw [isCurrent_iff (Nat.succ_pos _), generation_beginUpdate, if_pos (Path.same_refl path)]
  rw [finishUpdate, commitIfCurrent, if_pos hCurrent, take]

theorem fromFile_take (registry : FileRegistry kind.Entity) (path : Path) (text : String)
    (entities : List kind.Entity) :
    (registry.take path text entities).fromFile path = entities := by
  rw [fromFile, take, commit, PathTable.get?_set, if_pos (Path.same_refl path), Option.getD_some]

end FileRegistry

namespace Index

variable {σ : Type}

theorem updateKind_of_new {index : Index} {kind : EntityKind} {path : Path}
    (hNew : (index.registry kind).digests.get? path = none) (disk : Disk) (text : String) :
    (index.updateKind disk kind path text : Parsing (StateM σ) _) = do
      let found ← Gateway.parse disk (.entities kind) path text
      return (index.withRegistry kind
        ((index.registry kind).take path text (kind.ofFile path found.1)), true) := by
  obtain ⟨update, hStart, hFinish⟩ := FileRegistry.finishUpdate_startUpdate hNew text
  simp only [updateKind, hStart, hFinish]

/-- What an update finds does not depend on the index, if the text is new to its registries. -/
theorem exists_given_updateKinds (disk : Disk) (path : Path) (text : String)
    {kinds : List EntityKind} (hNodup : kinds.Nodup) (gateway : Gateway (StateM σ)) (state : σ) :
    ∃ found : (kind : EntityKind) → List kind.Entity, ∀ (index : Index) (changed : Bool),
      (∀ kind ∈ kinds, (index.registry kind).digests.get? path = none) →
      ∀ kind, ((Parsing.given (kinds.foldlM (fun (r : Index × Bool) kind => do
          let next ← updateKind disk r.1 kind path text
          return (next.1, r.2 || next.2)) (index, changed)) gateway state).1.registry kind) =
        if kind ∈ kinds then
          (index.registry kind).take path text (kind.ofFile path (found kind))
        else index.registry kind := by
  induction kinds generalizing gateway state with
  | nil => exact ⟨fun _ => [], fun index _ _ kind => rfl⟩
  | cons first kinds ih =>
    obtain ⟨hFirst, hRest⟩ := List.nodup_cons.mp hNodup
    let parsed := ((Gateway.parse disk (.entities first) path text).run gateway).run state
    obtain ⟨found, hFound⟩ := ih hRest parsed.1.2 parsed.2
    refine ⟨Function.update found first parsed.1.1.1, fun index changed hNew kind => ?_⟩
    let next := index.withRegistry first
      ((index.registry first).take path text (first.ofFile path parsed.1.1.1))
    have hOther (other : EntityKind) (hOther : other ≠ first) :
        next.registry other = index.registry other := registry_withRegistry_of_ne index hOther _
    have hNext : ∀ kind ∈ kinds, (next.registry kind).digests.get? path = none := by
      intro kind hKind
      rw [hOther kind fun h => hFirst (h ▸ hKind)]
      exact hNew kind (List.mem_cons_of_mem _ hKind)
    have hLater := hFound next (changed || true) hNext kind
    rw [List.foldlM_cons, updateKind_of_new (hNew first List.mem_cons_self)]
    refine Eq.trans hLater ?_
    by_cases hKind : kind = first
    · subst hKind
      rw [if_neg hFirst, if_pos List.mem_cons_self, Function.update_self]
      exact registry_withRegistry index _ _
    · simp only [hOther kind hKind, Function.update_of_ne hKind, List.mem_cons, hKind, false_or]

end Index

namespace FileReading

variable {σ : Type} (reading : FileReading σ)

theorem exists_registry_readInto : ∃ found : (kind : EntityKind) → List kind.Entity,
    ∀ index : Index, (∀ kind, (index.registry kind).digests.get? reading.path = none) →
      ∀ kind, (reading.readInto index).registry kind =
        if kind.takes reading.path = true then
          (index.registry kind).take reading.path reading.text
            (kind.ofFile reading.path (found kind))
        else index.registry kind := by
  have hNodup : (EntityKind.all.filter (·.takes reading.path)).Nodup :=
    List.Nodup.filter _ (by decide)
  obtain ⟨found, hFound⟩ := Index.exists_given_updateKinds reading.disk reading.path reading.text
    hNodup reading.gateway reading.state
  refine ⟨found, fun index hNew kind => ?_⟩
  have hUpdate := hFound index false (fun kind _ => hNew kind) kind
  simp only [List.mem_filter, EntityKind.mem_all, true_and] at hUpdate
  exact hUpdate

/-- What is held of a file is what a kind that takes it makes of some findings. -/
theorem exists_held_eq (kind : EntityKind) : ∃ found : List kind.Entity,
    (reading.held kind =
      if kind.takes reading.path = true then kind.ofFile reading.path found else []) ∧
    ∀ index : Index, (∀ kind, (index.registry kind).digests.get? reading.path = none) →
      (reading.readInto index).registry kind =
        if kind.takes reading.path = true then
          (index.registry kind).take reading.path reading.text (kind.ofFile reading.path found)
        else index.registry kind := by
  obtain ⟨found, hFound⟩ := reading.exists_registry_readInto
  have hEmpty (kind : EntityKind) : ({} : Index).registry kind = {} := by cases kind <;> rfl
  refine ⟨found kind, ?_, fun index hNew => hFound index hNew kind⟩
  rw [held, hFound {} (fun kind => by rw [hEmpty]; rfl), hEmpty]
  split
  · exact FileRegistry.fromFile_take _ _ _ _
  · rfl

/-- Reading a new file adds what is held of it to the registries that take it. -/
theorem registry_readInto {index : Index}
    (hNew : ∀ kind, (index.registry kind).digests.get? reading.path = none) (kind : EntityKind) :
    (reading.readInto index).registry kind =
      if kind.takes reading.path = true then
        (index.registry kind).take reading.path reading.text (reading.held kind)
      else index.registry kind := by
  obtain ⟨found, hHeld, hRegistry⟩ := reading.exists_held_eq kind
  rw [hRegistry index hNew]
  split
  · next hTakes => rw [hHeld, if_pos hTakes]
  · rfl

theorem held_of_not_takes {kind : EntityKind} (h : kind.takes reading.path = false) :
    reading.held kind = [] := by
  obtain ⟨found, hHeld, -⟩ := reading.exists_held_eq kind
  rw [hHeld, h, if_neg Bool.false_ne_true]

/-- What is held of a file says that it comes from there. -/
theorem source_held {kind : EntityKind} {a : kind.Entity} (h : a ∈ reading.held kind) :
    kind.source a = reading.path := by
  obtain ⟨found, hHeld, -⟩ := reading.exists_held_eq kind
  rw [hHeld] at h
  split at h
  · exact kind.source_ofFile reading.path found a h
  · cases h

end FileReading

/-! ### Reading files one after the other -/

namespace Index

variable {σ : Type} {readings : List (FileReading σ)}

theorem readAll_concat (readings : List (FileReading σ)) (reading : FileReading σ) :
    readAll (readings ++ [reading]) = reading.readInto (readAll readings) := by
  rw [readAll, List.foldl_concat, readAll]

/-- Every registry has entries and digests for the files that its kind takes, in the order of
reading. -/
theorem tables_readAll (h : Path.Distinct (readings.map (·.path))) (kind : EntityKind) :
    ((readAll readings).registry kind).entries =
        ⟨(readings.filter (kind.takes ·.path)).map fun r => (r.path, r.held kind)⟩ ∧
      ((readAll readings).registry kind).digests =
        ⟨(readings.filter (kind.takes ·.path)).map
          fun r => (r.path, Text.contentDigest r.text)⟩ := by
  induction readings using List.reverseRecOn generalizing kind with
  | nil => cases kind <;> exact ⟨rfl, rfl⟩
  | append_singleton readings reading ih =>
    rw [List.map_append, Path.Distinct, List.pairwise_append] at h
    obtain ⟨hBefore, -, hApart⟩ := h
    have hTable {β : Type} (value : FileReading σ → β) (kind : EntityKind) :
        (PathTable.mk ((readings.filter (kind.takes ·.path)).map
          fun r => (r.path, value r))).get? reading.path = none := by
      rw [PathTable.get?_eq_none_iff, PathTable.keys, List.map_map]
      refine List.forall_mem_map.mpr fun r hr => ?_
      exact hApart r.path (List.mem_map_of_mem (List.mem_of_mem_filter hr)) reading.path
        (List.mem_singleton_self _)
    have hNew (kind : EntityKind) :
        ((readAll readings).registry kind).digests.get? reading.path = none := by
      rw [(ih hBefore kind).2, hTable]
    obtain ⟨hEntries, hDigests⟩ := ih hBefore kind
    rw [readAll_concat, reading.registry_readInto hNew, List.filter_append, List.filter_singleton]
    cases hTakes : kind.takes reading.path with
    | false =>
      rw [if_neg Bool.false_ne_true, hEntries, hDigests]
      simp
    | true =>
      rw [if_pos rfl, FileRegistry.take, FileRegistry.commit, FileRegistry.beginUpdate]
      simp only
      rw [hEntries, hDigests, PathTable.set_of_get?_eq_none (hTable _ kind),
        PathTable.set_of_get?_eq_none (hTable _ kind)]
      simp

theorem files_readAll (h : Path.Distinct (readings.map (·.path))) (kind : EntityKind) :
    ((readAll readings).registry kind).files =
      (readings.filter (kind.takes ·.path)).map (·.path) := by
  rw [FileRegistry.files, (tables_readAll h kind).1, PathTable.keys, List.map_map]
  rfl

/-- A registry holds what is held of each file, in the order of reading. -/
theorem all_readAll (h : Path.Distinct (readings.map (·.path))) (kind : EntityKind) :
    ((readAll readings).registry kind).all = readings.flatMap (·.held kind) := by
  rw [FileRegistry.all, (tables_readAll h kind).1, PathTable.values, List.map_map]
  clear h
  induction readings with
  | nil => rfl
  | cons reading readings ih =>
    rw [List.filter_cons, List.flatMap_cons]
    split
    · rw [List.map_cons, List.flatten_cons, ih]
      rfl
    · next hTakes =>
      rw [reading.held_of_not_takes (Bool.not_eq_true _ ▸ hTakes), ih, List.nil_append]

end Index

end PhoenixLens
