import PhoenixLens.Proofs.Index.Document
import PhoenixLens.Proofs.Path.Sorted

/-!
# Indexes that updates lead to

In every registry that updates lead to, entities and digests are kept for the same files, each of
them once. So what a registry holds is what it takes over from its own snapshot, and a part of the
snapshot gives the part of the registry.
-/

namespace PhoenixLens

variable {α : Type} {fits : α → Prop}

namespace FileRegistry

/-- Registries that updates with fitting entities lead to, and the taking over of snapshots that
have entities and digests for the same files. -/
inductive Reached (fits : α → Prop) : FileRegistry α → Prop where
  | empty : Reached fits {}
  | starts {registry : FileRegistry α} (h : Reached fits registry) (path : Path)
    (content : String) : Reached fits (registry.startUpdate path content).1
  | finishes {registry : FileRegistry α} (h : Reached fits registry) (update : PendingUpdate)
    {entities : List α} (hFits : ∀ a ∈ entities, fits a) :
    Reached fits (registry.finishUpdate update entities)
  | removes {registry : FileRegistry α} (h : Reached fits registry) (path : Path) :
    Reached fits (registry.remove path)
  | clears {registry : FileRegistry α} (h : Reached fits registry) : Reached fits registry.clear
  | roots {registry : FileRegistry α} (h : Reached fits registry) (root : Path) :
    Reached fits (registry.setRoot root)
  | restores {registry : FileRegistry α} (h : Reached fits registry)
    {snapshot : RegistrySnapshot α}
    (hPaired : snapshot.entries.map (·.1) = snapshot.digests.map (·.1))
    (hFits : ∀ e ∈ snapshot.entries, ∀ a ∈ e.2, fits a) :
    Reached fits (registry.restore snapshot)

/-- Entities and digests are kept for the same files, each of them once. -/
structure Proper (fits : α → Prop) (registry : FileRegistry α) : Prop where
  paired : registry.entries.keys = registry.digests.keys
  distinct : Path.Distinct registry.digests.keys
  fits : ∀ e ∈ registry.entries.entries, ∀ a ∈ e.2, fits a

namespace Proper

variable {registry : FileRegistry α}

theorem empty : ({} : FileRegistry α).Proper fits := ⟨rfl, .nil, nofun⟩

theorem commit (h : registry.Proper fits) (path : Path) {entities : List α} (digest : String)
    (hFits : ∀ a ∈ entities, fits a) : (registry.commit path entities digest).Proper fits := by
  refine ⟨?_, PathTable.distinct_set h.distinct path digest, ?_⟩
  · simp only [FileRegistry.commit, PathTable.keys_set, h.paired]
  · intro e he a ha
    rcases PathTable.mem_set he with hBefore | ⟨_, hNew⟩
    · exact h.fits e hBefore a ha
    · exact hFits a (hNew ▸ ha)

theorem finishUpdate (h : registry.Proper fits) (update : PendingUpdate) {entities : List α}
    (hFits : ∀ a ∈ entities, fits a) : (registry.finishUpdate update entities).Proper fits := by
  rw [FileRegistry.finishUpdate, commitIfCurrent]
  split
  · exact h.commit update.path update.digest hFits
  · exact h

theorem remove (h : registry.Proper fits) (path : Path) : (registry.remove path).Proper fits := by
  refine ⟨?_, PathTable.distinct_erase h.distinct path, ?_⟩
  · simp only [FileRegistry.remove, PathTable.keys_erase]
    exact congrArg _ h.paired
  · intro e he
    exact h.fits e (List.mem_of_mem_filter he)

theorem restore {snapshot : RegistrySnapshot α}
    (hPaired : snapshot.entries.map (·.1) = snapshot.digests.map (·.1))
    (hFits : ∀ e ∈ snapshot.entries, ∀ a ∈ e.2, fits a) :
    (registry.restore snapshot).Proper fits := by
  refine ⟨?_, PathTable.distinct_ofList _, ?_⟩
  · simp only [FileRegistry.restore, PathTable.keys_ofList, hPaired]
  · intro e he a ha
    obtain ⟨other, hOther, hValue⟩ := PathTable.mem_ofList he
    exact hFits other hOther a (hValue ▸ ha)

end Proper

theorem Reached.proper {registry : FileRegistry α} (h : registry.Reached fits) :
    registry.Proper fits := by
  induction h with
  | empty => exact .empty
  | starts _ path content ih => exact ⟨ih.paired, ih.distinct, ih.fits⟩
  | finishes _ update hFits ih => exact ih.finishUpdate update hFits
  | removes _ path ih => exact ih.remove path
  | clears _ ih => exact ⟨rfl, .nil, nofun⟩
  | roots _ root ih => exact ⟨ih.paired, ih.distinct, ih.fits⟩
  | restores _ hPaired hFits ih => exact .restore hPaired hFits

/-- A part of what a registry holds is all that a registry holds that takes it over. -/
theorem Proper.snapshot_restore {registry : FileRegistry α} (h : registry.Proper fits)
    (keep : Path → Bool) :
    (({} : FileRegistry α).restore (registry.snapshot.retain keep)).snapshot =
      registry.snapshot.retain keep := by
  have hEntries := PathTable.sorted_ofList_filter (h.paired ▸ h.distinct) fun e => keep e.1
  have hDigests := PathTable.sorted_ofList_filter h.distinct fun e => keep e.1
  simp only [snapshot, FileRegistry.restore, RegistrySnapshot.retain, hEntries, hDigests,
    Option.or_none]

end FileRegistry

/-! ### Snapshots of indexes -/

/-- Indexes whose registries updates lead to, with lines that have numbers of 32 bits. -/
def Index.Reached (index : Index) : Prop :=
  ∀ kind, (index.registry kind).Reached kind.FitsLines

namespace IndexSnapshot

theorem ext_registry {snapshot other : IndexSnapshot}
    (h : ∀ kind, snapshot.registry kind = other.registry kind) : snapshot = other := by
  cases snapshot
  cases other
  simp only [IndexSnapshot.mk.injEq]
  exact ⟨h .components, h .routes, h .events, h .schemas, h .templates, h .controllers⟩

theorem registry_snapshot (index : Index) (kind : EntityKind) :
    index.snapshot.registry kind = (index.registry kind).snapshot := by
  cases kind <;> rfl

theorem registry_retain (snapshot : IndexSnapshot) (keep : Path → Bool) (kind : EntityKind) :
    (snapshot.retain keep).registry kind = (snapshot.registry kind).retain keep := by
  cases kind <;> rfl

theorem registry_restore (index : Index) (snapshot : IndexSnapshot) (kind : EntityKind) :
    (index.restore snapshot).registry kind =
      (index.registry kind).restore (snapshot.registry kind) := by
  cases kind <;> rfl

end IndexSnapshot

namespace Index.Reached

variable {index : Index}

theorem proper (h : index.Reached) (kind : EntityKind) :
    (index.registry kind).Proper kind.FitsLines := (h kind).proper

theorem snapshot_restore (h : index.Reached) (keep : Path → Bool) :
    (({} : Index).restore (index.snapshot.retain keep)).snapshot = index.snapshot.retain keep := by
  refine IndexSnapshot.ext_registry fun kind => ?_
  have hEmpty : ({} : Index).registry kind = {} := by cases kind <;> rfl
  rw [IndexSnapshot.registry_snapshot, IndexSnapshot.registry_restore,
    IndexSnapshot.registry_retain, IndexSnapshot.registry_snapshot, hEmpty]
  exact (h.proper kind).snapshot_restore keep

theorem fitsLines (h : index.Reached) : index.snapshot.FitsLines := by
  intro kind e he
  rw [IndexSnapshot.registry_snapshot] at he
  exact (h.proper kind).fits e ((PathTable.sorted_perm _).mem_iff.mp he)

end Index.Reached

/-! ### The files of a snapshot -/

namespace IndexSnapshot

theorem dropRepeated_sublist (paths : List Path) : (dropRepeated paths).Sublist paths := by
  induction paths with
  | nil => exact .slnil
  | cons path paths ih =>
    rw [dropRepeated]
    split
    · rename_i next rest hRest
      rw [hRest] at ih
      split
      · exact (List.sublist_of_cons_sublist ih).cons_cons path
      · exact ih.cons_cons path
    · exact (List.nil_sublist _).cons_cons path

/-- Of paths in order, each is kept once. -/
theorem pairwise_dropRepeated {paths : List Path}
    (h : paths.Pairwise fun p q => p.atMost q = true) :
    (dropRepeated paths).Pairwise Path.Before := by
  induction paths with
  | nil => exact .nil
  | cons path paths ih =>
    obtain ⟨hFirst, hOrdered⟩ := List.pairwise_cons.mp h
    have hKept := ih hOrdered
    have hSub := dropRepeated_sublist paths
    rw [dropRepeated]
    split
    · rename_i next rest hRest
      rw [hRest] at hKept hSub
      obtain ⟨hNext, hAfter⟩ := List.pairwise_cons.mp hKept
      rcases Path.same_or_before (hFirst next (hSub.subset List.mem_cons_self)) with hSame | hBefore
      · rw [if_pos hSame]
        exact List.pairwise_cons.mpr ⟨fun q hq => (hNext q hq).congr_left hSame, hAfter⟩
      · rw [if_neg (by rw [hBefore.not_same]; decide)]
        refine List.pairwise_cons.mpr ⟨fun q hq => ?_, hKept⟩
        rcases List.mem_cons.mp hq with rfl | hLater
        · exact hBefore
        · exact hBefore.trans (hNext q hLater)
    · exact List.pairwise_singleton _ _

theorem any_dropRepeated (paths : List Path) (path : Path) :
    (dropRepeated paths).any (·.same path) = paths.any (·.same path) := by
  induction paths with
  | nil => rfl
  | cons first paths ih =>
    rw [List.any_cons, ← ih, dropRepeated]
    split
    · rename_i next rest hRest
      split
      · rename_i hSame
        rw [hRest, List.any_cons, List.any_cons, Path.same_congr_left hSame, ← Bool.or_assoc,
          Bool.or_self]
      · rw [hRest, List.any_cons]
    · rename_i hNil
      rw [hNil]
      rfl

theorem pairwise_files (snapshot : IndexSnapshot) : snapshot.files.Pairwise Path.Before := by
  refine pairwise_dropRepeated ?_
  rw [Path.sort]
  exact List.pairwise_mergeSort Path.atMost_trans Path.atMost_total _

/-- The files of a snapshot are those that a registry has a digest for. -/
theorem any_files (snapshot : IndexSnapshot) (path : Path) :
    snapshot.files.any (·.same path) = true ↔
      ∃ kind, (snapshot.registry kind).files.any (·.same path) = true := by
  rw [files, any_dropRepeated, Path.sort]
  have hPerm (paths : List Path) : (paths.mergeSort Path.atMost).any (·.same path) =
      paths.any (·.same path) := (List.mergeSort_perm _ _).any_eq
  rw [hPerm]
  simp only [List.any_append, Bool.or_eq_true]
  constructor
  · rintro (((((h | h) | h) | h) | h) | h)
    · exact ⟨.components, h⟩
    · exact ⟨.routes, h⟩
    · exact ⟨.events, h⟩
    · exact ⟨.schemas, h⟩
    · exact ⟨.templates, h⟩
    · exact ⟨.controllers, h⟩
  · rintro ⟨kind, h⟩
    cases kind <;> simp_all [registry]

end IndexSnapshot

end PhoenixLens
