import PhoenixLens.Index.Registry
import PhoenixLens.Proofs.Path.Order

/-!
# What the operations of a registry do to one file

Each operation is described by two values: what is stored of a file and the generation that the file
has reached. Later arguments use these equations and never open the tables.
-/

namespace PhoenixLens.FileRegistry

variable {α : Type}

/-- What is stored of a file: its entities, and the digest of the content that they come from. -/
def stored (registry : FileRegistry α) (path : Path) : Option (List α) × Option String :=
  (registry.entries.get? path, registry.digests.get? path)

theorem hasDigest_iff {registry : FileRegistry α} {path : Path} {digest : String} :
    registry.hasDigest path digest = true ↔ (registry.stored path).2 = some digest := by
  simp [hasDigest, digest?, stored]

theorem stored_congr (registry : FileRegistry α) {p q : Path} (h : p.same q = true) :
    registry.stored p = registry.stored q := by
  simp only [stored, PathTable.get?_congr _ h]

theorem generation_congr (registry : FileRegistry α) {p q : Path} (h : p.same q = true) :
    registry.generation p = registry.generation q := by
  simp only [generation, PathTable.get?_congr _ h]

/-! ### Beginning, committing, forgetting -/

@[simp] theorem stored_beginUpdate (registry : FileRegistry α) (p q : Path) :
    (registry.beginUpdate p).stored q = registry.stored q := rfl

theorem generation_beginUpdate (registry : FileRegistry α) (p q : Path) :
    (registry.beginUpdate p).generation q =
      if p.same q then registry.generation q + 1 else registry.generation q := by
  simp only [generation, beginUpdate, PathTable.get?_set]
  split
  · rename_i hKey
    rw [PathTable.get?_congr _ hKey, Option.getD_some]
  · rfl

theorem stored_commit (registry : FileRegistry α) (p q : Path) (entities : List α)
    (digest : String) :
    (registry.commit p entities digest).stored q =
      if p.same q then (some entities, some digest) else registry.stored q := by
  simp only [stored, commit, PathTable.get?_set]
  split <;> rfl

theorem stored_remove (registry : FileRegistry α) (p q : Path) :
    (registry.remove p).stored q = if p.same q then (none, none) else registry.stored q := by
  simp only [stored, remove, PathTable.get?_erase]
  split <;> rfl

theorem generation_remove (registry : FileRegistry α) (p q : Path) :
    (registry.remove p).generation q =
      if p.same q then registry.generation q + 1 else registry.generation q :=
  generation_beginUpdate registry p q

@[simp] theorem stored_clear (registry : FileRegistry α) (path : Path) :
    registry.clear.stored path = (none, none) := rfl

/-! ### The two halves of an update -/

@[simp] theorem startUpdate_fst (registry : FileRegistry α) (path : Path) (content : String) :
    (registry.startUpdate path content).1 = registry.beginUpdate path := rfl

theorem startUpdate_snd_eq_none {registry : FileRegistry α} {path : Path} {content : String}
    (h : (registry.startUpdate path content).2 = none) :
    (registry.stored path).2 = some (Text.contentDigest content) := by
  simp only [startUpdate] at h
  split at h
  · rename_i hKnown
    simpa using hasDigest_iff.mp hKnown
  · cases h

theorem startUpdate_snd_eq_some {registry : FileRegistry α} {path : Path} {content : String}
    {update : PendingUpdate} (h : (registry.startUpdate path content).2 = some update) :
    update = { path, digest := Text.contentDigest content
               generation := registry.generation path + 1 } := by
  simp only [startUpdate] at h
  split at h
  · cases h
  · rw [← Option.some.inj h, generation_beginUpdate, if_pos (Path.same_refl path)]

theorem startUpdate_snd_of_ne {registry : FileRegistry α} {path : Path} {content : String}
    (h : (registry.stored path).2 ≠ some (Text.contentDigest content)) :
    (registry.startUpdate path content).2 =
      some { path, digest := Text.contentDigest content
             generation := registry.generation path + 1 } := by
  cases hUpdate : (registry.startUpdate path content).2 with
  | none => exact absurd (startUpdate_snd_eq_none hUpdate) h
  | some update => rw [startUpdate_snd_eq_some hUpdate]

theorem isCurrent_iff {registry : FileRegistry α} {path : Path} {generation : Nat}
    (hBegun : 0 < generation) :
    registry.isCurrent path generation = true ↔ registry.generation path = generation := by
  simp only [isCurrent, FileRegistry.generation, beq_iff_eq]
  cases registry.generations.get? path with
  | none => simp only [Option.getD_none, reduceCtorEq, false_iff]; omega
  | some n => simp

@[simp] theorem generation_finishUpdate (registry : FileRegistry α) (update : PendingUpdate)
    (entities : List α) (q : Path) :
    (registry.finishUpdate update entities).generation q = registry.generation q := by
  simp only [finishUpdate, commitIfCurrent]
  split <;> rfl

theorem finishUpdate_of_not_current {registry : FileRegistry α} {update : PendingUpdate}
    (h : registry.isCurrent update.path update.generation = false) (entities : List α) :
    registry.finishUpdate update entities = registry := by
  rw [finishUpdate, commitIfCurrent, h]
  rfl

theorem stored_finishUpdate {registry : FileRegistry α} {update : PendingUpdate}
    (h : registry.isCurrent update.path update.generation = true) (entities : List α) (q : Path) :
    (registry.finishUpdate update entities).stored q =
      if update.path.same q then (some entities, some update.digest) else registry.stored q := by
  rw [finishUpdate, commitIfCurrent, if_pos h, stored_commit]

end PhoenixLens.FileRegistry
