import PhoenixLens.Index.Basic
import PhoenixLens.Proofs.Index.Registry

/-!
# What a scan stores

A scan without an exact parser reads each file for each registry that takes it. A registry that has
the digest of the text keeps what it has; any other stores what the scanner of its kind finds.
-/

namespace PhoenixLens

/-- What is stored of a file in which a scan has found the text. -/
def EntityKind.scanned (kind : EntityKind) (disk : Disk) (file : Path) (text : String) :
    Option (List kind.Entity) × Option String :=
  (some (kind.ofFile file (kind.scan disk file text.toList)), some (Text.contentDigest text))

/-- Only templates depend on more than the text. -/
theorem EntityKind.scanned_congr {kind : EntityKind} (h : kind ≠ .templates) (disk later : Disk)
    (file : Path) (text : String) : kind.scanned disk file text = kind.scanned later file text := by
  cases kind with
  | templates => exact absurd rfl h
  | _ => rfl

namespace FileRegistry

variable {kind : EntityKind} {disk : Disk} {registry : FileRegistry kind.Entity}
  {file path : Path} {files : List Path} {text : String}

/-- Reads a file anew, with the scanner of the kind. -/
def rescan (disk : Disk) (registry : FileRegistry kind.Entity) (file : Path) :
    FileRegistry kind.Entity :=
  match disk.read? file with
  | none => registry
  | some text =>
    match registry.startUpdate file text with
    | (registry, none) => registry
    | (registry, some update) =>
      registry.finishUpdate update (kind.ofFile file (kind.scan disk file text.toList))

theorem stored_rescan_of_unreadable (h : disk.read? file = none) (path : Path) :
    (registry.rescan disk file).stored path = registry.stored path := by
  rw [rescan, h]

theorem stored_rescan (h : disk.read? file = some text) (path : Path) :
    (registry.rescan disk file).stored path =
      if file.same path = true ∧ (registry.stored path).2 ≠ some (Text.contentDigest text) then
        kind.scanned disk file text
      else registry.stored path := by
  simp only [rescan, h]
  split
  · rename_i next hStart
    have hDigest := startUpdate_snd_eq_none (congrArg Prod.snd hStart)
    have hNext : next = registry.beginUpdate file := congrArg Prod.fst hStart.symm
    have hKeeps : ¬(file.same path = true ∧
        (registry.stored path).2 ≠ some (Text.contentDigest text)) := by
      rintro ⟨hSame, hOther⟩
      exact hOther (registry.stored_congr hSame ▸ hDigest)
    rw [hNext, stored_beginUpdate, if_neg hKeeps]
  · rename_i next update hStart
    have hUpdate := startUpdate_snd_eq_some (congrArg Prod.snd hStart)
    have hNext : next = registry.beginUpdate file := congrArg Prod.fst hStart.symm
    have hDigest : (registry.stored file).2 ≠ some (Text.contentDigest text) := by
      intro hKnown
      have hNone : (registry.startUpdate file text).2 = none :=
        if_pos (hasDigest_iff.mpr hKnown)
      rw [hStart] at hNone
      cases hNone
    have hCurrent : next.isCurrent update.path update.generation = true := by
      rw [hUpdate, hNext, isCurrent_iff (Nat.succ_pos _), generation_beginUpdate,
        if_pos (Path.same_refl file)]
    rw [stored_finishUpdate hCurrent, hNext, stored_beginUpdate, hUpdate]
    by_cases hSame : file.same path = true
    · rw [if_pos hSame, if_pos ⟨hSame, registry.stored_congr hSame ▸ hDigest⟩]
      rfl
    · rw [if_neg hSame, if_neg fun h => hSame h.1]

/-- Reads files anew, with the scanner of the kind. -/
def rescanAll (disk : Disk) (registry : FileRegistry kind.Entity) (files : List Path) :
    FileRegistry kind.Entity :=
  files.foldl (rescan disk) registry

theorem rescanAll_cons (disk : Disk) (registry : FileRegistry kind.Entity) (file : Path)
    (files : List Path) :
    registry.rescanAll disk (file :: files) = (registry.rescan disk file).rescanAll disk files :=
  rfl

theorem stored_rescanAll_of_other (h : ∀ f ∈ files, f.same path = false) :
    (registry.rescanAll disk files).stored path = registry.stored path := by
  induction files generalizing registry with
  | nil => rfl
  | cons file files ih =>
    have hOther : (registry.rescan disk file).stored path = registry.stored path := by
      cases hText : disk.read? file with
      | none => exact stored_rescan_of_unreadable hText path
      | some text =>
        rw [stored_rescan hText, if_neg]
        rintro ⟨hSame, -⟩
        rw [h file List.mem_cons_self] at hSame
        cases hSame
    rw [rescanAll_cons, ← hOther]
    exact ih fun f hf => h f (List.mem_cons_of_mem _ hf)

/-- What has the digest of the text stays. -/
theorem stored_rescanAll_of_known (hFiles : ∀ f ∈ files, f.same path = true → f = file)
    (hText : disk.read? file = some text)
    (hKnown : (registry.stored path).2 = some (Text.contentDigest text)) :
    (registry.rescanAll disk files).stored path = registry.stored path := by
  induction files generalizing registry with
  | nil => rfl
  | cons first files ih =>
    have hKept : (registry.rescan disk first).stored path = registry.stored path := by
      by_cases hSame : first.same path = true
      · rw [hFiles first List.mem_cons_self hSame, stored_rescan hText, if_neg]
        rintro ⟨-, hOther⟩
        exact hOther hKnown
      · have hApart : ∀ f ∈ [first], f.same path = false := by simpa using hSame
        exact stored_rescanAll_of_other hApart
    rw [rescanAll_cons, ← hKept]
    refine ih (fun f hf => hFiles f (List.mem_cons_of_mem _ hf)) ?_
    rw [hKept]
    exact hKnown

/-- What a scan stores of a file that it reads. -/
theorem stored_rescanAll (hFiles : ∀ f ∈ files, f.same path = true → f = file)
    (hText : disk.read? file = some text) (hMem : file ∈ files) (hSame : file.same path = true) :
    (registry.rescanAll disk files).stored path =
      if (registry.stored path).2 = some (Text.contentDigest text) then registry.stored path
      else kind.scanned disk file text := by
  split
  · rename_i hKnown
    exact stored_rescanAll_of_known hFiles hText hKnown
  · rename_i hNew
    obtain ⟨before, after, rfl, hBefore⟩ := List.eq_append_cons_of_mem hMem
    have hOther : ∀ f ∈ before, f.same path = false := by
      intro f hf
      rw [← Bool.not_eq_true]
      intro hSameFile
      exact hBefore (hFiles f (List.mem_append_left _ hf) hSameFile ▸ hf)
    have hAfter : ∀ f ∈ after, f.same path = true → f = file :=
      fun f hf => hFiles f (List.mem_append_right _ (List.mem_cons_of_mem _ hf))
    have hBefore : (registry.rescanAll disk before).stored path = registry.stored path :=
      stored_rescanAll_of_other hOther
    have hStored : ((registry.rescanAll disk before).rescan disk file).stored path =
        kind.scanned disk file text := by
      rw [stored_rescan hText, hBefore, if_pos ⟨hSame, hNew⟩]
    have hAll : registry.rescanAll disk (before ++ file :: after) =
        ((registry.rescanAll disk before).rescan disk file).rescanAll disk after :=
      List.foldl_append ..
    rw [hAll, stored_rescanAll_of_known hAfter hText (congrArg Prod.snd hStored), hStored]

/-- The files that are read are counted beside. -/
theorem foldl_rescan (files : List Path) (registry : FileRegistry kind.Entity) (count : Nat) :
    files.foldl (fun (s : FileRegistry kind.Entity × Nat) file =>
        (s.1.rescan disk file, if (disk.read? file).isSome then s.2 + 1 else s.2))
      (registry, count) =
    (registry.rescanAll disk files,
      count + (files.filter fun file => (disk.read? file).isSome).length) := by
  induction files generalizing registry count with
  | nil => rfl
  | cons file files ih =>
    rw [List.foldl_cons, ih, rescanAll_cons, List.filter_cons]
    split
    · rw [List.length_cons]
      congr 1
      omega
    · rfl

end FileRegistry

/-! ### Runs without an exact parser -/

variable {m : Type → Type} [Monad m] [LawfulMonad m] {gateway : Gateway m}

theorem Parsing.run_foldlM {σ β : Type} {f : σ → β → Parsing m σ} {step : σ → β → σ}
    (h : ∀ s b, (f s b).run gateway = pure (step s b, gateway)) (bs : List β) (s : σ) :
    (bs.foldlM f s).run gateway = pure (bs.foldl step s, gateway) := by
  induction bs generalizing s with
  | nil => rfl
  | cons b bs ih => rw [List.foldlM_cons, StateT.run_bind, h, pure_bind, ih, List.foldl_cons]

theorem Gateway.run_parseFile (hParser : gateway.parser = none) (disk : Disk) (kind : ParseKind)
    (path : Path) (text : String) :
    (Gateway.parseFile disk kind path text).run gateway =
      pure ((Gateway.scan disk path text kind, .scanned), gateway) := by
  simp [Gateway.parseFile, Gateway.parseFileExact, Gateway.available?, hParser, Gateway.orScan]

namespace Index

/-- Reads files anew, with the scanners. -/
def rescan (disk : Disk) (index : Index) (root : Path) (files : List Path) : Index :=
  index.mapRegistries fun kind registry =>
    (registry.setRoot root).rescanAll disk (files.filter (kind.takes ·))

theorem registry_rescan (disk : Disk) (index : Index) (root : Path) (files : List Path)
    (kind : EntityKind) :
    (index.rescan disk root files).registry kind =
      ((index.registry kind).setRoot root).rescanAll disk (files.filter (kind.takes ·)) := by
  cases kind <;> rfl

/-- The number of files that are read, each once for every registry. -/
def readCount (disk : Disk) (files : List Path) : Nat :=
  EntityKind.all.foldl
    (fun count kind =>
      count + ((files.filter (kind.takes ·)).filter fun file => (disk.read? file).isSome).length)
    0

theorem run_scanFile (hParser : gateway.parser = none) (disk : Disk) (kind : EntityKind)
    (registry : FileRegistry kind.Entity) (path : Path) :
    (scanFile disk kind registry path).run gateway =
      pure ((registry.rescan disk path, (disk.read? path).isSome), gateway) := by
  cases hText : disk.read? path with
  | none => simp [scanFile, FileRegistry.rescan, hText]
  | some text =>
    cases hStart : registry.startUpdate path text with
    | mk next update =>
      cases update with
      | none => simp [scanFile, FileRegistry.rescan, hText, hStart]
      | some update =>
        simp [scanFile, FileRegistry.rescan, hText, hStart, Gateway.run_parseFile hParser,
          Gateway.scan]

theorem run_scanKind (hParser : gateway.parser = none) (disk : Disk) (root : Path)
    (files : List Path) (kind : EntityKind) (registry : FileRegistry kind.Entity) :
    (scanKind disk root files kind registry).run gateway =
      pure (((registry.setRoot root).rescanAll disk (files.filter (kind.takes ·)),
        ((files.filter (kind.takes ·)).filter fun file => (disk.read? file).isSome).length),
        gateway) := by
  have hStep (s : FileRegistry kind.Entity × Nat) (path : Path) :
      StateT.run (do
        let read ← scanFile disk kind s.1 path
        return (read.1, if read.2 then s.2 + 1 else s.2)) gateway =
      pure ((s.1.rescan disk path, if (disk.read? path).isSome then s.2 + 1 else s.2), gateway) := by
    simp [run_scanFile hParser]
  rw [scanKind, Parsing.run_foldlM hStep, FileRegistry.foldl_rescan, Nat.zero_add]

/-- A scan without an exact parser uses the scanners and has no other effect. -/
theorem run_scan (hParser : gateway.parser = none) (disk : Disk) (index : Index) (root : Path)
    (files : List Path) :
    (scan disk index root files).run gateway =
      pure ((index.rescan disk root files, readCount disk files), gateway) := by
  simp [scan, EntityKind.all, run_scanKind hParser, readCount, rescan, mapRegistries, registry,
    withRegistry, Nat.add_assoc]

end Index

end PhoenixLens
