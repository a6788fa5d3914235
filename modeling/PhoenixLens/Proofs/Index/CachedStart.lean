import Mathlib.Data.Set.Function
import PhoenixLens.Proofs.Index.SavedCache
import PhoenixLens.Proofs.Index.Scanning
import PhoenixLens.Proofs.Project.Walk

/-!
# Starting with a cache

A project is read after its cache has been loaded, and each file whose text is not the one of the
cache is read anew. So the cache makes a difference in two cases only: it keeps a file that the
project has left out since, or the templates of a module have come or gone while its own file is the
same.
-/

namespace PhoenixLens

variable {root path other : Path}

/-- The path is that of names joined to the root. -/
def Path.IsBelow (path root : Path) : Prop :=
  ∃ names, (∀ n ∈ names, Path.IsEntryName n) ∧ path = root.below names

theorem Path.IsBelow.eq_of_same (h : path.IsBelow root) (hOther : other.IsBelow root)
    (hRoot : root.isAbsolute = true) (hSame : path.same other = true) : path = other := by
  obtain ⟨names, hNames, rfl⟩ := h
  obtain ⟨more, hMore, rfl⟩ := hOther
  rw [Path.same_iff, Path.segments_below hRoot hNames, Path.segments_below hRoot hMore,
    List.append_cancel_left_eq] at hSame
  rw [List.map_injective_iff.mpr (fun _ _ => Segment.name.inj) hSame]

theorem exists_text_of_mem_collectFiles {disk : Disk} {filter : SourceFilter} (hTree : disk.IsTree)
    (hRoot : disk.isDirectory root = true) (h : path ∈ collectFiles disk filter root) :
    path.IsBelow root ∧ ∃ text, disk.read? path = some text := by
  obtain ⟨trail, hTrail⟩ := Disk.exists_isRoot hRoot
  rw [collectFiles, Path.sort, List.mem_mergeSort] at h
  change path ∈ walkFiles disk filter root _ (root.below []) at h
  have hTop : disk.isDirectoryAt (trail ++ []) = true := by
    rw [List.append_nil]
    exact hTrail.isDirectoryAt
  obtain ⟨names, -, -, hNames, hPath, hFile, -⟩ :=
    (mem_walkFiles_iff hTrail hTree (List.forall_mem_nil _) hTop).mp h
  obtain ⟨found, hFound⟩ := Option.isSome_iff_exists.mp hFile
  exact ⟨⟨names, hNames, hPath⟩, found.1, by rw [Disk.read?, hFound]; rfl⟩

theorem FileRegistry.Reached.rescan {disk : Disk} {kind : EntityKind} {file : Path}
    {registry : FileRegistry kind.Entity}
    (h : registry.Reached kind.FitsLines)
    (hFits : ∀ text, disk.read? file = some text →
      ∀ a ∈ kind.ofFile file (kind.scan disk file text.toList), kind.FitsLines a) :
    (registry.rescan disk file).Reached kind.FitsLines := by
  rw [FileRegistry.rescan]
  split
  · exact h
  · rename_i text hText
    have hStarted := h.starts file text
    split
    · rename_i next hStart
      rw [hStart] at hStarted
      exact hStarted
    · rename_i next update hStart
      rw [hStart] at hStarted
      exact hStarted.finishes update (hFits text hText)

namespace Index

variable {index saved : Index} {disk later written : Disk} {files : List Path} {file : Path}
  {text : String} {known : List String} {now : Nat} {kind : EntityKind}

/-! ### Scans of files below a root -/

theorem stored_rescan_of_mem (hRoot : root.isAbsolute = true) (hFiles : ∀ f ∈ files, f.IsBelow root)
    (hMem : file ∈ files) (hTakes : kind.takes file = true) (hText : disk.read? file = some text)
    (hSame : file.same path = true) :
    ((index.rescan disk root files).registry kind).stored path =
      if ((index.registry kind).stored path).2 = some (Text.contentDigest text) then
        (index.registry kind).stored path
      else kind.scanned disk file text := by
  rw [registry_rescan]
  refine FileRegistry.stored_rescanAll ?_ hText (List.mem_filter.mpr ⟨hMem, hTakes⟩) hSame
  intro f hf hSameFile
  refine (hFiles f (List.mem_of_mem_filter hf)).eq_of_same (hFiles file hMem) hRoot ?_
  rw [Path.same_congr_right hSame]
  exact hSameFile

theorem stored_empty (kind : EntityKind) (path : Path) :
    (({} : Index).registry kind).stored path = (none, none) := by
  cases kind <;> rfl

theorem stored_rescan_empty_of_mem (hRoot : root.isAbsolute = true)
    (hFiles : ∀ f ∈ files, f.IsBelow root) (hMem : file ∈ files) (hTakes : kind.takes file = true)
    (hText : disk.read? file = some text) (hSame : file.same path = true) :
    ((({} : Index).rescan disk root files).registry kind).stored path =
      kind.scanned disk file text := by
  rw [stored_rescan_of_mem hRoot hFiles hMem hTakes hText hSame, stored_empty]
  rfl

theorem stored_rescan_of_not_mem
    (h : ∀ f ∈ files, kind.takes f = true → f.same path = false) :
    ((index.rescan disk root files).registry kind).stored path =
      (index.registry kind).stored path := by
  rw [registry_rescan]
  refine FileRegistry.stored_rescanAll_of_other fun f hf => ?_
  obtain ⟨hMem, hTakes⟩ := List.mem_filter.mp hf
  exact h f hMem hTakes

/-- A file is read for a registry, or none at its path is. -/
theorem read_cases (files : List Path) (kind : EntityKind) (path : Path) :
    (∃ file ∈ files, kind.takes file = true ∧ file.same path = true) ∨
      ∀ file ∈ files, kind.takes file = true → file.same path = false := by
  by_cases h : ∃ file ∈ files, kind.takes file = true ∧ file.same path = true
  · exact .inl h
  · refine .inr fun file hMem hTakes => ?_
    rw [← Bool.not_eq_true]
    exact fun hSame => h ⟨file, hMem, hTakes, hSame⟩

/-- All that is stored has been stored by scans, which have found known texts in files below the
root. -/
def Scanned (root : Path) (known : List String) (index : Index) : Prop :=
  ∀ kind path, (index.registry kind).stored path = (none, none) ∨
    ∃ disk file text, file.IsBelow root ∧ file.same path = true ∧ kind.takes file = true ∧
      text ∈ known ∧ (index.registry kind).stored path = kind.scanned disk file text

theorem scanned_empty (root : Path) (known : List String) : ({} : Index).Scanned root known :=
  fun kind path => .inl (stored_empty kind path)

/-- Another scan adds what it finds. -/
theorem Scanned.rescan (h : index.Scanned root known) (hRoot : root.isAbsolute = true)
    (hFiles : ∀ f ∈ files, f.IsBelow root ∧ ∃ text ∈ known, disk.read? f = some text) :
    (index.rescan disk root files).Scanned root known := by
  intro kind path
  rcases read_cases files kind path with ⟨file, hMem, hTakes, hSame⟩ | hNone
  · obtain ⟨hBelow, text, hKnown, hText⟩ := hFiles file hMem
    rw [stored_rescan_of_mem hRoot (fun f hf => (hFiles f hf).1) hMem hTakes hText hSame]
    split
    · exact h kind path
    · exact .inr ⟨disk, file, text, hBelow, hSame, hTakes, hKnown, rfl⟩
  · rw [stored_rescan_of_not_mem hNone]
    exact h kind path

/-! ### What is loaded -/

/-- A file of the index that leads where the path does is as it was when the cache was written. -/
def isKept (index : Index) (disk later : Disk) (now : Nat) (path : Path) : Bool :=
  index.snapshot.files.any fun file => path.same file && disk.keeps later now file

theorem isKept_congr {p q : Path} (h : p.same q = true) :
    index.isKept disk later now p = index.isKept disk later now q := by
  simp only [isKept, Path.same_congr_left h]

theorem isKept_iff :
    index.isKept disk later now path = true ↔
      ∃ p ∈ index.snapshot.files.filter (disk.keeps later now), p.same path = true := by
  simp only [isKept, List.any_eq_true, List.mem_filter, Bool.and_eq_true, and_assoc]
  refine exists_congr fun p => and_congr_right fun _ => ?_
  rw [Path.same_comm]
  exact and_comm

/-- The index that a cache is loaded as. -/
def restored (index : Index) (disk later : Disk) (now : Nat) : Index :=
  ({} : Index).restore (index.snapshot.retain (index.isKept disk later now))

theorem stored_restored (hReached : saved.Reached) (kind : EntityKind) (path : Path) :
    ((saved.restored disk later now).registry kind).stored path =
      if saved.isKept disk later now path then (saved.registry kind).stored path
      else (none, none) := by
  have hProper := hReached.proper kind
  have hKeep (p q : Path) (h : p.same q = true) :
      saved.isKept disk later now p = saved.isKept disk later now q := isKept_congr h
  have hEntries := PathTable.get?_ofList_filter (hProper.paired ▸ hProper.distinct) hKeep path
  have hDigests := PathTable.get?_ofList_filter hProper.distinct hKeep path
  rw [restored, IndexSnapshot.registry_restore, IndexSnapshot.registry_retain,
    IndexSnapshot.registry_snapshot]
  simp only [FileRegistry.stored, FileRegistry.restore, FileRegistry.snapshot,
    RegistrySnapshot.retain]
  rw [hEntries, hDigests]
  split <;> rfl

/-- The files of an index are those that it has a digest of. -/
theorem any_files_iff :
    index.snapshot.files.any (·.same path) = true ↔
      ∃ kind, ((index.registry kind).stored path).2.isSome = true := by
  rw [IndexSnapshot.any_files]
  refine exists_congr fun kind => ?_
  rw [IndexSnapshot.registry_snapshot, RegistrySnapshot.files, FileRegistry.snapshot,
    ((PathTable.sorted_perm _).map _).any_eq]
  exact Iff.of_eq (congrArg (· = true) (PathTable.contains_eq_any _ _).symm)

/-! ### Two ways to start -/

/-- The cache makes no difference for a file that it keeps: a file of the project leads there, and
if its text is that of the cache, the cache has the templates that a scan finds. -/
def Agrees (saved : Index) (later : Disk) (files : List Path) (path : Path) : Prop :=
  ∃ file ∈ files, file.same path = true ∧ ∀ text, later.read? file = some text →
    (saved.templates.stored file).2 = some (Text.contentDigest text) →
      saved.templates.stored file = EntityKind.templates.scanned later file text

/-- All registries hold the same of all files. -/
def HoldsSame (index other : Index) : Prop :=
  ∀ kind path, (index.registry kind).stored path = (other.registry kind).stored path

section

variable (hScanned : saved.Scanned root known)
  (hRoot : root.isAbsolute = true)
  (hFiles : ∀ f ∈ files, f.IsBelow root ∧ ∃ text ∈ known, later.read? f = some text)

include hScanned hRoot hFiles

theorem agrees_of_holdsSame (hReached : saved.Reached)
    (h : ((saved.restored disk later now).rescan later root files).HoldsSame
      (({} : Index).rescan later root files))
    (hValid : path ∈ saved.snapshot.files.filter (disk.keeps later now)) :
    saved.Agrees later files path := by
  have hBelow : ∀ f ∈ files, f.IsBelow root := fun f hf => (hFiles f hf).1
  have hKept : saved.isKept disk later now path = true :=
    isKept_iff.mpr ⟨path, hValid, Path.same_refl path⟩
  have hAny : saved.snapshot.files.any (·.same path) = true :=
    List.any_eq_true.mpr ⟨path, List.mem_of_mem_filter hValid, Path.same_refl path⟩
  obtain ⟨kind, hDigest⟩ := any_files_iff.mp hAny
  have hFile : ∃ file ∈ files, kind.takes file = true ∧ file.same path = true := by
    rcases read_cases files kind path with hFile | hNone
    · exact hFile
    · have hSame := h kind path
      rw [stored_rescan_of_not_mem hNone, stored_rescan_of_not_mem hNone, stored_empty,
        stored_restored hReached, if_pos hKept] at hSame
      rw [hSame] at hDigest
      cases hDigest
  obtain ⟨file, hMem, -, hSameFile⟩ := hFile
  refine ⟨file, hMem, hSameFile, fun text hText hKnown => ?_⟩
  have hTakes : EntityKind.templates.takes file = true := by
    rcases hScanned .templates file with hNone | ⟨_, other, _, hOther, hSame, hTakes, -⟩
    · rw [show (saved.templates.stored file).2 = none from congrArg Prod.snd hNone] at hKnown
      cases hKnown
    · exact hOther.eq_of_same (hBelow file hMem) hRoot hSame ▸ hTakes
  have hKeptFile : saved.isKept disk later now file = true := by
    rw [isKept_congr hSameFile]
    exact hKept
  have hStored : ((saved.restored disk later now).registry .templates).stored file =
      saved.templates.stored file := by
    rw [stored_restored hReached, if_pos hKeptFile]
    rfl
  have hSame := h .templates file
  rw [stored_rescan_of_mem hRoot hBelow hMem hTakes hText (Path.same_refl file),
    stored_rescan_empty_of_mem hRoot hBelow hMem hTakes hText (Path.same_refl file), hStored,
    if_pos hKnown] at hSame
  exact hSame

/-- What the cache holds of a text is what a scan finds in it. -/
theorem stored_eq_scanned (hDigests : Set.InjOn Text.contentDigest {text | text ∈ known})
    (h : ∀ path ∈ saved.snapshot.files.filter (disk.keeps later now),
      saved.Agrees later files path)
    (hMem : file ∈ files) (hSame : file.same path = true) (hText : later.read? file = some text)
    (hKept : saved.isKept disk later now path = true)
    (hDigest : ((saved.registry kind).stored path).2 = some (Text.contentDigest text)) :
    (saved.registry kind).stored path = kind.scanned later file text := by
  rcases hScanned kind path with hNone | ⟨before, other, old, hOther, hSameOther, -, hOld, hStored⟩
  · rw [hNone] at hDigest
    cases hDigest
  obtain ⟨hBelow, found, hFound, hRead⟩ := hFiles file hMem
  have hFile : other = file := by
    refine hOther.eq_of_same hBelow hRoot ?_
    rw [Path.same_congr_right hSame]
    exact hSameOther
  have hTexts : old = text := by
    rw [hText] at hRead
    rw [hStored] at hDigest
    exact hDigests hOld (Option.some.inj hRead ▸ hFound) (Option.some.inj hDigest)
  subst hFile hTexts
  by_cases hKind : kind = .templates
  · subst hKind
    obtain ⟨p, hValid, hSamePath⟩ := isKept_iff.mp hKept
    obtain ⟨listed, hListed, hSameListed, hAgrees⟩ := h p hValid
    have hFile : listed = other := by
      refine (hFiles listed hListed).1.eq_of_same hOther hRoot ?_
      rw [Path.same_congr_left hSameListed, Path.same_congr_left hSamePath, Path.same_comm]
      exact hSame
    subst hFile
    have hSamePaths := saved.templates.stored_congr hSame
    exact hSamePaths ▸ hAgrees old hText (hSamePaths ▸ hDigest)
  · rw [hStored]
    exact EntityKind.scanned_congr hKind before later other old

theorem holdsSame_of_agrees (hReached : saved.Reached)
    (hDigests : Set.InjOn Text.contentDigest {text | text ∈ known})
    (h : ∀ path ∈ saved.snapshot.files.filter (disk.keeps later now),
      saved.Agrees later files path) :
    ((saved.restored disk later now).rescan later root files).HoldsSame
      (({} : Index).rescan later root files) := by
  have hBelow : ∀ f ∈ files, f.IsBelow root := fun f hf => (hFiles f hf).1
  intro kind path
  rcases read_cases files kind path with ⟨file, hMem, hTakes, hSame⟩ | hNone
  · obtain ⟨-, text, -, hText⟩ := hFiles file hMem
    rw [stored_rescan_of_mem hRoot hBelow hMem hTakes hText hSame,
      stored_rescan_empty_of_mem hRoot hBelow hMem hTakes hText hSame, stored_restored hReached]
    by_cases hKept : saved.isKept disk later now path = true
    · rw [if_pos hKept]
      split
      · rename_i hDigest
        exact stored_eq_scanned hScanned hRoot hFiles hDigests h hMem hSame hText hKept hDigest
      · rfl
    · rw [if_neg hKept]
      rfl
  · rw [stored_rescan_of_not_mem hNone, stored_rescan_of_not_mem hNone, stored_empty,
      stored_restored hReached]
    split
    · rename_i hKept
      -- a file that has been left out is not kept
      rcases hScanned kind path with hStored | ⟨_, other, _, hOther, hSameOther, hTakes, -⟩
      · exact hStored
      · obtain ⟨p, hValid, hSamePath⟩ := isKept_iff.mp hKept
        obtain ⟨found, hFound, hSameFound, -⟩ := h p hValid
        have hSame : found.same path = true := by
          rw [Path.same_congr_left hSameFound]
          exact hSamePath
        have hFile : found = other := by
          refine (hBelow found hFound).eq_of_same hOther hRoot ?_
          rw [Path.same_congr_left hSame, Path.same_comm]
          exact hSameOther
        have hApart := hNone found hFound (hFile ▸ hTakes)
        rw [hSame] at hApart
        cases hApart
    · rfl

end

/-- A project that is read after its cache has been loaded is known as one that is read without a
cache, unless the cache keeps a file that the project leaves out, or templates of a module that have
come or gone while the file of the module is the same. -/
theorem scan_loadCache {m : Type → Type} [Monad m] [LawfulMonad m] {gateway : Gateway m}
    (hParser : gateway.parser = none) (hReached : saved.Reached)
    (hScanned : saved.Scanned root known) (hNow : now < UInt64.size)
    (hStamps : ∀ path stamp, disk.stamp? path = some stamp → stamp.Fits)
    (hRoot : root.isAbsolute = true) (hDown : root.GoesDown)
    (hSaved : saved.saveCache disk now root = .ok written)
    (hFile : later.find? (cacheFile root) = written.find? (cacheFile root))
    (hTree : later.IsTree) (hDirectory : later.isDirectory root = true)
    {filter : SourceFilter}
    (hKnown : ∀ f ∈ collectFiles later filter root, ∀ text, later.read? f = some text →
      text ∈ known)
    (hDigests : Set.InjOn Text.contentDigest {text | text ∈ known}) :
    ∃ loaded validation warm cold count,
      loadCache later root {} = .ok (loaded, validation) ∧
      (scan later loaded root (collectFiles later filter root)).run gateway =
        pure ((warm, count), gateway) ∧
      (scan later {} root (collectFiles later filter root)).run gateway =
        pure ((cold, count), gateway) ∧
      (warm.HoldsSame cold ↔
        ∀ path ∈ validation.valid, saved.Agrees later (collectFiles later filter root) path) := by
  have hDocument := hasCache_restoredDocument hReached hNow hStamps hRoot hDown
    (Path.same_refl root) hSaved hFile
  have hFiles : ∀ f ∈ collectFiles later filter root,
      f.IsBelow root ∧ ∃ text ∈ known, later.read? f = some text := by
    intro f hf
    obtain ⟨hBelow, text, hText⟩ := exists_text_of_mem_collectFiles hTree hDirectory hf
    exact ⟨hBelow, text, hKnown f hf text hText, hText⟩
  refine ⟨_, _, _, _, _, loadCache_restoredDocument hDocument, run_scan hParser ..,
    run_scan hParser .., ?_⟩
  exact ⟨fun h path => agrees_of_holdsSame hScanned hRoot hFiles hReached h,
    holdsSame_of_agrees hScanned hRoot hFiles hReached hDigests⟩

/-! ### A live view -/

def liveView : Path := ⟨"/p/a_live.ex"⟩

def liveText : String := "defmodule A do\nend\n"

/-- A project with a live view and nothing else. -/
def liveDisk : Disk where
  entries := [(["p"], .directory), (["p", "a_live.ex"], .file liveText 1)]

/-- What a scan makes of it. -/
def liveIndex : Index := ({} : Index).rescan liveDisk ⟨"/p"⟩ [liveView]

/-- The project with the cache that is written after the scan. -/
def liveSaved : Disk where
  entries := [(["p"], .directory), (["p", "a_live.ex"], .file liveText 1),
    (["p", ".phoenix-lsp"], .directory), (["p", ".phoenix-lsp", "cache.json"],
      .file (liveIndex.cacheDocument liveDisk 5 ⟨"/p"⟩).encode.compact 5)]

/-- A template has come since. -/
def liveLater : Disk where
  entries := liveSaved.entries ++ [(["p", "a_live.html.heex"], .file "" 9)]

theorem reached_liveIndex : liveIndex.Reached := by
  have hFits (kind : EntityKind) (text : String) (hText : liveDisk.read? liveView = some text) :
      ∀ a ∈ kind.ofFile liveView (kind.scan liveDisk liveView text.toList), kind.FitsLines a := by
    have hRead : liveDisk.read? liveView = some liveText := by decide
    rw [← Option.some.inj (hRead.symm.trans hText)]
    have hNone : kind.ofFile liveView (kind.scan liveDisk liveView liveText.toList) = [] := by
      cases kind <;> decide +kernel
    rw [hNone]
    exact nofun
  intro kind
  rw [liveIndex, registry_rescan]
  have hStart : ((({} : Index).registry kind).setRoot ⟨"/p"⟩).Reached kind.FitsLines := by
    cases kind <;> exact .roots .empty _
  cases kind with
  | events => exact hStart.rescan (hFits .events)
  | templates => exact hStart.rescan (hFits .templates)
  | _ => exact hStart

theorem isBelow_liveView : liveView.IsBelow ⟨"/p"⟩ :=
  ⟨["a_live.ex"], by decide, by decide⟩

theorem scanned_liveIndex : liveIndex.Scanned ⟨"/p"⟩ [liveText, ""] := by
  refine (scanned_empty _ _).rescan (by decide) fun f hf => ?_
  rw [List.mem_singleton.mp hf]
  exact ⟨isBelow_liveView, liveText, by decide, by decide⟩

theorem files_liveIndex : liveIndex.snapshot.files = [liveView] := by
  have hEvents : liveIndex.events.digests = ⟨[(liveView, Text.contentDigest liveText)]⟩ := by
    rfl
  have hTemplates : liveIndex.templates.digests = ⟨[(liveView, Text.contentDigest liveText)]⟩ := by
    rfl
  have hNone : liveIndex.components.digests = {} ∧ liveIndex.routes.digests = {} ∧
      liveIndex.schemas.digests = {} ∧ liveIndex.controllers.digests = {} :=
    ⟨rfl, rfl, rfl, rfl⟩
  have hPair : [liveView, liveView].mergeSort Path.atMost = [liveView, liveView] :=
    List.mergeSort_of_pairwise (by decide)
  simp [IndexSnapshot.files, snapshot, FileRegistry.snapshot, RegistrySnapshot.files, hEvents,
    hTemplates, hNone, PathTable.sorted, Path.sort, hPair, IndexSnapshot.dropRepeated]

theorem mem_collectFiles_liveLater {f : Path} (h : f ∈ collectFiles liveLater {} ⟨"/p"⟩) :
    f.IsBelow ⟨"/p"⟩ ∧ ∃ text ∈ [liveText, ""], liveLater.read? f = some text := by
  have hWalk : walkFiles liveLater {} ⟨"/p"⟩ (liveLater.entries.length + 1) ⟨"/p"⟩ =
      [liveView, ⟨"/p/a_live.html.heex"⟩] := by decide
  rw [collectFiles, Path.sort, List.mem_mergeSort, hWalk, List.mem_pair] at h
  rcases h with rfl | rfl
  · exact ⟨isBelow_liveView, liveText, by decide, by decide⟩
  · exact ⟨⟨["a_live.html.heex"], by decide, by decide⟩, "", by decide, by decide⟩

theorem fits_liveDisk {stamp : FileStamp} (h : liveDisk.stamp? path = some stamp) : stamp.Fits := by
  refine Disk.fits_of_stamp? (fun e he content modified hFile => ?_) h
  simp only [liveDisk, List.mem_cons, List.not_mem_nil, or_false] at he
  rcases he with rfl | rfl <;> cases hFile
  exact ⟨by decide, by decide⟩

theorem saveCache_liveIndex : liveIndex.saveCache liveDisk 5 ⟨"/p"⟩ = .ok liveSaved := by rfl

theorem scan_loadCache_live :
    ∃ loaded validation warm cold count,
      loadCache liveLater ⟨"/p"⟩ {} = .ok (loaded, validation) ∧
      (scan liveLater loaded ⟨"/p"⟩ (collectFiles liveLater {} ⟨"/p"⟩)).run
        ({} : Gateway Id) = pure ((warm, count), {}) ∧
      (scan liveLater {} ⟨"/p"⟩ (collectFiles liveLater {} ⟨"/p"⟩)).run
        ({} : Gateway Id) = pure ((cold, count), {}) ∧
      (warm.HoldsSame cold ↔ ∀ path ∈ validation.valid,
        liveIndex.Agrees liveLater (collectFiles liveLater {} ⟨"/p"⟩) path) := by
  have hParser : ({} : Gateway Id).parser = none := rfl
  have hKnown : ∀ f ∈ collectFiles liveLater {} ⟨"/p"⟩, ∀ text,
      liveLater.read? f = some text → text ∈ [liveText, ""] := by
    intro f hf text hText
    obtain ⟨-, found, hFound, hRead⟩ := mem_collectFiles_liveLater hf
    rwa [← Option.some.inj (hRead.symm.trans hText)]
  have hDigests : Set.InjOn Text.contentDigest {text | text ∈ [liveText, ""]} := by
    have hApart : Text.contentDigest liveText ≠ Text.contentDigest "" := by decide +kernel
    intro s (hs : s ∈ [liveText, ""]) t (ht : t ∈ [liveText, ""]) hSame
    rw [List.mem_pair] at hs ht
    rcases hs with rfl | rfl <;> rcases ht with rfl | rfl
    · rfl
    · exact absurd hSame hApart
    · exact absurd hSame.symm hApart
    · rfl
  have hTree : liveLater.IsTree := by decide
  have hDirectory : liveLater.isDirectory ⟨"/p"⟩ = true := by decide
  have hFile : liveLater.find? (cacheFile ⟨"/p"⟩) = liveSaved.find? (cacheFile ⟨"/p"⟩) := rfl
  exact scan_loadCache hParser reached_liveIndex scanned_liveIndex (by decide)
    (fun _ _ => fits_liveDisk) (by decide) (by decide) saveCache_liveIndex hFile hTree hDirectory hKnown hDigests

/-- A template that has come beside a live view is found without the cache, and not with it. -/
theorem cache_hides_new_template :
    (scan liveDisk {} ⟨"/p"⟩ (collectFiles liveDisk {} ⟨"/p"⟩)).run ({} : Gateway Id) =
      pure ((liveIndex, 2), {}) ∧
    liveIndex.saveCache liveDisk 5 ⟨"/p"⟩ = .ok liveSaved ∧
    ∃ loaded validation warm cold count,
      loadCache liveLater ⟨"/p"⟩ {} = .ok (loaded, validation) ∧
      (scan liveLater loaded ⟨"/p"⟩ (collectFiles liveLater {} ⟨"/p"⟩)).run
        ({} : Gateway Id) = pure ((warm, count), {}) ∧
      (scan liveLater {} ⟨"/p"⟩ (collectFiles liveLater {} ⟨"/p"⟩)).run
        ({} : Gateway Id) = pure ((cold, count), {}) ∧
      ¬warm.HoldsSame cold := by
  have hWalk : walkFiles liveDisk {} ⟨"/p"⟩ (liveDisk.entries.length + 1) ⟨"/p"⟩ = [liveView] := by
    decide
  have hCollected : collectFiles liveDisk {} ⟨"/p"⟩ = [liveView] := by
    rw [collectFiles, hWalk, Path.sort, List.mergeSort_singleton]
  have hDocument : HasCache liveLater ⟨"/p"⟩ (liveIndex.restoredDocument liveDisk 5 ⟨"/p"⟩) :=
    hasCache_restoredDocument reached_liveIndex (by decide) (fun _ _ => fits_liveDisk) (by decide)
      (by decide) (by decide) saveCache_liveIndex rfl
  refine ⟨?_, saveCache_liveIndex, _, _, _, _, _, loadCache_restoredDocument hDocument,
    run_scan rfl .., run_scan rfl .., fun hSame => ?_⟩
  · rw [run_scan rfl, hCollected]
    rfl
  · have hValid : liveView ∈ liveIndex.snapshot.files.filter (liveDisk.keeps liveLater 5) := by
      rw [files_liveIndex]
      decide
    obtain ⟨file, hMem, hSameFile, hAgrees⟩ := agrees_of_holdsSame scanned_liveIndex (by decide)
      (fun _ => mem_collectFiles_liveLater) reached_liveIndex hSame hValid
    have hFile : file = liveView :=
      (mem_collectFiles_liveLater hMem).1.eq_of_same isBelow_liveView (by decide) hSameFile
    subst hFile
    have hStale := congrArg Prod.fst (hAgrees liveText (by decide) rfl)
    revert hStale
    decide

end Index

end PhoenixLens
