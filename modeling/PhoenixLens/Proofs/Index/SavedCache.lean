import PhoenixLens.Proofs.Index.Reached
import PhoenixLens.Proofs.Path.Writing
import PhoenixLens.Session.Basic

/-!
# What a saved cache gives back

A cache that has been saved and is read again gives back what the index held, for the files that are
as they were when it was saved. A cache that cannot be used changes nothing.
-/

namespace PhoenixLens

/-- The file has the same stamp on a later disk, and the stamp is not from after the given time. -/
def Disk.keeps (disk later : Disk) (time : Nat) (path : Path) : Bool :=
  (disk.stamp? path).any fun stamp => later.stamp? path == some stamp && stamp.modified ≤ time

/-- The stamps of files are of 64 bits if those of all entries are. -/
theorem Disk.fits_of_stamp? {disk : Disk}
    (h : ∀ e ∈ disk.entries, ∀ content modified, e.2 = .file content modified →
      FileStamp.Fits { modified, size := content.utf8ByteSize }) {path : Path} {stamp : FileStamp}
    (hStamp : disk.stamp? path = some stamp) : stamp.Fits := by
  obtain ⟨⟨content, modified⟩, hFile, rfl⟩ := Option.map_eq_some_iff.mp hStamp
  rw [file?] at hFile
  split at hFile
  · rename_i found time hFound
    cases hFile
    obtain ⟨trail, -, hEntry⟩ := Option.bind_eq_some_iff.mp hFound
    have hNe : trail ≠ [] := by
      rintro rfl
      cases hEntry
    exact h _ (mem_entries_of_found hNe hEntry) content modified rfl
  · cases hFile

namespace Json

theorem lookup_of_mem {β : Type} {members : List (String × β)}
    (hNames : (members.map (·.1)).Nodup) {m : String × β} (hm : m ∈ members) :
    members.lookup m.1 = some m.2 := by
  induction members with
  | nil => cases hm
  | cons n members ih =>
    obtain ⟨hNew, hRest⟩ := List.nodup_cons.mp hNames
    rcases List.mem_cons.mp hm with rfl | hMember
    · rw [List.lookup_cons, BEq.rfl]
    · have hOther : (m.1 == n.1) = false := by
        refine beq_false_of_ne fun hName => hNew ?_
        exact List.mem_map.mpr ⟨m, hMember, hName⟩
      rw [List.lookup_cons, hOther]
      exact ih hRest hMember

end Json

namespace Index

variable {index : Index} {disk written later : Disk} {now : Nat} {root : Path}

/-! ### Stamps -/

/-- The stamps of the files that an index knows, by their texts. -/
def stamps (index : Index) (disk : Disk) : List (String × FileStamp) :=
  index.snapshot.files.filterMap fun path => (disk.stamp? path).map fun stamp => (path.text, stamp)

theorem mem_stamps {text : String} {stamp : FileStamp} :
    (text, stamp) ∈ index.stamps disk ↔
      (⟨text⟩ : Path) ∈ index.snapshot.files ∧ disk.stamp? ⟨text⟩ = some stamp := by
  simp only [stamps, List.mem_filterMap, Option.map_eq_some_iff, Prod.mk.injEq]
  constructor
  · rintro ⟨path, hPath, found, hFound, rfl, rfl⟩
    exact ⟨hPath, hFound⟩
  · rintro ⟨hPath, hStamp⟩
    exact ⟨⟨text⟩, hPath, stamp, hStamp, rfl, rfl⟩

theorem nodup_stamps (index : Index) (disk : Disk) : ((index.stamps disk).map (·.1)).Nodup := by
  refine List.pairwise_map.mpr ?_
  refine List.Pairwise.filterMap _ ?_ index.snapshot.pairwise_files
  intro p q hBefore s hs t ht hText
  obtain ⟨_, -, rfl⟩ := Option.map_eq_some_iff.mp hs
  obtain ⟨_, -, rfl⟩ := Option.map_eq_some_iff.mp ht
  have hSame : p = q := congrArg Path.mk hText
  have hApart := hBefore.not_same
  rw [hSame, Path.same_refl] at hApart
  cases hApart

theorem lookup_stamps {path : Path} (h : path ∈ index.snapshot.files) :
    (Json.byName (index.stamps disk)).lookup path.text = disk.stamp? path := by
  have hNames := index.nodup_stamps disk
  have hPerm := Json.byName_perm hNames
  cases hStamp : disk.stamp? path with
  | some stamp =>
    have hMem : (path.text, stamp) ∈ index.stamps disk := mem_stamps.mpr ⟨h, hStamp⟩
    exact Json.lookup_of_mem (Json.nodup_byName hNames) (hPerm.mem_iff.mpr hMem)
  | none =>
    rw [List.lookup_eq_none_iff]
    intro e he
    obtain ⟨-, hFound⟩ := mem_stamps.mp (hPerm.mem_iff.mp he)
    rw [bne_iff_ne]
    rintro hText
    rw [← hText, hStamp] at hFound
    cases hFound

/-! ### Documents -/

def restoredDocument (index : Index) (disk : Disk) (now : Nat) (root : Path) : CacheDocument :=
  { metadata :=
      { version := cacheVersion
        toolVersion := programVersion
        timestamp := now
        workspaceRoot := root
        files := Json.byName (index.stamps disk) }
    index := index.snapshot }

theorem decode_skim?_cacheDocument (hIndex : index.Reached) (hNow : now < UInt64.size)
    (hStamps : ∀ path stamp, disk.stamp? path = some stamp → stamp.Fits) :
    (Json.skim? (index.cacheDocument disk now root).encode.compact).bind CacheDocument.decode =
      some (index.restoredDocument disk now root) := by
  have hFits : ∀ s ∈ index.stamps disk, s.2.Fits := fun s hs => hStamps _ _ (mem_stamps.mp hs).2
  have hMetadata : Json.Survives 126 CacheMetadata.decode
      (index.cacheDocument disk now root).metadata.encode
      (index.restoredDocument disk now root).metadata :=
    CacheMetadata.survives (show cacheVersion < UInt32.size by decide) hNow
      (index.nodup_stamps disk) hFits
  have hDocument : Json.Survives Json.depthLimit CacheDocument.decode
      (index.cacheDocument disk now root).encode (index.restoredDocument disk now root) :=
    CacheDocument.survives hMetadata hIndex.fitsLines
  rw [Json.skim?_compact hDocument.written]
  exact hDocument.decoded

theorem isFresh_restoredDocument {path : Path} (h : path ∈ index.snapshot.files)
    (current : FileStamp) :
    (index.restoredDocument disk now root).metadata.isFresh path current =
      (disk.stamp? path == some current && current.modified ≤ now) := by
  rw [CacheMetadata.isFresh, ← lookup_stamps h]
  rfl

theorem isValid_restoredDocument {path : Path} (h : path ∈ index.snapshot.files) :
    (index.restoredDocument disk now root).isValid later path = disk.keeps later now path := by
  rw [CacheDocument.isValid, Disk.keeps]
  cases hLater : later.stamp? path with
  | none => cases disk.stamp? path <;> rfl
  | some current =>
    rw [Option.any_some, isFresh_restoredDocument h]
    cases disk.stamp? path with
    | none => rfl
    | some stamp =>
      by_cases hSame : stamp = current
      · simp [hSame]
      · have hOther : (current == stamp) = false := beq_false_of_ne (Ne.symm hSame)
        have hSame : (some stamp == some current) = false := beq_false_of_ne (by simpa using hSame)
        have hStamp : (some current == some stamp) = false := by simpa using hOther
        rw [hSame, Option.any_some, hStamp]
        rfl

theorem validate_restoredDocument :
    (index.restoredDocument disk now root).validate later =
      { valid := index.snapshot.files.filter (disk.keeps later now)
        invalid := index.snapshot.files.filter fun path => !disk.keeps later now path } := by
  rw [CacheDocument.validate]
  congr 1
  · exact List.filter_congr fun path hPath => isValid_restoredDocument hPath
  · exact List.filter_congr fun path hPath => by rw [isValid_restoredDocument hPath]

/-! ### Files -/

/-- What has been saved stands in the file of the cache. -/
theorem find?_saveCache (hRoot : root.isAbsolute = true) (hDown : root.GoesDown)
    (hSaved : index.saveCache disk now root = .ok written) :
    written.find? (cacheFile root) =
      some (.file (index.cacheDocument disk now root).encode.compact now) := by
  have hDirectory : Path.IsEntryName ".phoenix-lsp" := by decide
  have hNames : ∀ n ∈ [".phoenix-lsp"], Path.IsEntryName n := by simpa using hDirectory
  have hAbsolute : (cacheDirectory root).isAbsolute = true := Path.isAbsolute_join hRoot hDirectory
  have hGoesDown : (cacheDirectory root).GoesDown := by
    have hSegments := Path.segments_below hRoot hNames
    rw [Path.GoesDown]
    change _ ∉ (root.below [".phoenix-lsp"]).segments
    rw [hSegments]
    simpa [Path.GoesDown] using hDown
  rw [saveCache] at hSaved
  cases hMade : disk.makeDirectory? (cacheDirectory root) with
  | error error =>
    rw [hMade] at hSaved
    cases hSaved
  | ok made =>
    rw [hMade] at hSaved
    simp only [bind, Except.bind] at hSaved
    split at hSaved
    · cases hSaved
    · have hWritten := Except.ok.inj hSaved
      rw [← hWritten]
      exact Disk.find?_write hAbsolute hGoesDown (by decide) hMade _ _

/-- A cache that can be used for a project stands in its file. -/
def HasCache (disk : Disk) (root : Path) (document : CacheDocument) : Prop :=
  ∃ content modified, disk.find? (cacheFile root) = some (.file content modified) ∧
    (Json.skim? content).bind CacheDocument.decode = some document ∧
    document.metadata.isCompatible = true ∧ document.metadata.workspaceRoot.same root = true

theorem readCache_eq_ok {document : CacheDocument} :
    readCache disk root = .ok document ↔ HasCache disk root document := by
  -- by the definition alone: its equation would take the reader of documents apart
  delta readCache HasCache
  cases disk.find? (cacheFile root) with
  | none => simp
  | some entry =>
    cases entry with
    | directory => simp
    | file content modified =>
      constructor
      · intro h
        refine ⟨content, modified, rfl, ?_⟩
        simp only at h
        split at h
        · cases h
        · rename_i found hRead
          rw [hRead]
          split at h
          · cases h
          · rename_i hCompatible
            split at h
            · cases h
            · rename_i hRoot
              cases h
              exact ⟨rfl, by simpa using hCompatible, by simpa using hRoot⟩
      · rintro ⟨_, _, hFile, hRead, hCompatible, hRoot⟩
        cases hFile
        simp only [hRead, hCompatible, hRoot]
        rfl

theorem loadCache_of_hasCache {document : CacheDocument} (h : HasCache disk root document)
    (index : Index) :
    loadCache disk root index = .ok
      (index.restore (document.index.retain fun path =>
        (document.validate disk).valid.any path.same), document.validate disk) := by
  rw [loadCache, readCache_eq_ok.mpr h]
  rfl

theorem loadCache_of_not_hasCache (h : ¬∃ document, HasCache disk root document) (index : Index) :
    ∃ error, loadCache disk root index = .error error := by
  cases hRead : readCache disk root with
  | error error => exact ⟨error, by rw [loadCache, hRead]; rfl⟩
  | ok document => exact absurd ⟨document, readCache_eq_ok.mp hRead⟩ h

theorem loadCache_restoredDocument {other : Path}
    (h : HasCache later other (index.restoredDocument disk now root)) :
    loadCache later other {} = .ok
      (({} : Index).restore (index.snapshot.retain fun path =>
        index.snapshot.files.any fun file => path.same file && disk.keeps later now file),
      { valid := index.snapshot.files.filter (disk.keeps later now)
        invalid := index.snapshot.files.filter fun file => !disk.keeps later now file }) := by
  have hKept (path : Path) :
      (index.snapshot.files.filter (disk.keeps later now)).any path.same =
        index.snapshot.files.any fun file => path.same file && disk.keeps later now file := by
    rw [List.any_filter]
    congr 1
    funext file
    exact Bool.and_comm _ _
  rw [loadCache_of_hasCache h, validate_restoredDocument]
  simp only [hKept]
  rfl

theorem hasCache_restoredDocument {other : Path} (hIndex : index.Reached)
    (hNow : now < UInt64.size) (hStamps : ∀ path stamp, disk.stamp? path = some stamp → stamp.Fits)
    (hRoot : root.isAbsolute = true) (hDown : root.GoesDown) (hOther : root.same other = true)
    (hSaved : index.saveCache disk now root = .ok written)
    (hFile : later.find? (cacheFile other) = written.find? (cacheFile root)) :
    HasCache later other (index.restoredDocument disk now root) := by
  refine ⟨_, now, hFile.trans (find?_saveCache hRoot hDown hSaved), ?_, ?_, hOther⟩
  · exact decode_skim?_cacheDocument hIndex hNow hStamps
  · simp [CacheMetadata.isCompatible, restoredDocument]

theorem restoreCache_of_not_hasCache {m : Type → Type} [Monad m] {turn : Turn m}
    (h : ¬∃ document, HasCache turn.disk root document) :
    (Serving.restoreCache root : Serving m Unit).run turn = pure ((), turn) := by
  obtain ⟨error, hError⟩ := loadCache_of_not_hasCache h turn.session.index
  change pure ((), _) = _
  simp only [hError]

/-- A cache that is saved is loaded again as the index that it was saved from, without the files
that have changed since, or that have changed in the time after it was saved. One that cannot be
used changes nothing. -/
theorem loadCache_saveCache {other : Path} (hIndex : index.Reached)
    (hNow : now < UInt64.size) (hStamps : ∀ path stamp, disk.stamp? path = some stamp → stamp.Fits)
    (hRoot : root.isAbsolute = true) (hDown : root.GoesDown) (hOther : root.same other = true)
    (hSaved : index.saveCache disk now root = .ok written)
    (hFile : later.find? (cacheFile other) = written.find? (cacheFile root)) :
    (∃ loaded validation, loadCache later other {} = .ok (loaded, validation) ∧
      loaded.snapshot = index.snapshot.retain (fun path =>
        index.snapshot.files.any fun file => path.same file && disk.keeps later now file) ∧
      validation.valid = index.snapshot.files.filter (disk.keeps later now) ∧
      validation.invalid = index.snapshot.files.filter fun file => !disk.keeps later now file) ∧
    ∀ {m : Type → Type} [Monad m] (turn : Turn m) (root : Path),
      (¬∃ document, HasCache turn.disk root document) →
      (Serving.restoreCache root : Serving m Unit).run turn = pure ((), turn) := by
  have hDocument := hasCache_restoredDocument hIndex hNow hStamps hRoot hDown hOther hSaved hFile
  constructor
  · exact ⟨_, _, loadCache_restoredDocument hDocument, hIndex.snapshot_restore _, rfl, rfl⟩
  · intro m _ turn root hNone
    exact restoreCache_of_not_hasCache hNone

/-- Of two files, one is dated after the cache. -/
theorem loadCache_saveCache_dated :
    let router : Path := ⟨"/p/router.ex"⟩
    let dated : Path := ⟨"/p/dated_router.ex"⟩
    let route : Route := { path := "/a", verb := "GET", line := 3, helperBase := "a" }
    let snapshot : RegistrySnapshot Route :=
      { entries := [(dated, []), (router, [route])], digests := [(dated, "1"), (router, "2")] }
    let index : Index := { routes := ({} : FileRegistry Route).restore snapshot }
    let disk : Disk := { entries := [(["p"], .directory), (["p", "router.ex"], .file "" 1),
      (["p", "dated_router.ex"], .file "" 9)] }
    ∃ written, index.saveCache disk 5 ⟨"/p"⟩ = .ok written ∧
      ∃ loaded validation, loadCache written ⟨"/p/"⟩ {} = .ok (loaded, validation) ∧
        loaded.snapshot.routes.entries = [(router, [route])] ∧ validation.valid = [router] ∧
        validation.invalid = [dated] := by
  intro router dated route snapshot index disk
  have hFits : ∀ e ∈ snapshot.entries, ∀ a ∈ e.2, EntityKind.FitsLines .routes a := by
    have hLine : EntityKind.FitsLines .routes route := (by decide : 3 < UInt32.size)
    simpa [snapshot] using hLine
  have hRoutes : FileRegistry.Reached (EntityKind.FitsLines .routes)
      (({} : FileRegistry Route).restore snapshot) := .restores .empty rfl hFits
  have hIndex : index.Reached := by
    intro kind
    cases kind with
    | routes => exact hRoutes
    | _ => exact .empty
  have hStamps : ∀ path stamp, disk.stamp? path = some stamp → stamp.Fits := by
    intro path stamp
    refine Disk.fits_of_stamp? fun e he content modified hFile => ?_
    simp only [disk, List.mem_cons, List.not_mem_nil, or_false] at he
    rcases he with rfl | rfl | rfl <;> cases hFile <;> exact ⟨by decide, by decide⟩
  let written : Disk := (disk.makeDirectory (cacheDirectory ⟨"/p"⟩)).write (cacheFile ⟨"/p"⟩)
    (index.cacheDocument disk 5 ⟨"/p"⟩).encode.compact 5
  have hSaved : index.saveCache disk 5 ⟨"/p"⟩ = .ok written := rfl
  obtain ⟨⟨loaded, validation, hLoad, hSnapshot, hValid, hInvalid⟩, -⟩ :=
    @loadCache_saveCache index disk written written 5 ⟨"/p"⟩ ⟨"/p/"⟩ hIndex (by decide) hStamps
      (by decide) (by decide) (by decide) hSaved rfl
  have hHeld : index.snapshot = { routes := snapshot } := by
    have hEntries : (PathTable.ofList snapshot.entries).sorted = snapshot.entries :=
      PathTable.sorted_ofList (by decide) (by decide)
    have hDigests : (PathTable.ofList snapshot.digests).sorted = snapshot.digests :=
      PathTable.sorted_ofList (by decide) (by decide)
    simp only [index, Index.snapshot, FileRegistry.snapshot, FileRegistry.restore, hEntries,
      hDigests, PathTable.sorted_empty]
    rfl
  have hFiles : index.snapshot.files = [dated, router] := by
    rw [hHeld, IndexSnapshot.files, Path.sort, List.mergeSort_of_pairwise (by decide)]
    decide
  refine ⟨written, hSaved, loaded, validation, hLoad, ?_, ?_, ?_⟩
  · rw [hSnapshot, hFiles, hHeld]
    decide +kernel
  · rw [hValid, hFiles]
    decide +kernel
  · rw [hInvalid, hFiles]
    decide +kernel

end Index

end PhoenixLens
