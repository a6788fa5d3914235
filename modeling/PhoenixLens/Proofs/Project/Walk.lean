import PhoenixLens.Proofs.Path.Disk

/-!
# The files that a walk finds

A walk through a project goes only into directories that the filter lets it enter, while a file on
its own is only asked for its own path. So the walk finds the files that pass the filter and lie in
no directory that a pattern excludes.
-/

namespace PhoenixLens

open Disk

section Artifacts

variable {names more : List String}

theorem isArtifactDirectory_ofNames (hNames : ∀ n ∈ names, Path.IsEntryName n) :
    isArtifactDirectory (.ofNames names) =
      (names.any (fun n => Text.startsWith "." n.toList || excludedDirectories.contains n) ||
        (names.zip names.tail).contains ("priv", "static")) := by
  rw [isArtifactDirectory, Path.names_ofNames hNames]

theorem zip_tail_subset (names more : List String) :
    names.zip names.tail ⊆ (names ++ more).zip (names ++ more).tail := by
  induction names with
  | nil => exact List.nil_subset _
  | cons first names ih =>
    cases names with
    | nil => exact List.nil_subset _
    | cons second names => exact List.cons_subset_cons _ ih

/-- What lies in an artifact directory is one. -/
theorem isArtifactDirectory_append (hNames : ∀ n ∈ names ++ more, Path.IsEntryName n)
    (h : isArtifactDirectory (.ofNames names) = true) :
    isArtifactDirectory (.ofNames (names ++ more)) = true := by
  have hFront : ∀ n ∈ names, Path.IsEntryName n := fun n hn => hNames n (List.mem_append_left _ hn)
  rw [isArtifactDirectory_ofNames hFront, Bool.or_eq_true, List.contains_iff_mem] at h
  rw [isArtifactDirectory_ofNames hNames, Bool.or_eq_true, List.contains_iff_mem]
  rcases h with hName | hPair
  · exact .inl (by rw [List.any_append, hName, Bool.true_or])
  · exact .inr (zip_tail_subset names more hPair)

end Artifacts

namespace SourceFilter

/-- No pattern excludes a directory on the way to the entry with the given names. -/
def Reaches (filter : SourceFilter) (names : List String) : Prop :=
  ∀ directory, directory ≠ [] → directory <+: names.dropLast →
    filter.isExcluded (.ofNames directory) = false

/-- The directories on the way from one directory to an entry below it are entered. -/
def EntersAll (filter : SourceFilter) (front names : List String) : Prop :=
  ∀ directory, directory ≠ [] → directory <+: names.dropLast →
    filter.enters (.ofNames (front ++ directory)) = true

variable {filter : SourceFilter} {front names : List String}

theorem entersAll_singleton (name : String) : filter.EntersAll front [name] := by
  intro directory hNe hPrefix
  exact absurd (List.prefix_nil.mp hPrefix) hNe

theorem entersAll_cons (name : String) (hNe : names ≠ []) :
    filter.EntersAll front (name :: names) ↔
      filter.enters (.ofNames (front ++ [name])) = true ∧
        filter.EntersAll (front ++ [name]) names := by
  constructor
  · intro h
    constructor
    · refine h [name] (List.cons_ne_nil _ _) ?_
      rw [List.dropLast_cons_of_ne_nil hNe, List.cons_prefix_cons]
      exact ⟨rfl, List.nil_prefix⟩
    · intro directory _ hPrefix
      rw [List.append_assoc, List.singleton_append]
      refine h (name :: directory) (List.cons_ne_nil _ _) ?_
      rw [List.dropLast_cons_of_ne_nil hNe, List.cons_prefix_cons]
      exact ⟨rfl, hPrefix⟩
  · rintro ⟨hFirst, hRest⟩ directory hSome hPrefix
    obtain ⟨first, rest, rfl⟩ := List.exists_cons_of_ne_nil hSome
    rw [List.dropLast_cons_of_ne_nil hNe, List.cons_prefix_cons] at hPrefix
    obtain ⟨rfl, hInner⟩ := hPrefix
    by_cases hEnd : rest = []
    · rw [hEnd]
      exact hFirst
    · have hEnters := hRest rest hEnd hInner
      rwa [List.append_assoc, List.singleton_append] at hEnters

/-- Of a file that is accepted, only patterns can keep a directory from being entered. -/
theorem entersAll_iff_reaches (hNames : ∀ n ∈ names, Path.IsEntryName n) (hNe : names ≠ [])
    (hAccepts : filter.accepts (.ofNames names) = true) :
    filter.EntersAll [] names ↔ filter.Reaches names := by
  have hParent : isArtifactDirectory (.ofNames names.dropLast) = false := by
    rw [← List.dropLast_concat_getLast hNe] at hNames hAccepts
    rw [accepts, Path.parent?_ofNames hNames] at hAccepts
    simp only [Option.any_some, Bool.and_eq_true, Bool.not_eq_true'] at hAccepts
    exact hAccepts.1.1.2
  have hClear : ∀ directory, directory <+: names.dropLast →
      isArtifactDirectory (.ofNames directory) = false := by
    rintro directory ⟨more, hMore⟩
    rw [← Bool.not_eq_true]
    intro hArtifact
    have hWay : ∀ n ∈ directory ++ more, Path.IsEntryName n := by
      rw [hMore]
      exact fun n hn => hNames n (List.dropLast_subset names hn)
    have hInner := isArtifactDirectory_append hWay hArtifact
    rw [hMore, hParent] at hInner
    cases hInner
  constructor
  · intro h directory hSome hPrefix
    have hEnters := h directory hSome hPrefix
    rw [List.nil_append, enters, Bool.and_eq_true, Bool.not_eq_true', Bool.not_eq_true'] at hEnters
    exact hEnters.2
  · intro h directory hSome hPrefix
    rw [List.nil_append, enters, hClear directory hPrefix, h directory hSome hPrefix]
    rfl

theorem tracks_below {root : Path} (hRoot : root.isAbsolute = true)
    (hNames : ∀ n ∈ names, Path.IsEntryName n) (hNe : names ≠ []) :
    filter.tracks (root.below names) (some root) = filter.accepts (.ofNames names) := by
  simp only [tracks]
  rw [Path.relativeTo?_below hRoot hNames hNe, Option.any_some]

end SourceFilter

section Walk

variable {disk : Disk} {filter : SourceFilter} {root : Path} {trail : Trail}

/-- What a walk makes of the entries of a directory. -/
theorem mem_walkFiles_succ (hRoot : root.isAbsolute = true) {depth : Nat} {front : List String}
    (hFront : ∀ n ∈ front, Path.IsEntryName n)
    (hListed : ∀ n ∈ (disk.names? (root.below front)).getD [], Path.IsEntryName n) {path : Path} :
    path ∈ walkFiles disk filter root (depth + 1) (root.below front) ↔
      ∃ name ∈ (disk.names? (root.below front)).getD [],
        if disk.isDirectory (root.below (front ++ [name])) then
          filter.enters (.ofNames (front ++ [name])) = true ∧
            path ∈ walkFiles disk filter root depth (root.below (front ++ [name]))
        else filter.accepts (.ofNames (front ++ [name])) = true ∧
          path = root.below (front ++ [name]) := by
  rw [walkFiles, List.mem_flatMap]
  refine exists_congr fun name => and_congr_right fun hName => ?_
  have hNames : ∀ n ∈ front ++ [name], Path.IsEntryName n := by
    intro n hn
    rcases List.mem_append.mp hn with hOuter | hInner
    · exact hFront n hOuter
    · exact List.mem_singleton.mp hInner ▸ hListed name hName
  simp only [← Path.below_concat, Path.relativeTo?_below hRoot hNames (by simp), Option.getD_some]
  split
  · split <;> simp_all
  · split <;> simp_all

/-- A walk that is deep enough finds the files below a directory that the filter accepts and to
which it is let through. The induction is on the depth, with the directory reached so far. -/
theorem mem_walkFiles_iff (hRoot : disk.IsRoot root trail) (hTree : disk.IsTree) {depth : Nat}
    {front : List String} (hFront : ∀ n ∈ front, Path.IsEntryName n)
    (hDirectory : disk.isDirectoryAt (trail ++ front) = true) {path : Path} :
    path ∈ walkFiles disk filter root depth (root.below front) ↔
      ∃ names, names ≠ [] ∧ names.length ≤ depth ∧ (∀ n ∈ front ++ names, Path.IsEntryName n) ∧
        path = root.below (front ++ names) ∧ disk.isFile path = true ∧
        filter.accepts (.ofNames (front ++ names)) = true ∧ filter.EntersAll front names := by
  induction depth generalizing front with
  | zero =>
    rw [walkFiles]
    constructor
    · rintro ⟨⟩
    · rintro ⟨names, hNe, hLength, -⟩
      exact absurd (List.length_eq_zero_iff.mp (Nat.le_zero.mp hLength)) hNe
  | succ depth ih =>
    have hListed : ∀ n ∈ (disk.names? (root.below front)).getD [],
        ∀ m ∈ front ++ [n], Path.IsEntryName m := by
      intro n hn m hm
      rw [hRoot.mem_names?_below hTree hFront hDirectory] at hn
      obtain ⟨entry, hEntry⟩ := Option.isSome_iff_exists.mp hn
      have hMem := mem_entries_of_found (by simp) hEntry
      exact hTree.named _ hMem m (List.mem_append_right _ hm)
    rw [mem_walkFiles_succ hRoot.isAbsolute hFront
      fun n hn => hListed n hn n List.mem_concat_self]
    constructor
    · rintro ⟨name, hName, hFound⟩
      have hNames := hListed name hName
      rw [hRoot.isDirectory_below hTree hNames] at hFound
      split at hFound
      · rename_i hInner
        obtain ⟨hEnters, hWalk⟩ := hFound
        obtain ⟨names, hNe, hLength, hAll, hPath, hFile, hAccepts, hWay⟩ :=
          (ih hNames hInner).mp hWalk
        rw [List.append_assoc, List.singleton_append] at hAll hPath hAccepts
        refine ⟨name :: names, List.cons_ne_nil _ _, Nat.succ_le_succ hLength, hAll, hPath, hFile,
          hAccepts, ?_⟩
        exact (SourceFilter.entersAll_cons name hNe).mpr ⟨hEnters, hWay⟩
      · rename_i hInner
        obtain ⟨hAccepts, hPath⟩ := hFound
        refine ⟨[name], List.cons_ne_nil _ _, Nat.succ_le_succ (Nat.zero_le _), hNames, hPath, ?_,
          hAccepts, SourceFilter.entersAll_singleton name⟩
        rw [hPath, hRoot.isFile_below hTree hNames]
        exact ⟨(hRoot.mem_names?_below hTree hFront hDirectory).mp hName, by simpa using hInner⟩
    · rintro ⟨names, hNe, hLength, hAll, hPath, hFile, hAccepts, hWay⟩
      obtain ⟨name, rest, rfl⟩ := List.exists_cons_of_ne_nil hNe
      have hNames : ∀ n ∈ front ++ [name], Path.IsEntryName n := by
        intro n hn
        exact hAll n (by
          rw [← List.singleton_append, ← List.append_assoc]
          exact List.mem_append_left _ hn)
      have hEntry := ((hRoot.isFile_below hTree hAll).mp (hPath ▸ hFile))
      refine ⟨name, ?_, ?_⟩
      · rw [hRoot.mem_names?_below hTree hFront hDirectory]
        have hSome := hEntry.1
        rw [← List.singleton_append, ← List.append_assoc, ← List.append_assoc] at hSome
        rw [← List.append_assoc]
        exact hTree.isSome_of_prefix hSome
      · rw [hRoot.isDirectory_below hTree hNames]
        by_cases hEnd : rest = []
        · subst hEnd
          rw [hEntry.2]
          exact ⟨hAccepts, hPath⟩
        · have hInner : disk.isDirectoryAt (trail ++ (front ++ [name])) = true := by
            refine hTree.isDirectoryAt_of_prefix hEnd ?_
            simpa using hEntry.1
          obtain ⟨hEnters, hRest⟩ := (SourceFilter.entersAll_cons name hEnd).mp hWay
          rw [if_pos hInner]
          refine ⟨hEnters, (ih hNames hInner).mpr ⟨rest, hEnd, Nat.le_of_succ_le_succ hLength, ?_⟩⟩
          rw [List.append_assoc, List.singleton_append]
          exact ⟨hAll, hPath, hFile, hAccepts, hRest⟩

/-- The files that are collected are those below the root that the filter tracks and that no
excluded directory holds. -/
theorem mem_collectFiles_iff (hTree : disk.IsTree) (hRoot : disk.isDirectory root = true)
    {path : Path} :
    path ∈ collectFiles disk filter root ↔
      ∃ names, names ≠ [] ∧ (∀ n ∈ names, Path.IsEntryName n) ∧ path = root.below names ∧
        disk.isFile path = true ∧ filter.tracks path (some root) = true ∧
        filter.Reaches names := by
  obtain ⟨trail, hTrail⟩ := exists_isRoot hRoot
  have hAbsolute := hTrail.isAbsolute
  have hTop : disk.isDirectoryAt (trail ++ []) = true := by
    rw [List.append_nil]
    exact hTrail.isDirectoryAt
  rw [collectFiles, Path.sort, List.mem_mergeSort]
  change path ∈ walkFiles disk filter root _ (root.below []) ↔ _
  rw [mem_walkFiles_iff hTrail hTree (List.forall_mem_nil _) hTop]
  simp only [List.nil_append]
  refine exists_congr fun names => and_congr_right fun hNe => ?_
  constructor
  · rintro ⟨-, hNames, rfl, hFile, hAccepts, hWay⟩
    rw [SourceFilter.tracks_below hAbsolute hNames hNe]
    exact ⟨hNames, rfl, hFile, hAccepts,
      (SourceFilter.entersAll_iff_reaches hNames hNe hAccepts).mp hWay⟩
  · rintro ⟨hNames, rfl, hFile, hTracks, hReaches⟩
    rw [SourceFilter.tracks_below hAbsolute hNames hNe] at hTracks
    have hEntry := ((hTrail.isFile_below hTree hNames).mp hFile).1
    exact ⟨Nat.le_succ_of_le (hTree.length_le hEntry), hNames, rfl, hFile, hTracks,
      (SourceFilter.entersAll_iff_reaches hNames hNe hTracks).mpr hReaches⟩

end Walk

/-- A project with one file beside a directory of old files. -/
def legacyDisk : Disk where
  entries := [(["app"], .directory), (["app", "lib"], .directory),
    (["app", "lib", "page.ex"], .file "" 0), (["app", "lib", "legacy"], .directory),
    (["app", "lib", "legacy", "router.ex"], .file "" 0)]

/-- The filter that leaves out the directory of old files. -/
def legacyFilter : SourceFilter where
  exclusions := some [⟨"lib/legacy", "lib/legacy".toList.map .literal⟩]

theorem mem_collectFiles_beside_legacy :
    ⟨"/app/lib/page.ex"⟩ ∈ collectFiles legacyDisk legacyFilter ⟨"/app"⟩ := by
  refine (mem_collectFiles_iff (by decide) (by decide)).mpr ?_
  refine ⟨["lib", "page.ex"], by decide, by decide, by decide, by decide,
    by decide +kernel, ?_⟩
  intro directory hNe hPrefix
  obtain ⟨first, rest, rfl⟩ := List.exists_cons_of_ne_nil hNe
  obtain ⟨rfl, hRest⟩ := List.cons_prefix_cons.mp hPrefix
  rw [List.prefix_nil.mp hRest]
  decide

/-- A file in a directory that a pattern excludes is tracked on its own, but not collected. -/
theorem tracks_below_excluded_directory :
    SourceFilter.ofPatterns [] ["lib/legacy"] = .ok legacyFilter ∧
      legacyDisk.isFile ⟨"/app/lib/legacy/router.ex"⟩ = true ∧
      legacyFilter.tracks ⟨"/app/lib/legacy/router.ex"⟩ (some ⟨"/app"⟩) = true ∧
      ⟨"/app/lib/legacy/router.ex"⟩ ∉ collectFiles legacyDisk legacyFilter ⟨"/app"⟩ := by
  refine ⟨rfl, by decide, by decide +kernel, ?_⟩
  rw [collectFiles, Path.sort, List.mem_mergeSort]
  decide +kernel

end PhoenixLens
