import Mathlib.Data.List.Nodup
import Mathlib.Data.List.Perm.Subperm
import PhoenixLens.Proofs.Path.Names

/-!
# Directory trees

On a disk whose entries all lie in directories, the path of names below a directory leads to the
entry with these names in its trail, and to nothing else.
-/

namespace PhoenixLens.Disk

/-- The entries have names that can stand in a directory, and they lie in directories. -/
structure IsTree (disk : Disk) : Prop where
  named : ∀ e ∈ disk.entries, ∀ name ∈ e.1, Path.IsEntryName name
  inDirectory : ∀ e ∈ disk.entries, disk.isDirectoryAt e.1.dropLast = true

instance (disk : Disk) : Decidable disk.IsTree :=
  decidable_of_iff
    ((∀ e ∈ disk.entries, ∀ name ∈ e.1, Path.IsEntryName name) ∧
      ∀ e ∈ disk.entries, disk.isDirectoryAt e.1.dropLast = true)
    ⟨fun h => ⟨h.1, h.2⟩, fun h => ⟨h.1, h.2⟩⟩

/-! ### Entries -/

theorem mem_entries_of_found {disk : Disk} {trail : Trail} {entry : DiskEntry}
    (hNe : trail ≠ []) (h : disk.entry? trail = some entry) : (trail, entry) ∈ disk.entries := by
  unfold entry? at h
  rw [if_neg (by simpa using hNe)] at h
  obtain ⟨before, after, hEntries, -⟩ := List.lookup_eq_some_iff.mp h
  rw [hEntries]
  exact List.mem_append_right _ List.mem_cons_self

theorem isSome_of_mem_entries {disk : Disk} {trail : Trail} {entry : DiskEntry}
    (h : (trail, entry) ∈ disk.entries) : (disk.entry? trail).isSome = true := by
  unfold entry?
  split
  · rfl
  · cases hFound : disk.entries.lookup trail with
    | some _ => rfl
    | none =>
      have hNot := List.lookup_eq_none_iff.mp hFound (trail, entry) h
      simp at hNot

theorem isDirectoryAt_iff {disk : Disk} {trail : Trail} :
    disk.isDirectoryAt trail = true ↔ disk.entry? trail = some .directory := by
  rw [isDirectoryAt, beq_iff_eq]

/-- What an entry lies in is a directory, however far up. -/
theorem IsTree.isDirectoryAt_of_prefix {disk : Disk} (hTree : disk.IsTree) {trail names : Trail}
    (hNe : names ≠ []) (h : (disk.entry? (trail ++ names)).isSome = true) :
    disk.isDirectoryAt trail = true := by
  induction names using List.reverseRecOn with
  | nil => exact absurd rfl hNe
  | append_singleton names name ih =>
    obtain ⟨entry, hEntry⟩ := Option.isSome_iff_exists.mp h
    have hMem := mem_entries_of_found (by simp) hEntry
    have hParent := hTree.inDirectory _ hMem
    rw [← List.append_assoc, List.dropLast_concat] at hParent
    cases names with
    | nil => simpa using hParent
    | cons first rest =>
      refine ih (List.cons_ne_nil _ _) ?_
      rw [isDirectoryAt_iff.mp hParent]
      rfl

theorem IsTree.isSome_of_prefix {disk : Disk} (hTree : disk.IsTree) {trail names : Trail}
    (h : (disk.entry? (trail ++ names)).isSome = true) : (disk.entry? trail).isSome = true := by
  by_cases hNames : names = []
  · rwa [hNames, List.append_nil] at h
  · rw [isDirectoryAt_iff.mp (hTree.isDirectoryAt_of_prefix hNames h)]
    rfl

/-! ### Following paths -/

theorem followAll_append (disk : Disk) (trail : Trail) (front rest : List Segment) :
    disk.followAll trail (front ++ rest) =
      (disk.followAll trail front).bind fun t => disk.followAll t rest := by
  induction front generalizing trail with
  | nil => rfl
  | cons segment front ih =>
    rw [List.cons_append, followAll, followAll]
    split
    · cases disk.follow trail segment with
      | none => rfl
      | some next => exact ih next
    · rfl

theorem IsTree.followAll_names {disk : Disk} (hTree : disk.IsTree) {trail : Trail}
    (hTrail : disk.isDirectoryAt trail = true) (names : List String) :
    disk.followAll trail (names.map .name) =
      if (disk.entry? (trail ++ names)).isSome then some (trail ++ names) else none := by
  induction names using List.reverseRecOn with
  | nil => simp [followAll, isDirectoryAt_iff.mp hTrail]
  | append_singleton names name ih =>
    rw [List.map_append, followAll_append, ih, ← List.append_assoc]
    by_cases hHere : disk.isDirectoryAt (trail ++ names) = true
    · have hEntry := isDirectoryAt_iff.mp hHere
      rw [hEntry, Option.isSome_some, if_pos rfl, Option.bind_some, List.map_singleton, followAll,
        if_pos hHere, follow]
      cases hNext : (disk.entry? (trail ++ names ++ [name])).isSome <;> rfl
    · have hNone : (disk.entry? (trail ++ names ++ [name])).isSome = false := by
        rw [← Bool.not_eq_true]
        intro hSome
        exact hHere (hTree.isDirectoryAt_of_prefix (List.cons_ne_nil _ _) hSome)
      rw [hNone]
      split <;> simp [followAll, hHere]

theorem trail?_of_isAbsolute (disk : Disk) {path : Path} (h : path.isAbsolute = true) :
    disk.trail? path = (disk.followAll [] path.segments).bind fun trail =>
      if path.pieces.getLast?.any Path.isIdle && !disk.isDirectoryAt trail then none
      else some trail := by
  rw [trail?, h]
  cases disk.followAll [] path.segments with
  | none => rfl
  | some trail =>
    cases path.pieces.getLast?.any Path.isIdle <;> cases disk.isDirectoryAt trail <;> rfl

theorem isAbsolute_of_trail? {disk : Disk} {path : Path} {trail : Trail}
    (h : disk.trail? path = some trail) : path.isAbsolute = true := by
  cases hAbsolute : path.isAbsolute with
  | true => rfl
  | false =>
    rw [trail?, hAbsolute] at h
    cases h

/-- An absolute path that leads to the directory with the given trail. -/
structure IsRoot (disk : Disk) (root : Path) (trail : Trail) : Prop where
  isAbsolute : root.isAbsolute = true
  followAll : disk.followAll [] root.segments = some trail
  isDirectoryAt : disk.isDirectoryAt trail = true

theorem exists_isRoot {disk : Disk} {root : Path} (h : disk.isDirectory root = true) :
    ∃ trail, disk.IsRoot root trail := by
  rw [isDirectory, beq_iff_eq, find?, Option.bind_eq_bind, Option.bind_eq_some_iff] at h
  obtain ⟨trail, hTrail, hEntry⟩ := h
  have hAbsolute := isAbsolute_of_trail? hTrail
  rw [trail?_of_isAbsolute disk hAbsolute, Option.bind_eq_some_iff] at hTrail
  obtain ⟨found, hFollow, hFound⟩ := hTrail
  have hSame : found = trail := by
    split at hFound
    · cases hFound
    · exact Option.some.inj hFound
  exact ⟨trail, hAbsolute, hSame ▸ hFollow, isDirectoryAt_iff.mpr hEntry⟩

namespace IsRoot

variable {disk : Disk} {root : Path} {trail : Trail} {names : List String}

theorem trail?_eq (hRoot : disk.IsRoot root trail) : disk.trail? root = some trail := by
  rw [trail?_of_isAbsolute disk hRoot.isAbsolute, hRoot.followAll, Option.bind_some,
    hRoot.isDirectoryAt]
  simp

theorem any_pieces_below (hRoot : disk.IsRoot root trail)
    (hNames : ∀ n ∈ names, Path.IsEntryName n) (hNe : names ≠ []) :
    (root.below names).pieces.getLast?.any Path.isIdle = false := by
  have hLast : names.map String.toList ≠ [] := by simpa using hNe
  rw [Path.pieces_below hRoot.isAbsolute hNames hNe, List.getLast?_append,
    List.getLast?_eq_some_getLast hLast, Option.some_or, Option.any_some]
  exact Path.isIdle_of_mem hNames _ (List.getLast_mem hLast)

theorem trail?_below (hRoot : disk.IsRoot root trail) (hTree : disk.IsTree)
    (hNames : ∀ n ∈ names, Path.IsEntryName n) :
    disk.trail? (root.below names) =
      if (disk.entry? (trail ++ names)).isSome then some (trail ++ names) else none := by
  by_cases hNe : names = []
  · subst hNe
    rw [Path.below_nil, hRoot.trail?_eq, List.append_nil, isDirectoryAt_iff.mp hRoot.isDirectoryAt]
    rfl
  · rw [trail?_of_isAbsolute disk (Path.isAbsolute_below hRoot.isAbsolute hNames),
      Path.segments_below hRoot.isAbsolute hNames, followAll_append, hRoot.followAll,
      Option.bind_some, hTree.followAll_names hRoot.isDirectoryAt,
      any_pieces_below hRoot hNames hNe]
    cases (disk.entry? (trail ++ names)).isSome <;> rfl

theorem find?_below (hRoot : disk.IsRoot root trail) (hTree : disk.IsTree)
    (hNames : ∀ n ∈ names, Path.IsEntryName n) :
    disk.find? (root.below names) = disk.entry? (trail ++ names) := by
  rw [find?, hRoot.trail?_below hTree hNames]
  cases hEntry : disk.entry? (trail ++ names) with
  | none => rfl
  | some entry => exact hEntry

theorem isDirectory_below (hRoot : disk.IsRoot root trail) (hTree : disk.IsTree)
    (hNames : ∀ n ∈ names, Path.IsEntryName n) :
    disk.isDirectory (root.below names) = disk.isDirectoryAt (trail ++ names) := by
  rw [isDirectory, hRoot.find?_below hTree hNames, Disk.isDirectoryAt]

theorem isFile_below (hRoot : disk.IsRoot root trail) (hTree : disk.IsTree)
    (hNames : ∀ n ∈ names, Path.IsEntryName n) :
    disk.isFile (root.below names) = true ↔
      (disk.entry? (trail ++ names)).isSome = true ∧
        disk.isDirectoryAt (trail ++ names) = false := by
  rw [isFile, file?, hRoot.find?_below hTree hNames, Disk.isDirectoryAt]
  cases disk.entry? (trail ++ names) with
  | none => simp
  | some entry =>
    cases entry with
    | directory => simp
    | file content modified =>
      exact ⟨fun _ => ⟨rfl, rfl⟩, fun _ => rfl⟩

/-- A directory lists the names of what stands in it. -/
theorem mem_names?_below (hRoot : disk.IsRoot root trail) (hTree : disk.IsTree)
    (hNames : ∀ n ∈ names, Path.IsEntryName n)
    (hDirectory : disk.isDirectoryAt (trail ++ names) = true) {name : String} :
    name ∈ (disk.names? (root.below names)).getD [] ↔
      (disk.entry? (trail ++ (names ++ [name]))).isSome = true := by
  have hTrail : disk.trail? (root.below names) = some (trail ++ names) := by
    rw [hRoot.trail?_below hTree hNames, isDirectoryAt_iff.mp hDirectory]
    rfl
  have hListed : (disk.names? (root.below names)).getD [] = disk.entries.filterMap fun e =>
      if e.1.dropLast == trail ++ names then e.1.getLast? else none := by
    rw [names?, hTrail]
    simp [hDirectory]
  rw [hListed, List.mem_filterMap, ← List.append_assoc]
  constructor
  · rintro ⟨⟨inner, entry⟩, hMem, hName⟩
    split at hName
    · rename_i hParent
      have hInner : inner = trail ++ names ++ [name] := by
        rw [← eq_of_beq hParent]
        exact (List.dropLast_append_getLast? name hName).symm
      exact isSome_of_mem_entries (hInner ▸ hMem)
    · cases hName
  · intro hSome
    obtain ⟨entry, hEntry⟩ := Option.isSome_iff_exists.mp hSome
    refine ⟨_, mem_entries_of_found (by simp) hEntry, ?_⟩
    simp

end IsRoot

/-! ### Writing -/

theorem followAll_eq_some_of_names {disk : Disk} {trail found : Trail} {names : List String}
    (h : disk.followAll trail (names.map .name) = some found) : found = trail ++ names := by
  induction names generalizing trail with
  | nil =>
    rw [List.append_nil]
    exact (Option.some.inj h).symm
  | cons name names ih =>
    rw [List.map_cons, followAll] at h
    split at h
    · rw [follow] at h
      split at h
      · rename_i next hNext
        split at hNext
        · cases hNext
          rw [ih h, List.append_assoc]
          rfl
        · cases hNext
      · cases h
    · cases h

theorem followAll_congr {disk other : Disk}
    (hSome : ∀ t, (other.entry? t).isSome = (disk.entry? t).isSome)
    (hDirectory : ∀ t, other.isDirectoryAt t = disk.isDirectoryAt t) (trail : Trail)
    (segments : List Segment) : other.followAll trail segments = disk.followAll trail segments := by
  have hFollow : ∀ t segment, other.follow t segment = disk.follow t segment := by
    intro t segment
    cases segment with
    | name s => simp only [follow, hSome]
    | _ => rfl
  induction segments generalizing trail with
  | nil => rfl
  | cons segment segments ih => simp only [followAll, hDirectory, hFollow, ih]

theorem lookup_replace (entries : List (Trail × DiskEntry)) (trail t : Trail) (entry : DiskEntry) :
    (entries.map fun e => if e.1 == trail then (e.1, entry) else (e.1, e.2)).lookup t =
      if t = trail then (entries.lookup t).map fun _ => entry else entries.lookup t := by
  induction entries with
  | nil => simp
  | cons e entries ih =>
    have hKey : (if e.1 == trail then (e.1, entry) else (e.1, e.2)).1 = e.1 := by split <;> rfl
    rw [List.map_cons, List.lookup_cons, List.lookup_cons, hKey]
    by_cases hHere : t = e.1
    · by_cases hTrail : e.1 = trail
      · simp [hHere, hTrail]
      · simp [hHere, hTrail]
    · have hOther : (t == e.1) = false := by simpa using hHere
      rw [hOther]
      exact ih

/-- An entry that is put stands at its trail, and nothing else has changed. -/
theorem entry?_put_of_ne_nil {disk : Disk} {trail : Trail} (hNe : trail ≠ []) (entry : DiskEntry)
    (t : Trail) :
    Disk.entry? (disk.put trail entry) t = if t = trail then some entry else disk.entry? t := by
  have hFull : trail.isEmpty = false := by simpa using hNe
  have hEntries : (disk.put trail entry).entries.lookup t =
      if t = trail then some entry else disk.entries.lookup t := by
    rw [put, hFull, if_neg (by decide)]
    split
    · rename_i hSome
      rw [lookup_replace]
      split
      · rename_i hTrail
        obtain ⟨old, hOld⟩ := Option.isSome_iff_exists.mp hSome
        rw [hTrail, hOld, Option.map_some]
      · rfl
    · rename_i hNone
      rw [Bool.not_eq_true, Option.isSome_eq_false_iff, Option.isNone_iff_eq_none] at hNone
      rw [List.lookup_append]
      split
      · rename_i hTrail
        rw [hTrail, hNone, Option.none_or, List.lookup_cons_self]
      · rename_i hTrail
        have hOther : (t == trail) = false := beq_false_of_ne hTrail
        rw [List.lookup_cons, hOther, List.lookup_nil, Option.or_none]
  rw [Disk.entry?, Disk.entry?, hEntries]
  by_cases hTrail : t = trail
  · rw [if_pos hTrail, if_pos hTrail, hTrail, hFull]
    rfl
  · rw [if_neg hTrail, if_neg hTrail]

section Overwrite

variable {disk : Disk} {trail : Trail} {old text : String} {time modified : Nat}

theorem entry?_put (hFile : disk.entry? trail = some (.file old time)) (t : Trail) :
    Disk.entry? (disk.put trail (.file text modified)) t =
      if t = trail then some (.file text modified) else disk.entry? t := by
  refine entry?_put_of_ne_nil ?_ _ t
  rintro rfl
  cases hFile

theorem read?_put_of_ne (hFile : disk.entry? trail = some (.file old time)) {path : Path}
    (hDown : path.GoesDown) (hOther : path.names ≠ trail) :
    (disk.put trail (.file text modified)).read? path = disk.read? path := by
  have hSome : ∀ t, (Disk.entry? (disk.put trail (.file text modified)) t).isSome =
      (disk.entry? t).isSome := by
    intro t
    rw [Disk.entry?_put hFile]
    split
    · rename_i hTrail
      rw [hTrail, hFile]
      rfl
    · rfl
  have hDirectory : ∀ t, (disk.put trail (.file text modified)).isDirectoryAt t =
      disk.isDirectoryAt t := by
    intro t
    rw [isDirectoryAt, isDirectoryAt, entry?_put hFile]
    split
    · rename_i hTrail
      rw [hTrail, hFile]
      rfl
    · rfl
  have hTrail : (disk.put trail (.file text modified)).trail? path = disk.trail? path := by
    simp only [trail?, followAll_congr hSome hDirectory, hDirectory]
  rw [read?, read?, file?, file?, find?, find?, hTrail]
  cases hFound : disk.trail? path with
  | none => rfl
  | some found =>
    have hPath := isAbsolute_of_trail? hFound
    rw [trail?_of_isAbsolute disk hPath, Path.segments_of_goesDown hPath hDown,
      Option.bind_eq_some_iff] at hFound
    obtain ⟨led, hLed, hKept⟩ := hFound
    have hNames : led = path.names := by
      rw [followAll] at hLed
      exact followAll_eq_some_of_names hLed
    have hSame : found = led := by
      split at hKept
      · cases hKept
      · exact (Option.some.inj hKept).symm
    have hNe : found ≠ trail := by rwa [hSame, hNames]
    simp only [Option.bind_eq_bind, Option.bind_some, entry?_put hFile, if_neg hNe]

/-- Writing over a file changes nothing for paths that lead another way. -/
theorem read?_put {path other : Path} (hFile : disk.entry? path.names = some (.file old time))
    (hPath : path.isAbsolute = true) (hDown : path.GoesDown) (hOther : other.GoesDown)
    (hDiffers : other.same path = false) :
    (disk.put path.names (.file text modified)).read? other = disk.read? other := by
  cases hAbsolute : other.isAbsolute with
  | false => simp [read?, file?, find?, trail?, hAbsolute]
  | true =>
    refine read?_put_of_ne hFile hOther fun hNames => ?_
    rw [Path.same, Path.segments_of_goesDown hAbsolute hOther,
      Path.segments_of_goesDown hPath hDown, hNames, beq_self_eq_true] at hDiffers
    cases hDiffers

end Overwrite

/-- No entry lies deeper than there are entries: all that it lies in are entries, too. -/
theorem IsTree.length_le {disk : Disk} (hTree : disk.IsTree) {trail names : Trail}
    (hEntry : (disk.entry? (trail ++ names)).isSome = true) :
    names.length ≤ disk.entries.length := by
  let front (n : Nat) : Trail := trail ++ names.take (n + 1)
  have hSub : (List.range names.length).map front ⊆ disk.entries.map (·.1) := by
    intro inner hInner
    obtain ⟨n, hn, rfl⟩ := List.mem_map.mp hInner
    have hFound : (disk.entry? (front n)).isSome = true := by
      rw [← List.take_append_drop (n + 1) names, ← List.append_assoc] at hEntry
      exact hTree.isSome_of_prefix hEntry
    have hNe : front n ≠ [] := by
      rw [List.mem_range] at hn
      intro hNil
      have hLength := congrArg List.length hNil
      simp only [front, List.length_append, List.length_take, List.length_nil] at hLength
      omega
    obtain ⟨entry, hFront⟩ := Option.isSome_iff_exists.mp hFound
    exact List.mem_map.mpr ⟨_, mem_entries_of_found hNe hFront, rfl⟩
  have hNodup : ((List.range names.length).map front).Nodup := by
    refine List.Nodup.map_on ?_ List.nodup_range
    intro n hn m hm hSame
    rw [List.mem_range] at hn hm
    have hLength := congrArg List.length hSame
    simp only [front, List.length_append, List.length_take] at hLength
    omega
  have hLength := (List.subperm_of_subset hNodup hSub).length_le
  rwa [List.length_map, List.length_map, List.length_range] at hLength

end PhoenixLens.Disk
