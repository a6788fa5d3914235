import PhoenixLens.Proofs.Path.Disk

/-!
# Writing files

A file that is written is found again under its path, if the path never goes up. Directories that it
lies in are made on the way.
-/

namespace PhoenixLens

namespace Path

/-- The names of a path that never goes up can stand in directories. -/
theorem isEntryName_of_mem_names {path : Path} (hPath : path.isAbsolute = true)
    (hDown : path.GoesDown) {name : String} (h : name ∈ path.names) : IsEntryName name := by
  have hSegment : Segment.name name ∈ path.segments := by
    rw [segments_of_goesDown hPath hDown]
    exact List.mem_cons_of_mem _ (List.mem_map_of_mem h)
  rw [segments_of_isAbsolute hPath] at hSegment
  rcases List.mem_cons.mp hSegment with hRoot | hPiece
  · cases hRoot
  · obtain ⟨piece, hMem, hName⟩ := List.mem_map.mp hPiece
    obtain ⟨hOpen, hIdle⟩ := List.mem_filter.mp hMem
    rw [Segment.ofPiece] at hName
    split at hName
    · cases hName
    · rename_i hUp
      obtain ⟨idle, -, hSplit⟩ := splitAt_eq_openPieces path
      have hWhole : piece ∈ Text.splitAt '/' path.text.toList := by
        rw [hSplit]
        exact List.mem_append_left _ hOpen
      cases hName
      refine ⟨?_, ?_, ?_⟩
      · rw [String.toList_ofList]
        simpa using hIdle
      · rw [String.toList_ofList]
        simpa using hUp
      · rw [String.toList_ofList]
        exact Text.not_mem_of_mem_splitAt hWhole

/-- The path that is printed from names has the names for segments. -/
theorem segments_ofSegments {names : List String} (hNames : ∀ n ∈ names, IsEntryName n) :
    (ofSegments (.root :: names.map .name)).segments = .root :: names.map .name := by
  have hTexts : (names.map Segment.name).map Segment.text = names := by
    rw [List.map_map]
    exact List.map_id names
  have hText : (ofSegments (.root :: names.map .name)).text.toList =
      '/' :: Text.join ['/'] (names.map String.toList) := by
    rw [ofSegments, hTexts, String.toList_append, String.toList_intercalate]
    rfl
  have hAbsolute : (ofSegments (.root :: names.map .name)).isAbsolute = true := by
    rw [isAbsolute, hText]
    rfl
  have hKept : (Text.splitAt '/' ('/' :: Text.join ['/'] (names.map String.toList))).filter
      (fun p => !p.isEmpty && p != ['.']) = names.map String.toList := by
    by_cases hNil : names = []
    · rw [hNil]
      rfl
    · have hPieces : ∀ piece ∈ names.map String.toList, '/' ∉ piece := by
        intro piece hPiece
        obtain ⟨n, hn, rfl⟩ := List.mem_map.mp hPiece
        exact (hNames n hn).2.2
      have hSplit : Text.splitAt '/' ('/' :: Text.join ['/'] (names.map String.toList)) =
          [] :: names.map String.toList := by
        rw [Text.splitAt, BEq.rfl, if_pos rfl, Text.splitAt_join (by simpa using hNil) hPieces]
      rw [hSplit, List.filter_cons_of_neg (by simp), List.filter_eq_self]
      intro piece hPiece
      have hIdle := isIdle_of_mem hNames piece hPiece
      rw [isIdle, Bool.or_eq_false_iff] at hIdle
      simp [hIdle.1, bne, hIdle.2]
  have hSegments : (names.map String.toList).map Segment.ofPiece = names.map Segment.name := by
    rw [List.map_map, List.map_inj_left]
    exact fun n hn => (hNames n hn).ofPiece
  rw [segments, if_pos hAbsolute, hText, hKept, hSegments]

theorem trailOf_eq_names {path : Path} (hPath : path.isAbsolute = true) (hDown : path.GoesDown) :
    Disk.trailOf path = path.names := by
  have hSegments := segments_of_goesDown hPath hDown
  have hStep (done : List Segment) (names : List String) :
      (names.map Segment.name).foldl normalize.step done = done ++ names.map .name := by
    induction names generalizing done with
    | nil => exact (List.append_nil done).symm
    | cons name names ih =>
      rw [List.map_cons, List.foldl_cons, normalize.step, ih, List.append_assoc]
      · rfl
      · exact nofun
      · exact nofun
  have hNormal : path.normalize = ofSegments (.root :: path.names.map .name) := by
    rw [normalize, hSegments, List.foldl_cons, hStep]
    rfl
  rw [Disk.trailOf, hNormal,
    segments_ofSegments fun n hn => isEntryName_of_mem_names hPath hDown hn,
    List.filterMap_cons_none rfl, List.filterMap_map]
  exact List.filterMap_some

end Path

namespace Disk

/-! ### Directories on the way -/

/-- Makes one of the directories on the way along a trail. -/
def makeOne (trail : Trail) (disk : Disk) (n : Nat) : Disk :=
  if (disk.entry? (trail.take (n + 1))).isSome then disk
  else disk.put (trail.take (n + 1)) .directory

theorem makeDirectory_eq (disk : Disk) (path : Path) :
    disk.makeDirectory path =
      (List.range (trailOf path).length).foldl (makeOne (trailOf path)) disk := rfl

section

variable {disk : Disk} {trail t : Trail} {entry : DiskEntry} {n : Nat}

theorem entry?_makeOne_of_some (h : disk.entry? t = some entry) :
    Disk.entry? (makeOne trail disk n) t = some entry := by
  rw [makeOne]
  split
  · exact h
  · rename_i hNone
    have hNe : trail.take (n + 1) ≠ [] := by
      intro hNil
      rw [hNil] at hNone
      exact hNone rfl
    rw [entry?_put_of_ne_nil hNe, if_neg, h]
    rintro rfl
    rw [h] at hNone
    exact hNone rfl

theorem isSome_makeOne :
    (Disk.entry? (makeOne trail disk n) (trail.take (n + 1))).isSome = true := by
  rw [makeOne]
  split
  · rename_i hSome
    exact hSome
  · rename_i hNone
    have hNe : trail.take (n + 1) ≠ [] := by
      intro hNil
      rw [hNil] at hNone
      exact hNone rfl
    rw [entry?_put_of_ne_nil hNe, if_pos rfl]
    rfl

theorem entry?_of_makeOne (h : Disk.entry? (makeOne trail disk n) t = some entry) :
    disk.entry? t = some entry ∨ entry = .directory := by
  rw [makeOne] at h
  split at h
  · exact .inl h
  · rename_i hNone
    have hNe : trail.take (n + 1) ≠ [] := by
      intro hNil
      rw [hNil] at hNone
      exact hNone rfl
    rw [entry?_put_of_ne_nil hNe] at h
    split at h
    · exact .inr (Option.some.inj h).symm
    · exact .inl h

theorem entry?_makeAll_of_some (h : disk.entry? t = some entry) (ns : List Nat) :
    Disk.entry? (ns.foldl (makeOne trail) disk) t = some entry := by
  induction ns using List.reverseRecOn with
  | nil => exact h
  | append_singleton ns n ih =>
    rw [List.foldl_concat]
    exact entry?_makeOne_of_some ih

theorem entry?_of_makeAll {ns : List Nat}
    (h : Disk.entry? (ns.foldl (makeOne trail) disk) t = some entry) :
    disk.entry? t = some entry ∨ entry = .directory := by
  induction ns using List.reverseRecOn with
  | nil => exact .inl h
  | append_singleton ns n ih =>
    rw [List.foldl_concat] at h
    rcases entry?_of_makeOne h with hBefore | hMade
    · exact ih hBefore
    · exact .inr hMade

theorem isSome_makeAll {ns : List Nat} (h : n ∈ ns) :
    (Disk.entry? (ns.foldl (makeOne trail) disk) (trail.take (n + 1))).isSome = true := by
  induction ns using List.reverseRecOn with
  | nil => cases h
  | append_singleton ns m ih =>
    rw [List.foldl_concat]
    rcases List.mem_append.mp h with hBefore | hLast
    · obtain ⟨entry, hEntry⟩ := Option.isSome_iff_exists.mp (ih hBefore)
      rw [entry?_makeOne_of_some hEntry]
      rfl
    · rw [List.mem_singleton.mp hLast]
      exact isSome_makeOne

end

/-- Where no file is in the way, all directories along a trail are made. -/
theorem isDirectoryAt_makeDirectory? {disk made : Disk} {path : Path}
    (h : disk.makeDirectory? path = .ok made) {n : Nat} (hn : n < (trailOf path).length) :
    made.isDirectoryAt ((trailOf path).take (n + 1)) = true := by
  rw [makeDirectory?] at h
  split at h
  · cases h
  · rename_i hFree
    have hMade : disk.makeDirectory path = made := Except.ok.inj h
    rw [← hMade, makeDirectory_eq, isDirectoryAt_iff]
    obtain ⟨entry, hEntry⟩ := Option.isSome_iff_exists.mp
      (@isSome_makeAll disk (trailOf path) n _ (List.mem_range.mpr hn))
    rcases entry?_of_makeAll hEntry with hBefore | hMade
    · have hWay := List.findSome?_eq_none_iff.mp hFree n (List.mem_range.mpr hn)
      rw [hBefore] at hWay
      cases entry with
      | directory => exact hEntry
      | file content modified => cases hWay
    · rw [hEntry, hMade]

/-! ### Finding what has been written -/

theorem followAll_of_directories {disk : Disk} {trail : Trail} {names : List String}
    (hDirectories : ∀ n < names.length, disk.isDirectoryAt (trail ++ names.take n) = true)
    (hSome : (disk.entry? (trail ++ names)).isSome = true) :
    disk.followAll trail (names.map .name) = some (trail ++ names) := by
  induction names using List.reverseRecOn with
  | nil => simp [followAll]
  | append_singleton names name ih =>
    have hHere : disk.isDirectoryAt (trail ++ names) = true := by
      have hLast := hDirectories names.length (by simp)
      rwa [List.take_left] at hLast
    have hBefore : disk.followAll trail (names.map .name) = some (trail ++ names) := by
      refine ih (fun n hn => ?_) ?_
      · have hFront := hDirectories n (by rw [List.length_append]; omega)
        rwa [List.take_append_of_le_length (Nat.le_of_lt hn)] at hFront
      · rw [isDirectoryAt_iff.mp hHere]
        rfl
    rw [← List.append_assoc] at hSome ⊢
    rw [List.map_append, followAll_append, hBefore, Option.bind_some, List.map_singleton,
      followAll, if_pos hHere, follow, if_pos hSome]
    rfl

/-- A path of names that end in one that can stand in a directory leads along its names. -/
theorem find?_of_directories {disk : Disk} {path : Path} (hPath : path.isAbsolute = true)
    (hDown : path.GoesDown) (hLast : path.pieces.getLast?.any Path.isIdle = false)
    (hDirectories : ∀ n < path.names.length, disk.isDirectoryAt (path.names.take n) = true)
    {entry : DiskEntry} (hEntry : disk.entry? path.names = some entry) :
    disk.find? path = some entry := by
  have hFollow : disk.followAll [] (path.names.map .name) = some path.names :=
    followAll_of_directories hDirectories (by rw [List.nil_append, hEntry]; rfl)
  have hTrail : disk.trail? path = some path.names := by
    rw [trail?_of_isAbsolute disk hPath, Path.segments_of_goesDown hPath hDown, followAll]
    change ((disk.followAll [] (path.names.map .name)).bind _) = _
    rw [hFollow, Option.bind_some, hLast]
    rfl
  rw [find?, hTrail]
  exact hEntry

/-- A file is found that is written into a directory that has been made. -/
theorem find?_write {disk made : Disk} {directory : Path} {name : String}
    (hPath : directory.isAbsolute = true) (hDown : directory.GoesDown)
    (hName : Path.IsEntryName name) (hMade : disk.makeDirectory? directory = .ok made)
    (content : String) (modified : Nat) :
    (made.write (directory.join name) content modified).find? (directory.join name) =
      some (.file content modified) := by
  have hBelow : directory.join name = directory.below [name] := rfl
  have hNames : ∀ n ∈ [name], Path.IsEntryName n := by simpa using hName
  have hAbsolute : (directory.join name).isAbsolute = true := Path.isAbsolute_join hPath hName
  have hSegments := Path.segments_below hPath hNames
  have hGoesDown : (directory.join name).GoesDown := by
    rw [Path.GoesDown, hBelow, hSegments]
    simpa [Path.GoesDown] using hDown
  have hTrail : (directory.join name).names = directory.names ++ [name] := by
    rw [Path.names, hBelow, hSegments, List.filterMap_append]
    rfl
  have hLast : (directory.join name).pieces.getLast?.any Path.isIdle = false := by
    rw [hBelow, Path.pieces_below hPath hNames (List.cons_ne_nil _ _), List.getLast?_append]
    exact hName.1
  have hNe : trailOf (directory.join name) ≠ [] := by
    rw [Path.trailOf_eq_names hAbsolute hGoesDown, hTrail]
    simp
  refine find?_of_directories hAbsolute hGoesDown hLast ?_ ?_
  · intro n hn
    rw [hTrail, List.length_append, List.length_singleton] at hn
    rw [hTrail, List.take_append_of_le_length (by omega), isDirectoryAt_iff, write,
      entry?_put_of_ne_nil hNe, if_neg]
    · refine entry?_makeAll_of_some ?_ _
      cases n with
      | zero => rfl
      | succ n =>
        rw [← isDirectoryAt_iff, ← Path.trailOf_eq_names hPath hDown]
        refine isDirectoryAt_makeDirectory? hMade ?_
        rw [Path.trailOf_eq_names hPath hDown]
        omega
    · intro hSame
      have hLength := congrArg List.length hSame
      rw [Path.trailOf_eq_names hAbsolute hGoesDown, hTrail, List.length_take, List.length_append,
        List.length_singleton] at hLength
      omega
  · rw [write, entry?_put_of_ne_nil hNe, Path.trailOf_eq_names hAbsolute hGoesDown, if_pos rfl]

end Disk

end PhoenixLens
