import PhoenixLens.Project.SourceFilter
import PhoenixLens.Proofs.Text.Basic

/-!
# Paths below a directory

A path that is written by joining names to a directory, one after the other: its pieces, its
segments, and what is left of it when it is seen from that directory.
-/

namespace PhoenixLens

namespace Path

/-- The name can stand in a directory: it is not empty, neither `.` nor `..`, and has no slash. -/
def IsEntryName (name : String) : Prop :=
  isIdle name.toList = false ∧ name.toList ≠ ['.', '.'] ∧ '/' ∉ name.toList

instance (name : String) : Decidable (IsEntryName name) :=
  inferInstanceAs (Decidable (_ ∧ _ ∧ _))

/-- The path of names joined to a directory, the innermost last. -/
def below (root : Path) (names : List String) : Path := names.foldl join root

def ofNames (names : List String) : Path :=
  ⟨String.ofList (Text.join ['/'] (names.map String.toList))⟩

@[simp] theorem below_nil (root : Path) : root.below [] = root := rfl

theorem below_concat (root : Path) (names : List String) (name : String) :
    root.below (names ++ [name]) = (root.below names).join name := List.foldl_concat ..

namespace IsEntryName

variable {name : String}

theorem ne_nil (h : IsEntryName name) : name.toList ≠ [] := by
  intro hNil
  have hIdle := h.1
  rw [hNil] at hIdle
  cases hIdle

theorem startsWith_slash (h : IsEntryName name) : Text.startsWith "/" name.toList = false := by
  obtain ⟨c, rest, hName⟩ := List.exists_cons_of_ne_nil h.ne_nil
  have hSlash : '/' ≠ c := by
    rintro rfl
    exact h.2.2 (hName ▸ List.mem_cons_self)
  have hHead : ('/' == c) = false := by simpa using hSlash
  have hText : "/".toList = ['/'] := rfl
  rw [Text.startsWith, hText, hName, List.isPrefixOf, hHead, Bool.false_and]

theorem ofPiece (h : IsEntryName name) : Segment.ofPiece name.toList = .name name := by
  rw [Segment.ofPiece, if_neg (by simpa using h.2.1), String.ofList_toList]

end IsEntryName

theorem isIdle_of_mem {names : List String} (hNames : ∀ n ∈ names, IsEntryName n) :
    ∀ p ∈ names.map String.toList, isIdle p = false := by
  intro p hp
  obtain ⟨n, hn, rfl⟩ := List.mem_map.mp hp
  exact (hNames n hn).1

/-! ### Pieces -/

/-- The pieces of a path without the empty one behind a slash at the end. -/
def openPieces (path : Path) : List (List Char) :=
  if Text.endsWith "/" path.text.toList then (Text.splitAt '/' path.text.toList).dropLast
  else Text.splitAt '/' path.text.toList

theorem splitAt_eq_openPieces (path : Path) :
    ∃ idle, (∀ piece ∈ idle, isIdle piece = true) ∧
      Text.splitAt '/' path.text.toList = path.openPieces ++ idle := by
  rw [openPieces]
  split
  · rename_i hSlash
    obtain ⟨before, hText⟩ := Text.endsWith_iff.mp hSlash
    have hSplit : Text.splitAt '/' path.text.toList = Text.splitAt '/' before ++ [[]] := by
      rw [← hText]
      exact Text.splitAt_append_cons '/' before []
    refine ⟨[[]], ?_, ?_⟩
    · intro piece hPiece
      rw [List.mem_singleton.mp hPiece]
      rfl
    · rw [hSplit, List.dropLast_concat]
  · exact ⟨[], nofun, (List.append_nil _).symm⟩

theorem text_ne_empty {path : Path} (h : path.isAbsolute = true) : path.text.isEmpty = false := by
  cases hEmpty : path.text.isEmpty with
  | false => rfl
  | true =>
    rw [isAbsolute, String.isEmpty_iff.mp hEmpty] at h
    cases h

theorem splitAt_join {path : Path} {name : String} (hPath : path.isAbsolute = true)
    (hName : IsEntryName name) :
    Text.splitAt '/' (path.join name).text.toList = path.openPieces ++ [name.toList] := by
  have hOwn := Text.splitAt_of_not_mem hName.2.2
  rw [join, hName.startsWith_slash, text_ne_empty hPath, openPieces]
  simp only [Bool.false_eq_true, if_false, Bool.false_or]
  split
  · rename_i hSlash
    obtain ⟨before, hText⟩ := Text.endsWith_iff.mp hSlash
    have hSlashes : "/".toList = ['/'] := rfl
    rw [String.toList_append, ← hText, hSlashes, List.append_assoc, List.singleton_append,
      Text.splitAt_append_cons, Text.splitAt_append_cons, hOwn]
    simp [Text.splitAt]
  · have hSlashes : "/".toList = ['/'] := rfl
    rw [String.toList_append, String.toList_append, hSlashes, List.append_assoc,
      List.singleton_append, Text.splitAt_append_cons, hOwn]

theorem isAbsolute_join {path : Path} {name : String} (hPath : path.isAbsolute = true)
    (hName : IsEntryName name) : (path.join name).isAbsolute = true := by
  rw [isAbsolute, Text.startsWith, List.isPrefixOf_iff_prefix] at hPath ⊢
  rw [join, hName.startsWith_slash]
  simp only [Bool.false_eq_true, if_false]
  split
  · rw [String.toList_append]
    exact hPath.trans (List.prefix_append _ _)
  · rw [String.toList_append, String.toList_append, List.append_assoc]
    exact hPath.trans (List.prefix_append _ _)

theorem openPieces_join {path : Path} {name : String} (hPath : path.isAbsolute = true)
    (hName : IsEntryName name) :
    (path.join name).openPieces = path.openPieces ++ [name.toList] := by
  obtain ⟨idle, hIdle, hSplit⟩ := splitAt_eq_openPieces (path.join name)
  rw [splitAt_join hPath hName] at hSplit
  rcases List.eq_nil_or_concat idle with rfl | ⟨front, piece, rfl⟩
  · rw [List.append_nil] at hSplit
    exact hSplit.symm
  · rw [List.concat_eq_append, ← List.append_assoc] at hSplit
    have hLast := (List.append_inj' hSplit rfl).2
    have hPiece := hIdle piece (by simp)
    rw [← List.singleton_inj.mp hLast, hName.1] at hPiece
    cases hPiece

section Below

variable {root : Path} {names : List String}

theorem isAbsolute_below (hRoot : root.isAbsolute = true) (hNames : ∀ n ∈ names, IsEntryName n) :
    (root.below names).isAbsolute = true := by
  induction names using List.reverseRecOn with
  | nil => exact hRoot
  | append_singleton names name ih =>
    rw [below_concat]
    exact isAbsolute_join (ih fun n hn => hNames n (List.mem_append_left _ hn))
      (hNames name List.mem_concat_self)

theorem openPieces_below (hRoot : root.isAbsolute = true) (hNames : ∀ n ∈ names, IsEntryName n) :
    (root.below names).openPieces = root.openPieces ++ names.map String.toList := by
  induction names using List.reverseRecOn with
  | nil => exact (List.append_nil _).symm
  | append_singleton names name ih =>
    have hFront : ∀ n ∈ names, IsEntryName n := fun n hn => hNames n (List.mem_append_left _ hn)
    rw [below_concat, openPieces_join (isAbsolute_below hRoot hFront)
      (hNames name List.mem_concat_self), ih hFront]
    simp

theorem splitAt_below (hRoot : root.isAbsolute = true) (hNames : ∀ n ∈ names, IsEntryName n)
    (hNe : names ≠ []) :
    Text.splitAt '/' (root.below names).text.toList =
      root.openPieces ++ names.map String.toList := by
  induction names using List.reverseRecOn with
  | nil => exact absurd rfl hNe
  | append_singleton names name _ =>
    have hFront : ∀ n ∈ names, IsEntryName n := fun n hn => hNames n (List.mem_append_left _ hn)
    rw [below_concat, splitAt_join (isAbsolute_below hRoot hFront)
      (hNames name List.mem_concat_self), openPieces_below hRoot hFront]
    simp

end Below

/-! ### Segments -/

/-- The segments of an absolute path are those of its pieces that lead somewhere. -/
theorem segments_of_isAbsolute {path : Path} (h : path.isAbsolute = true) :
    path.segments =
      .root :: (path.openPieces.filter fun p => !isIdle p).map Segment.ofPiece := by
  obtain ⟨idle, hIdle, hSplit⟩ := splitAt_eq_openPieces path
  have hNone : idle.filter (fun p => !isIdle p) = [] := by
    rw [List.filter_eq_nil_iff]
    intro piece hPiece
    simp [hIdle piece hPiece]
  have hSame : (fun p : List Char => !p.isEmpty && p != ['.']) = fun p => !isIdle p := by
    funext p
    simp [isIdle, bne]
  rw [segments, if_pos h, hSplit, hSame, List.filter_append, hNone, List.append_nil]

theorem segments_below {root : Path} {names : List String} (hRoot : root.isAbsolute = true)
    (hNames : ∀ n ∈ names, IsEntryName n) :
    (root.below names).segments = root.segments ++ names.map Segment.name := by
  have hKept : (names.map String.toList).filter (fun p => !isIdle p) = names.map String.toList := by
    rw [List.filter_eq_self]
    intro piece hPiece
    rw [isIdle_of_mem hNames piece hPiece]
    rfl
  have hSegments : (names.map String.toList).map Segment.ofPiece = names.map Segment.name := by
    rw [List.map_map, List.map_inj_left]
    exact fun n hn => (hNames n hn).ofPiece
  rw [segments_of_isAbsolute (isAbsolute_below hRoot hNames), segments_of_isAbsolute hRoot,
    openPieces_below hRoot hNames, List.filter_append, hKept, List.map_append, hSegments,
    List.cons_append]

/-- The path never goes up. -/
def GoesDown (path : Path) : Prop := Segment.up ∉ path.segments

instance (path : Path) : Decidable path.GoesDown := inferInstanceAs (Decidable (_ ∉ _))

theorem segments_of_goesDown {path : Path} (hPath : path.isAbsolute = true) (h : path.GoesDown) :
    path.segments = .root :: path.names.map .name := by
  have hSegments := segments_of_isAbsolute hPath
  rw [GoesDown, hSegments, List.mem_cons, not_or] at h
  have hNames : (path.openPieces.filter fun p => !isIdle p).map Segment.ofPiece =
      ((path.openPieces.filter fun p => !isIdle p).map String.ofList).map .name := by
    rw [List.map_map, List.map_inj_left]
    intro piece hPiece
    refine if_neg fun hUp => h.2 (List.mem_map.mpr ⟨piece, hPiece, ?_⟩)
    rw [Segment.ofPiece, if_pos hUp]
  have hRead : path.names =
      (path.openPieces.filter fun p => !isIdle p).map String.ofList := by
    rw [Path.names, hSegments, hNames, List.filterMap_cons, List.filterMap_map]
    exact List.filterMap_some
  rw [hRead, hSegments, hNames]

/-! ### Seen from a directory -/

theorem dropPieces_append (front rest : List (List Char)) :
    dropPieces (front.filter fun p => !isIdle p).length (front ++ rest) = dropPieces 0 rest := by
  induction front with
  | nil => rfl
  | cons piece front ih =>
    cases hIdle : isIdle piece with
    | true =>
      rw [List.filter_cons_of_neg (by simp [hIdle]), List.cons_append, dropPieces.eq_def]
      simpa [hIdle] using ih
    | false =>
      rw [List.filter_cons_of_pos (by simp [hIdle]), List.cons_append, List.length_cons,
        dropPieces.eq_def]
      simpa [hIdle] using ih

theorem dropIdleEnd_eq_self {pieces : List (List Char)} (h : ∀ p ∈ pieces, isIdle p = false) :
    dropIdleEnd pieces = pieces := by
  rw [dropIdleEnd]
  cases hReverse : pieces.reverse with
  | nil => rw [List.reverse_eq_nil_iff.mp hReverse]; rfl
  | cons last front =>
    have hLast : isIdle last = false := h last (by
      rw [← List.mem_reverse, hReverse]
      exact List.mem_cons_self)
    rw [List.dropWhile_cons_of_neg (by simp [hLast]), ← hReverse, List.reverse_reverse]

theorem splitAt_of_isAbsolute {path : Path} (h : path.isAbsolute = true) :
    ∃ inner, Text.splitAt '/' path.text.toList = [] :: Text.splitAt '/' inner := by
  rw [isAbsolute, Text.startsWith, List.isPrefixOf_iff_prefix] at h
  obtain ⟨inner, hText⟩ := h
  refine ⟨inner, ?_⟩
  rw [← hText]
  rfl

theorem pieces_eq_tail {path : Path} (h : path.isAbsolute = true) :
    path.pieces = (Text.splitAt '/' path.text.toList).tail := by
  obtain ⟨inner, hSplit⟩ := splitAt_of_isAbsolute h
  rw [pieces, hSplit]
  rfl

/-- The piece before the slash that an absolute path begins with is empty. -/
theorem openPieces_eq_cons {path : Path} (h : path.isAbsolute = true) :
    path.openPieces = [] :: path.openPieces.tail := by
  obtain ⟨inner, hSplit⟩ := splitAt_of_isAbsolute h
  rw [openPieces, hSplit]
  split
  · rw [List.dropLast_cons_of_ne_nil (Text.splitAt_ne_nil '/' inner), List.tail_cons]
  · rfl

theorem pieces_below {root : Path} {names : List String} (hRoot : root.isAbsolute = true)
    (hNames : ∀ n ∈ names, IsEntryName n) (hNe : names ≠ []) :
    (root.below names).pieces = root.openPieces.tail ++ names.map String.toList := by
  rw [pieces_eq_tail (isAbsolute_below hRoot hNames), splitAt_below hRoot hNames hNe,
    openPieces_eq_cons hRoot]
  rfl

theorem length_segments {path : Path} (h : path.isAbsolute = true) :
    (path.segments.filter fun s => s != .root && s != .here).length =
      (path.openPieces.tail.filter fun p => !isIdle p).length := by
  have hKept : ∀ s ∈ (path.openPieces.tail.filter fun p => !isIdle p).map Segment.ofPiece,
      (s != .root && s != .here) = true := by
    intro s hs
    obtain ⟨piece, -, rfl⟩ := List.mem_map.mp hs
    rw [Segment.ofPiece]
    split <;> rfl
  rw [segments_of_isAbsolute h, openPieces_eq_cons h, List.filter_cons_of_neg (by decide),
    List.filter_cons_of_neg (by decide), List.filter_eq_self.mpr hKept, List.length_map,
    List.tail_cons]

/-- What is below a directory is, seen from there, the path of the names that were joined to it. -/
theorem relativeTo?_below {root : Path} {names : List String} (hRoot : root.isAbsolute = true)
    (hNames : ∀ n ∈ names, IsEntryName n) (hNe : names ≠ []) :
    (root.below names).relativeTo? root = some (ofNames names) := by
  have hPrefix : root.segments.isPrefixOf (root.below names).segments = true := by
    rw [segments_below hRoot hNames, List.isPrefixOf_iff_prefix]
    exact List.prefix_append _ _
  have hSome : root.segments.isEmpty = false := by
    rw [segments_of_isAbsolute hRoot]
    rfl
  have hFirst : dropPieces 0 (names.map String.toList) = names.map String.toList := by
    obtain ⟨first, rest, rfl⟩ := List.exists_cons_of_ne_nil hNe
    rw [List.map_cons, dropPieces.eq_def]
    simp [(hNames first List.mem_cons_self).1]
  rw [relativeTo?, if_pos hPrefix, hSome, pieces_below hRoot hNames hNe, length_segments hRoot]
  simp only [Bool.false_eq_true, if_false]
  rw [dropPieces_append, hFirst, dropIdleEnd_eq_self (isIdle_of_mem hNames), ofNames]

/-! ### Relative paths -/

section OfNames

variable {names : List String}

theorem splitAt_ofNames (hNames : ∀ n ∈ names, IsEntryName n) (hNe : names ≠ []) :
    Text.splitAt '/' (ofNames names).text.toList = names.map String.toList := by
  rw [ofNames, String.toList_ofList]
  refine Text.splitAt_join ?_ ?_
  · simpa using hNe
  · intro piece hPiece
    obtain ⟨n, hn, rfl⟩ := List.mem_map.mp hPiece
    exact (hNames n hn).2.2

theorem isAbsolute_ofNames (hNames : ∀ n ∈ names, IsEntryName n) :
    (ofNames names).isAbsolute = false := by
  cases names with
  | nil => rfl
  | cons first rest =>
    have hFirst := hNames first List.mem_cons_self
    cases hAbsolute : (ofNames (first :: rest)).isAbsolute with
    | false => rfl
    | true =>
      obtain ⟨inner, hSplit⟩ := splitAt_of_isAbsolute hAbsolute
      rw [splitAt_ofNames hNames (List.cons_ne_nil _ _), List.map_cons, List.cons.injEq] at hSplit
      exact absurd hSplit.1 hFirst.ne_nil

theorem segments_ofNames (hNames : ∀ n ∈ names, IsEntryName n) :
    (ofNames names).segments = names.map Segment.name := by
  cases names with
  | nil => rfl
  | cons first rest =>
    have hSplit := splitAt_ofNames hNames (List.cons_ne_nil _ _)
    have hKept : ((first :: rest).map String.toList).filter
        (fun p => !p.isEmpty && p != ['.']) = (first :: rest).map String.toList := by
      rw [List.filter_eq_self]
      intro p hp
      have hIdle := isIdle_of_mem hNames p hp
      rw [isIdle, Bool.or_eq_false_iff] at hIdle
      simp [hIdle.1, bne, hIdle.2]
    have hNotHere : first.toList ≠ ['.'] := by
      intro hDot
      have hIdle := (hNames first List.mem_cons_self).1
      rw [hDot] at hIdle
      cases hIdle
    have hSegments : ((first :: rest).map String.toList).map Segment.ofPiece =
        (first :: rest).map Segment.name := by
      rw [List.map_map, List.map_inj_left]
      exact fun n hn => (hNames n hn).ofPiece
    rw [segments, hSplit, hKept, hSegments, isAbsolute_ofNames hNames]
    simp [hNotHere]

theorem names_ofNames (hNames : ∀ n ∈ names, IsEntryName n) : (ofNames names).names = names := by
  rw [Path.names, segments_ofNames hNames, List.filterMap_map]
  exact List.filterMap_some

theorem pieces_ofNames (hNames : ∀ n ∈ names, IsEntryName n) (hNe : names ≠ []) :
    (ofNames names).pieces = names.map String.toList := by
  obtain ⟨first, rest, rfl⟩ := List.exists_cons_of_ne_nil hNe
  rw [pieces, splitAt_ofNames hNames hNe, List.map_cons]
  simp [(hNames first List.mem_cons_self).1]

theorem lead_ofNames (hNames : ∀ n ∈ names, IsEntryName n) : (ofNames names).lead = [] := by
  rw [lead, isAbsolute_ofNames hNames, segments_ofNames hNames]
  cases names <;> simp

theorem parent?_ofNames {name : String} (hNames : ∀ n ∈ names ++ [name], IsEntryName n) :
    (ofNames (names ++ [name])).parent? = some (ofNames names) := by
  have hNe : names ++ [name] ≠ [] := by simp
  have hFront : ∀ n ∈ names, IsEntryName n := fun n hn => hNames n (List.mem_append_left _ hn)
  have hPieces : dropIdleEnd (ofNames (names ++ [name])).pieces =
      names.map String.toList ++ [name.toList] := by
    rw [pieces_ofNames hNames hNe, dropIdleEnd_eq_self (isIdle_of_mem hNames), List.map_append]
    rfl
  rw [parent?, lead_ofNames hNames, hPieces]
  cases names with
  | nil => rfl
  | cons first rest =>
    simp only [List.map_cons, List.cons_append]
    rw [← List.cons_append, List.dropLast_concat, ← List.map_cons,
      dropIdleEnd_eq_self (isIdle_of_mem hFront)]
    rfl

end OfNames

end Path

end PhoenixLens
