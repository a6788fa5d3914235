import PhoenixLens.Proofs.Markup.LooseTag
import PhoenixLens.Routing.Match

/-!
# Routes that admit a path

A path is looked up among routes in two steps. The first route whose path has the same normal form
is found, or else the first one whose segments admit those of the normal form.

Interpolations are replaced from left to right, and what one of them becomes depends neither on
where it stands nor on what follows it. So a path that puts values in place of the parameters of a
route has, in its normal form, the segments with their interpolations replaced, and is admitted by
the route, whatever stands in its interpolations, in its query or in its fragment.
-/

namespace PhoenixLens.Routing

section

open Elixir (Quoting isOpening isClosing)
open Markup (expressionEnd? expressionEnd?_go_append)

variable {text front rest value : List Char} {resume pos : Nat}

/-! ### Offsets -/

/-- Where an expression ends is told from where it begins. -/
theorem expressionEnd?_go_add (state : Quoting) (depth pos shift : Nat) (cs : List Char) :
    expressionEnd?.go state depth (pos + shift) cs =
      (expressionEnd?.go state depth pos cs).map (· + shift) := by
  induction cs generalizing state depth pos with
  | nil => cases state <;> rfl
  | cons c cs ih =>
    have hNext : pos + shift + c.utf8Size = pos + c.utf8Size + shift := by omega
    cases state with
    | quoted quote escaped =>
      simp only [expressionEnd?.go, hNext]
      exact ih _ _ _
    | code =>
      simp only [expressionEnd?.go, hNext, ih]
      split
      · rfl
      · split
        · split <;> rfl
        · rfl

theorem replace_go_add (resume pos shift : Nat) (cs : List Char) :
    replaceInterpolations.go (resume + shift) (pos + shift) cs =
      replaceInterpolations.go resume pos cs := by
  induction cs generalizing resume pos with
  | nil => rfl
  | cons c cs ih =>
    have hNext : pos + shift + c.utf8Size = pos + c.utf8Size + shift := by omega
    have hEnd : expressionEnd? (pos + c.utf8Size + shift) cs =
        (expressionEnd? (pos + c.utf8Size) cs).map (· + shift) := expressionEnd?_go_add _ _ _ _ _
    simp only [replaceInterpolations.go, hNext, hEnd, ih, Nat.add_lt_add_iff_right]
    cases expressionEnd? (pos + c.utf8Size) cs with
    | none => rfl
    | some stop => simp only [Option.map_some, ih]

theorem replace_go_of_le {other : Nat} (h : resume ≤ pos) (hOther : other ≤ pos) (cs : List Char) :
    replaceInterpolations.go resume pos cs = replaceInterpolations.go other pos cs := by
  induction cs generalizing pos with
  | nil => rfl
  | cons c cs ih =>
    have hNext : resume ≤ pos + c.utf8Size ∧ other ≤ pos + c.utf8Size := by omega
    rw [replaceInterpolations.go, replaceInterpolations.go, if_neg (Nat.not_lt.mpr h),
      if_neg (Nat.not_lt.mpr hOther), ih hNext.1 hNext.2]

theorem replace_go_eq (h : resume ≤ pos) (cs : List Char) :
    replaceInterpolations.go resume pos cs = replaceInterpolations cs := by
  have hShift := replace_go_add 0 0 pos cs
  rw [Nat.zero_add] at hShift
  rw [replace_go_of_le h (Nat.le_refl pos), hShift, replaceInterpolations]

theorem replace_go_skip (h : pos + Text.byteLength front ≤ resume) (rest : List Char) :
    replaceInterpolations.go resume pos (front ++ rest) =
      replaceInterpolations.go resume (pos + Text.byteLength front) rest := by
  induction front generalizing pos with
  | nil => rfl
  | cons c front ih =>
    have hSize := c.utf8Size_pos
    rw [Text.byteLength_cons, ← Nat.add_assoc] at h ⊢
    rw [List.cons_append, replaceInterpolations.go, if_pos (by omega), ih h]

/-! ### Interpolations -/

/-- The braces of an interpolation and what stands between them: they close where the text ends. -/
def IsInterpolation (value : List Char) : Prop :=
  value.head? = some '{' ∧ expressionEnd? 0 value = some (Text.byteLength value)

instance (value : List Char) : Decidable (IsInterpolation value) :=
  inferInstanceAs (Decidable (_ ∧ _))

@[simp] theorem replaceInterpolations_nil : replaceInterpolations [] = [] := rfl

theorem replaceInterpolations_cons {c : Char} (h : c = '#' → rest.head? ≠ some '{') :
    replaceInterpolations (c :: rest) = c :: replaceInterpolations rest := by
  have hNot : ¬(c == '#' && rest.head? == some '{') = true := by simpa using h
  rw [replaceInterpolations, replaceInterpolations.go, if_neg (Nat.lt_irrefl 0), if_neg hNot,
    replace_go_eq (Nat.zero_le _)]

theorem replaceInterpolations_cons_of_ne {c : Char} (h : c ≠ '#') (rest : List Char) :
    replaceInterpolations (c :: rest) = c :: replaceInterpolations rest :=
  replaceInterpolations_cons fun hc => absurd hc h

theorem expressionEnd?_interpolation (h : IsInterpolation value) (pos : Nat) (rest : List Char) :
    expressionEnd? pos (value ++ rest) = some (pos + Text.byteLength value) := by
  have hEnd := expressionEnd?_go_append h.2 pos rest
  rwa [Nat.zero_add, Nat.add_comm (Text.byteLength value)] at hEnd

theorem replaceInterpolations_interpolation (h : IsInterpolation value) (rest : List Char) :
    replaceInterpolations ('#' :: (value ++ rest)) = ':' :: '_' :: replaceInterpolations rest := by
  have hHead : (value ++ rest).head? = some '{' := by
    rw [List.head?_append, h.1, Option.some_or]
  rw [replaceInterpolations, replaceInterpolations.go, if_neg (Nat.lt_irrefl 0),
    if_pos (by simp [hHead])]
  simp only [expressionEnd?_interpolation h]
  rw [replace_go_skip (Nat.le_refl _), replace_go_eq (Nat.le_refl _)]

/-- An interpolation that is not closed takes the rest of the path. -/
theorem replaceInterpolations_open (hHead : value.head? = some '{')
    (h : expressionEnd? 0 value = none) : replaceInterpolations ('#' :: value) = [':', '_'] := by
  have hEnd : expressionEnd? (0 + '#'.utf8Size) value = none := by
    rw [expressionEnd?, expressionEnd?_go_add, ← expressionEnd?, h, Option.map_none]
  rw [replaceInterpolations, replaceInterpolations.go, if_neg (Nat.lt_irrefl 0),
    if_pos (by simp [hHead])]
  simp only [hEnd]

theorem replaceInterpolations_of_not_mem (h : '#' ∉ text) : replaceInterpolations text = text := by
  induction text with
  | nil => rfl
  | cons c text ih =>
    rw [replaceInterpolations_cons_of_ne (List.ne_of_not_mem_cons h).symm,
      ih (List.not_mem_of_not_mem_cons h)]

/-! ### Whole texts -/

/-- No interpolation reaches out of the text, whatever follows it. -/
def IsWhole (text : List Char) : Prop :=
  ∀ rest, replaceInterpolations (text ++ rest) =
    replaceInterpolations text ++ replaceInterpolations rest

namespace IsWhole

theorem nil : IsWhole [] := fun _ => rfl

theorem cons {c : Char} (hHash : c ≠ '#') (h : IsWhole text) : IsWhole (c :: text) := by
  intro rest
  rw [List.cons_append, replaceInterpolations_cons_of_ne hHash,
    replaceInterpolations_cons_of_ne hHash, h rest, List.cons_append]

theorem of_not_mem (h : '#' ∉ text) : IsWhole text := by
  induction text with
  | nil => exact nil
  | cons c text ih =>
    exact cons (List.ne_of_not_mem_cons h).symm (ih (List.not_mem_of_not_mem_cons h))

theorem interpolation (hValue : IsInterpolation value) (h : IsWhole text) :
    IsWhole ('#' :: (value ++ text)) := by
  intro rest
  rw [List.cons_append, List.append_assoc, replaceInterpolations_interpolation hValue,
    replaceInterpolations_interpolation hValue, h rest]
  rfl

theorem append (h : IsWhole text) (hRest : IsWhole rest) : IsWhole (text ++ rest) := by
  intro more
  rw [List.append_assoc, h, hRest, h, List.append_assoc]

theorem join {segments : List (List Char)} (h : ∀ segment ∈ segments, IsWhole segment) :
    IsWhole (Text.join ['/'] segments) ∧
      replaceInterpolations (Text.join ['/'] segments) =
        Text.join ['/'] (segments.map replaceInterpolations) := by
  induction segments with
  | nil => exact ⟨nil, rfl⟩
  | cons segment segments ih =>
    obtain ⟨hFirst, hMore⟩ := List.forall_mem_cons.mp h
    cases segments with
    | nil =>
      rw [List.map_singleton, Text.join_singleton, Text.join_singleton]
      exact ⟨hFirst, rfl⟩
    | cons next segments =>
      obtain ⟨hWhole, hText⟩ := ih hMore
      have hSlash : IsWhole ('/' :: Text.join ['/'] (next :: segments)) :=
        cons (by decide) hWhole
      rw [Text.join_cons _ _ (List.cons_ne_nil _ _), List.append_assoc, List.singleton_append]
      refine ⟨hFirst.append hSlash, ?_⟩
      have hNe : (next :: segments).map replaceInterpolations ≠ [] := List.cons_ne_nil _ _
      have hJoined := Text.join_cons ['/'] (replaceInterpolations segment) hNe
      rw [hFirst, replaceInterpolations_cons_of_ne (by decide), hText]
      exact (List.append_assoc _ _ _).symm.trans hJoined.symm

end IsWhole

/-! ### Segments of normal forms -/

theorem segments_append_slash (front rest : List Char) :
    segments (front ++ '/' :: rest) = segments front ++ segments rest := by
  rw [segments, Text.splitAt_append_cons, List.filter_append, segments, segments]

theorem segments_append_slashes {slashes : List Char} (h : ∀ c ∈ slashes, c = '/')
    (front : List Char) : segments (front ++ slashes) = segments front := by
  induction slashes generalizing front with
  | nil => rw [List.append_nil]
  | cons c slashes ih =>
    obtain ⟨rfl, hMore⟩ := List.forall_mem_cons.mp h
    have hNone := ih hMore []
    rw [List.nil_append] at hNone
    rw [segments_append_slash, hNone]
    exact List.append_nil _

/-- The segments of a normal form are those before the query and the fragment. -/
theorem segments_normalizePath (path : List Char) :
    segments (normalizePath path) =
      segments ((replaceInterpolations path).takeWhile fun c => c != '?' && c != '#') := by
  generalize hPlain : (replaceInterpolations path).takeWhile (fun c => c != '?' && c != '#') = plain
  obtain ⟨slashes, hSlashes, hText⟩ := Text.exists_dropEndWhile_append (· == '/') plain
  have hAll : ∀ c ∈ slashes, c = '/' := fun c hc => by simpa using hSlashes c hc
  have hDropped : segments plain = segments (Text.dropEndWhile (· == '/') plain) :=
    (congrArg segments hText).trans (segments_append_slashes hAll _)
  rw [hDropped, normalizePath, hPlain]
  split
  · rename_i hEmpty
    rw [hEmpty]
    rfl
  · rfl

theorem segments_join {pieces : List (List Char)} (h : ∀ piece ∈ pieces, '/' ∉ piece) :
    segments (Text.join ['/'] pieces) = pieces.filter (!·.isEmpty) := by
  cases pieces with
  | nil => rfl
  | cons piece pieces => rw [segments, Text.splitAt_join (List.cons_ne_nil _ _) h]

end

/-! ### Segments that are admitted -/

/-- The segments of a route admit those of a normal form, one after the other. -/
inductive AdmitsSegments : List (List Char) → List (List Char) → Prop where
  | done : AdmitsSegments [] []
  /-- A parameter stands for any segment. -/
  | parameter (name actual : List Char) {pattern path : List (List Char)}
      (hRest : AdmitsSegments pattern path) :
      AdmitsSegments ((':' :: name) :: pattern) (actual :: path)
  /-- A normal form leaves a segment open as well: an interpolation is `:_` in it, which is written
  like a parameter. -/
  | open (expected name : List Char) {pattern path : List (List Char)}
      (hRest : AdmitsSegments pattern path) :
      AdmitsSegments (expected :: pattern) ((':' :: name) :: path)
  | same (segment : List Char) {pattern path : List (List Char)}
      (hRest : AdmitsSegments pattern path) :
      AdmitsSegments (segment :: pattern) (segment :: path)
  /-- A star stands for all segments that are left, be there none. -/
  | glob (name : List Char) (pattern path : List (List Char)) :
      AdmitsSegments (('*' :: name) :: pattern) path

theorem isParameter_iff {segment : List Char} :
    isParameter segment = true ↔ ∃ name, segment = ':' :: name := by
  rw [isParameter, beq_iff_eq, List.head?_eq_some_iff]

theorem isGlobSegment_iff {segment : List Char} :
    isGlobSegment segment = true ↔ ∃ name, segment = '*' :: name := by
  rw [isGlobSegment, beq_iff_eq, List.head?_eq_some_iff]

theorem admitsSegments_of_segmentsMatch {pattern path : List (List Char)}
    (h : segmentsMatch pattern path = true) : AdmitsSegments pattern path := by
  induction pattern generalizing path with
  | nil =>
    rw [List.isEmpty_iff.mp h]
    exact .done
  | cons expected pattern ih =>
    by_cases hGlob : isGlobSegment expected = true
    · obtain ⟨name, rfl⟩ := isGlobSegment_iff.mp hGlob
      exact .glob name pattern path
    · cases path with
      | nil => simp [segmentsMatch, hGlob] at h
      | cons actual path =>
        rw [segmentsMatch, if_neg hGlob] at h
        simp only [Bool.and_eq_true, Bool.or_eq_true, beq_iff_eq] at h
        obtain ⟨(hParameter | hOpen) | rfl, hRest⟩ := h
        · obtain ⟨name, rfl⟩ := isParameter_iff.mp hParameter
          exact .parameter name actual (ih hRest)
        · obtain ⟨name, rfl⟩ := isParameter_iff.mp hOpen
          exact .open expected name (ih hRest)
        · exact .same expected (ih hRest)

theorem segmentsMatch_cons {expected actual : List Char} {pattern path : List (List Char)}
    (h : isParameter expected = true ∨ isParameter actual = true ∨ expected = actual)
    (hRest : segmentsMatch pattern path = true) :
    segmentsMatch (expected :: pattern) (actual :: path) = true := by
  have hSegment : (isParameter expected || isParameter actual || expected == actual) = true := by
    simpa [or_assoc] using h
  rw [segmentsMatch]
  split
  · rfl
  · simp only [hSegment, hRest, Bool.and_self]

theorem segmentsMatch_iff {pattern path : List (List Char)} :
    segmentsMatch pattern path = true ↔ AdmitsSegments pattern path := by
  refine ⟨admitsSegments_of_segmentsMatch, fun h => ?_⟩
  induction h with
  | done => rfl
  | parameter name actual _ ih => exact segmentsMatch_cons (.inl rfl) ih
  | «open» expected name _ ih => exact segmentsMatch_cons (.inr (.inl rfl)) ih
  | same segment _ ih => exact segmentsMatch_cons (.inr (.inr rfl)) ih
  | glob name pattern path => rfl

/-! ### Routes -/

variable {routes : List Route} {route : Route} {path : List Char}

/-- The path of the route has the same normal form. -/
def IsWrittenAs (path : List Char) (route : Route) : Prop :=
  normalizePath route.path.toList = normalizePath path

/-- The segments of the route admit those of the normal form of the path. -/
def Admits (path : List Char) (route : Route) : Prop :=
  AdmitsSegments (segments route.path.toList) (segments (normalizePath path))

/-- The first of the routes with a property. -/
def IsFirst (p : Route → Prop) (routes : List Route) (route : Route) : Prop :=
  ∃ before after, routes = before ++ route :: after ∧ p route ∧ ∀ other ∈ before, ¬p other

theorem find?_eq_some_iff {p : Route → Prop} {q : Route → Bool} (h : ∀ r, q r = true ↔ p r) :
    routes.find? q = some route ↔ IsFirst p routes route := by
  have hNot (other : Route) : (!q other) = true ↔ ¬p other := by
    rw [Bool.not_eq_true', ← Bool.not_eq_true, h]
  simp only [List.find?_eq_some_iff_append, h, hNot, IsFirst]
  exact ⟨fun ⟨hRoute, before, after, hRoutes, hBefore⟩ => ⟨before, after, hRoutes, hRoute, hBefore⟩,
    fun ⟨before, after, hRoutes, hRoute, hBefore⟩ => ⟨hRoute, before, after, hRoutes, hBefore⟩⟩

theorem find?_eq_none_iff {p : Route → Prop} {q : Route → Bool} (h : ∀ r, q r = true ↔ p r) :
    routes.find? q = none ↔ ∀ other ∈ routes, ¬p other := by
  simp only [List.find?_eq_none, h]

theorem isWrittenAs_iff (path : List Char) (route : Route) :
    (normalizePath route.path.toList == normalizePath path) = true ↔ IsWrittenAs path route :=
  beq_iff_eq

theorem admits_iff (path : List Char) (route : Route) :
    pathMatches route.path.toList (normalizePath path) = true ↔ Admits path route :=
  segmentsMatch_iff

theorem routeFor?_eq_some_iff :
    routeFor? routes path = some route ↔
      IsFirst (IsWrittenAs path) routes route ∨
        (∀ other ∈ routes, ¬IsWrittenAs path other) ∧ IsFirst (Admits path) routes route := by
  rw [routeFor?, Option.or_eq_some_iff, find?_eq_some_iff (isWrittenAs_iff path),
    find?_eq_none_iff (isWrittenAs_iff path), find?_eq_some_iff (admits_iff path)]

theorem routeFor?_eq_none_iff :
    routeFor? routes path = none ↔
      ∀ other ∈ routes, ¬IsWrittenAs path other ∧ ¬Admits path other := by
  rw [routeFor?, Option.or_eq_none_iff, find?_eq_none_iff (isWrittenAs_iff path),
    find?_eq_none_iff (admits_iff path)]
  exact ⟨fun h other hMem => ⟨h.1 other hMem, h.2 other hMem⟩,
    fun h => ⟨fun other hMem => (h other hMem).1, fun other hMem => (h other hMem).2⟩⟩

/-! ### Values in place of parameters -/

/-- Characters and interpolations, one after the other. -/
inductive IsMixed (literal : Char → Prop) : List Char → Prop where
  | nil : IsMixed literal []
  | literal {c : Char} {rest : List Char} (hLiteral : literal c) (hRest : IsMixed literal rest) :
      IsMixed literal (c :: rest)
  | interpolation {value rest : List Char} (hValue : IsInterpolation value)
      (hRest : IsMixed literal rest) : IsMixed literal ('#' :: (value ++ rest))

/-- The segments of a path that puts values in place of the parameters of a route, given the
segments of the route. -/
inductive IsInstance (literal : Char → Prop) : List (List Char) → List (List Char) → Prop where
  | done : IsInstance literal [] []
  /-- Other segments stand for themselves. -/
  | fixed {segment : List Char} {pattern path : List (List Char)}
      (hFixed : ∀ c ∈ segment, literal c) (hRest : IsInstance literal pattern path) :
      IsInstance literal (segment :: pattern) (segment :: path)
  | parameter {name value : List Char} {pattern path : List (List Char)}
      (hValue : IsMixed literal value) (hNe : value ≠ []) (hRest : IsInstance literal pattern path) :
      IsInstance literal ((':' :: name) :: pattern) (value :: path)
  /-- A star is the last segment of a route. -/
  | glob {name : List Char} {values : List (List Char)}
      (hValues : ∀ value ∈ values, IsMixed literal value ∧ value ≠ []) :
      IsInstance literal [('*' :: name)] values

/-- What may stand in a segment. -/
def IsSegmentChar (c : Char) : Prop := c ≠ '/' ∧ c ≠ '?' ∧ c ≠ '#'

instance (c : Char) : Decidable (IsSegmentChar c) := inferInstanceAs (Decidable (_ ∧ _))

/-- A query, a fragment or nothing. -/
inductive IsEnding : List Char → Prop where
  | nil : IsEnding []
  | query (text : List Char) : IsEnding ('?' :: text)
  | fragment {text : List Char} (h : text.head? ≠ some '{') : IsEnding ('#' :: text)

theorem IsEnding.stops {ending : List Char} (h : IsEnding ending) :
    ∀ c ∈ (replaceInterpolations ending).head?, (c != '?' && c != '#') = false := by
  cases h with
  | nil => nofun
  | query text =>
    rw [replaceInterpolations_cons_of_ne (by decide)]
    rintro c ⟨⟩
    rfl
  | fragment hText =>
    rw [replaceInterpolations_cons fun _ => hText]
    rintro c ⟨⟩
    rfl

section

variable {literal : Char → Prop} (hLiteral : ∀ c, literal c → IsSegmentChar c)
  {value : List Char} {pattern written : List (List Char)}

include hLiteral

theorem IsMixed.isWhole (h : IsMixed literal value) : IsWhole value := by
  induction h with
  | nil => exact .nil
  | literal hChar _ ih => exact .cons (hLiteral _ hChar).2.2 ih
  | interpolation hValue _ ih => exact .interpolation hValue ih

/-- With its interpolations replaced, a value is a segment. -/
theorem IsMixed.replaced (h : IsMixed literal value) :
    (∀ c ∈ replaceInterpolations value, IsSegmentChar c) ∧
      (value ≠ [] → replaceInterpolations value ≠ []) := by
  induction h with
  | nil => exact ⟨nofun, fun hNe => absurd rfl hNe⟩
  | @literal c rest hChar _ ih =>
    rw [replaceInterpolations_cons_of_ne (hLiteral c hChar).2.2]
    exact ⟨List.forall_mem_cons.mpr ⟨hLiteral c hChar, ih.1⟩, fun _ => List.cons_ne_nil _ _⟩
  | interpolation hValue _ ih =>
    have hMark : IsSegmentChar ':' ∧ IsSegmentChar '_' := by decide
    rw [replaceInterpolations_interpolation hValue]
    refine ⟨?_, fun _ => List.cons_ne_nil _ _⟩
    exact List.forall_mem_cons.mpr ⟨hMark.1, List.forall_mem_cons.mpr ⟨hMark.2, ih.1⟩⟩

theorem not_mem_fixed (h : ∀ c ∈ value, literal c) : '#' ∉ value :=
  fun hHash => (hLiteral _ (h _ hHash)).2.2 rfl

theorem IsInstance.forall_segment (h : IsInstance literal pattern written) :
    ∀ segment ∈ written,
      IsWhole segment ∧ ∀ c ∈ replaceInterpolations segment, IsSegmentChar c := by
  induction h with
  | done => nofun
  | fixed hFixed _ ih =>
    have hHash := not_mem_fixed hLiteral hFixed
    refine List.forall_mem_cons.mpr ⟨⟨.of_not_mem hHash, ?_⟩, ih⟩
    rw [replaceInterpolations_of_not_mem hHash]
    exact fun c hc => hLiteral c (hFixed c hc)
  | parameter hValue _ _ ih =>
    exact List.forall_mem_cons.mpr ⟨⟨hValue.isWhole hLiteral, (hValue.replaced hLiteral).1⟩, ih⟩
  | glob hValues =>
    exact fun value hMem =>
      ⟨(hValues value hMem).1.isWhole hLiteral, ((hValues value hMem).1.replaced hLiteral).1⟩

/-- Segments that are empty count on neither side. -/
theorem IsInstance.admits (h : IsInstance literal pattern written) :
    AdmitsSegments (pattern.filter (!·.isEmpty))
      ((written.map replaceInterpolations).filter (!·.isEmpty)) := by
  induction h with
  | done => exact .done
  | @fixed segment pattern path hFixed _ ih =>
    rw [List.map_cons, replaceInterpolations_of_not_mem (not_mem_fixed hLiteral hFixed),
      List.filter_cons, List.filter_cons]
    split
    · exact .same segment ih
    · exact ih
  | @parameter name value pattern path hValue hNe _ ih =>
    have hFull := (hValue.replaced hLiteral).2 hNe
    rw [List.map_cons, List.filter_cons_of_pos rfl, List.filter_cons_of_pos (by simpa using hFull)]
    exact .parameter name _ ih
  | @glob name values hValues =>
    rw [List.filter_cons_of_pos rfl]
    exact .glob name _ _

/-- Slashes at its end, a query and a fragment are not among the segments of a path. -/
theorem IsInstance.segments_normalizePath (h : IsInstance literal pattern written)
    {slashes ending : List Char} (hSlashes : ∀ c ∈ slashes, c = '/') (hEnding : IsEnding ending) :
    segments (normalizePath (Text.join ['/'] written ++ slashes ++ ending)) =
      (written.map replaceInterpolations).filter (!·.isEmpty) := by
  have hSegments := h.forall_segment hLiteral
  obtain ⟨hWhole, hJoined⟩ := IsWhole.join fun segment hMem => (hSegments segment hMem).1
  have hPieces : ∀ piece ∈ written.map replaceInterpolations, ∀ c ∈ piece, IsSegmentChar c :=
    List.forall_mem_map.mpr fun segment hMem => (hSegments segment hMem).2
  have hNoHash : '#' ∉ slashes := fun hMem => by cases hSlashes _ hMem
  have hText : replaceInterpolations (Text.join ['/'] written ++ slashes ++ ending) =
      Text.join ['/'] (written.map replaceInterpolations) ++ slashes ++
        replaceInterpolations ending := by
    rw [hWhole.append (.of_not_mem hNoHash), hWhole, hJoined,
      replaceInterpolations_of_not_mem hNoHash]
  have hBefore : ∀ c ∈ Text.join ['/'] (written.map replaceInterpolations) ++ slashes,
      (c != '?' && c != '#') = true := by
    intro c hc
    rcases List.mem_append.mp hc with hJoin | hSlash
    · rcases Text.mem_join hJoin with hSlash | ⟨piece, hPiece, hChar⟩
      · rw [List.mem_singleton.mp hSlash]
        decide
      · simpa using (hPieces piece hPiece c hChar).2
    · rw [hSlashes c hSlash]
      decide
  rw [Routing.segments_normalizePath, hText, Text.takeWhile_append_of_stop hBefore hEnding.stops,
    segments_append_slashes hSlashes,
    segments_join fun piece hPiece hMem => (hPieces piece hPiece _ hMem).1 rfl]

theorem IsInstance.admits_path {route : Route}
    (h : IsInstance literal (Text.splitAt '/' route.path.toList) written)
    {slashes ending : List Char} (hSlashes : ∀ c ∈ slashes, c = '/') (hEnding : IsEnding ending) :
    Admits (Text.join ['/'] written ++ slashes ++ ending) route := by
  rw [Admits, h.segments_normalizePath hLiteral hSlashes hEnding]
  exact h.admits hLiteral

end

/-- The path puts values in place of the parameters of the route. Slashes may follow, and a query
or a fragment. -/
def Instantiates (path : List Char) (route : Route) : Prop :=
  ∃ written slashes ending, IsInstance IsSegmentChar (Text.splitAt '/' route.path.toList) written ∧
    (∀ c ∈ slashes, c = '/') ∧ IsEnding ending ∧
    path = Text.join ['/'] written ++ slashes ++ ending

theorem Instantiates.admits (h : Instantiates path route) : Admits path route := by
  obtain ⟨written, slashes, ending, hWritten, hSlashes, hEnding, rfl⟩ := h
  exact hWritten.admits_path (fun _ h => h) hSlashes hEnding

/-- Which route is found for a path, and that one is found for every path that puts values in place
of the parameters of a route. -/
theorem routeFor?_first_written_or_admitted (routes : List Route) (path : List Char) :
    (∀ route, routeFor? routes path = some route ↔
      IsFirst (IsWrittenAs path) routes route ∨
        (∀ other ∈ routes, ¬IsWrittenAs path other) ∧ IsFirst (Admits path) routes route) ∧
      (routeFor? routes path = none ↔
        ∀ other ∈ routes, ¬IsWrittenAs path other ∧ ¬Admits path other) ∧
      ∀ route ∈ routes, Instantiates path route →
        Admits path route ∧ ∃ found, routeFor? routes path = some found := by
  refine ⟨fun route => routeFor?_eq_some_iff, routeFor?_eq_none_iff, fun route hMem hPath => ?_⟩
  have hAdmits := hPath.admits
  refine ⟨hAdmits, Option.ne_none_iff_exists'.mp fun hNone => ?_⟩
  exact (routeFor?_eq_none_iff.mp hNone route hMem).2 hAdmits

/-- A value that is partly interpolated, with a slash and a brace in a string of it, and two segments
under a star. -/
theorem routeFor?_first_written_or_admitted_mixed :
    let files : Route :=
      { path := "/users/:id/files/*path", verb := "GET", line := 2, helperBase := "user" }
    let path := "/users/u#\x7bf(\"/\x7d\")\x7d/files/a/#\x7b%\x7bb: 1\x7d\x7d//?tab=#\x7bt\x7d".toList
    Instantiates path files ∧ ∃ found,
      routeFor? [{ path := "/new", verb := "GET", line := 1, helperBase := "new" }, files] path =
        some found := by
  intro files path
  let tail := ["a".toList, "#\x7b%\x7bb: 1\x7d\x7d".toList]
  have hCall : IsInterpolation "\x7bf(\"/\x7d\")\x7d".toList := by decide
  have hMap : IsInterpolation "\x7b%\x7bb: 1\x7d\x7d".toList := by decide
  have hUser : IsMixed IsSegmentChar "u#\x7bf(\"/\x7d\")\x7d".toList :=
    .literal (by decide) (.interpolation hCall .nil)
  have hTail : IsInstance IsSegmentChar ["*path".toList] tail := by
    refine .glob fun value hMem => ?_
    rcases List.mem_pair.mp hMem with rfl | rfl
    · exact ⟨.literal (by decide) .nil, by decide⟩
    · exact ⟨.interpolation hMap .nil, by decide⟩
  have hFiles : IsInstance IsSegmentChar ["files".toList, "*path".toList] ("files".toList :: tail) :=
    .fixed (by decide) hTail
  have hWritten : IsInstance IsSegmentChar (Text.splitAt '/' files.path.toList)
      ([] :: "users".toList :: "u#\x7bf(\"/\x7d\")\x7d".toList :: "files".toList :: tail) := by
    have hPattern : Text.splitAt '/' files.path.toList =
        [[], "users".toList, ":id".toList, "files".toList, "*path".toList] := by decide
    rw [hPattern]
    exact .fixed (List.forall_mem_nil _) (.fixed (by decide) (.parameter hUser (by decide) hFiles))
  have hPath : Instantiates path files :=
    ⟨_, "//".toList, _, hWritten, by decide, .query "tab=#\x7bt\x7d".toList, by decide⟩
  exact ⟨hPath, ((routeFor?_first_written_or_admitted _ path).2.2 files (by simp) hPath).2⟩

end PhoenixLens.Routing
