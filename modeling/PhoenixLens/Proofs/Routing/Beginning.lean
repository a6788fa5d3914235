import PhoenixLens.Proofs.Routing.Admission

/-!
# Paths that are still being written

A path that has been written as far as to any of its characters consists of whole segments and a
beginning of the next one. If it is to become a path of some route, that route admits it already or
begins with its segments, the last of them unfinished. So some route is found at every stage. Among
the routes that begin with what is written, the first of those with the fewest segments is found.
-/

namespace PhoenixLens.Routing

variable {pattern written : List (List Char)} {expected actual cut : List Char}

/-! ### Beginnings of routes -/

/-- One of the two segments leaves open what stands there, or they are the same. -/
def Agrees (expected actual : List Char) : Prop :=
  isParameter expected = true ∨ isGlobSegment expected = true ∨ isParameter actual = true ∨
    expected = actual

/-- The segments of a route begin with those of a path, whose last one may be unfinished. -/
inductive BeginsSegments : List (List Char) → List (List Char) → Prop where
  | last {expected actual : List Char} (h : Agrees expected actual ∨ actual <+: expected)
      (pattern : List (List Char)) : BeginsSegments (expected :: pattern) [actual]
  | next {expected actual : List Char} {pattern path : List (List Char)}
      (h : Agrees expected actual) (hRest : BeginsSegments pattern path) :
      BeginsSegments (expected :: pattern) (actual :: path)

theorem segmentsBegin_nil (lastIsOpen : Bool) (pattern : List (List Char)) :
    segmentsBegin lastIsOpen pattern [] = true := by
  cases pattern <;> rfl

theorem segmentsBegin_singleton :
    segmentsBegin true (expected :: pattern) [actual] = true ↔
      Agrees expected actual ∨ actual <+: expected := by
  rw [segmentsBegin, segmentsBegin_nil]
  simp only [Agrees, List.isEmpty_nil, Bool.and_true, if_true, Bool.or_eq_true,
    List.isPrefixOf_iff_prefix]
  constructor
  · rintro (((hOwn | hGlob) | hOpen) | hPrefix)
    · exact .inl (.inl hOwn)
    · exact .inl (.inr (.inl hGlob))
    · exact .inl (.inr (.inr (.inl hOpen)))
    · exact .inr hPrefix
  · rintro ((hOwn | hGlob | hOpen | rfl) | hPrefix)
    · exact .inl (.inl (.inl hOwn))
    · exact .inl (.inl (.inr hGlob))
    · exact .inl (.inr hOpen)
    · exact .inr (List.prefix_refl _)
    · exact .inr hPrefix

theorem segmentsBegin_cons {next : List Char} {path : List (List Char)} :
    segmentsBegin true (expected :: pattern) (actual :: next :: path) = true ↔
      Agrees expected actual ∧ segmentsBegin true pattern (next :: path) = true := by
  rw [segmentsBegin, Bool.and_eq_true]
  apply and_congr_left
  intro _
  simp only [Agrees, List.isEmpty_cons, Bool.false_and, Bool.false_eq_true, if_false,
    Bool.or_eq_true, beq_iff_eq, or_assoc]

theorem segmentsBegin_iff {path : List (List Char)} (hNe : path ≠ []) :
    segmentsBegin true pattern path = true ↔ BeginsSegments pattern path := by
  constructor
  · intro h
    induction path generalizing pattern with
    | nil => exact absurd rfl hNe
    | cons actual path ih =>
      cases pattern with
      | nil => cases h
      | cons expected pattern =>
        cases path with
        | nil => exact .last (segmentsBegin_singleton.mp h) pattern
        | cons next path =>
          obtain ⟨hAgrees, hRest⟩ := segmentsBegin_cons.mp h
          exact .next hAgrees (ih (List.cons_ne_nil _ _) hRest)
  · intro h
    induction h with
    | last h pattern => exact segmentsBegin_singleton.mpr h
    | @next expected actual pattern path h hRest ih =>
      cases path with
      | nil => cases hRest
      | cons next path => exact segmentsBegin_cons.mpr ⟨h, ih (List.cons_ne_nil _ _)⟩

/-- The segments of the route begin with those of the normal form of the path. -/
def Begins (path : List Char) (route : Route) : Prop :=
  BeginsSegments (segments route.path.toList) (segments (normalizePath path))

theorem getLast?_normalizePath {path : List Char} (h : segments (normalizePath path) ≠ []) :
    (normalizePath path).getLast? ≠ some '/' := by
  revert h
  rw [normalizePath]
  split
  · intro hNe
    exact absurd rfl hNe
  · intro _ hLast
    rw [Text.dropEndWhile, List.getLast?_reverse] at hLast
    have hNot := List.head?_dropWhile_not (· == '/')
      ((replaceInterpolations path).takeWhile fun c => c != '?' && c != '#').reverse
    rw [hLast] at hNot
    exact absurd hNot (by decide)

theorem not_beginsSegments_nil : ¬BeginsSegments pattern [] := nofun

theorem begins_iff (path : List Char) (route : Route) :
    pathBegins route.path.toList (normalizePath path) = true ↔ Begins path route := by
  rw [pathBegins, Bool.and_eq_true, Begins]
  by_cases hNe : segments (normalizePath path) = []
  · rw [hNe]
    exact iff_of_false (fun h => Bool.noConfusion h.1) not_beginsSegments_nil
  · have hOpen : ((normalizePath path).getLast? != some '/') = true := by
      simpa using getLast?_normalizePath hNe
    rw [hOpen, segmentsBegin_iff hNe]
    exact and_iff_right (by simpa using hNe)

/-! ### The shortest route -/

theorem leastBy?_concat {α : Type} (measure : α → Nat) (items : List α) (item : α) :
    leastBy? measure (items ++ [item]) =
      match leastBy? measure items with
      | some best => if measure item < measure best then some item else some best
      | none => some item := by
  rw [leastBy?, List.foldl_concat]
  rfl

theorem find?_least_concat {α : Type} {measure : α → Nat} {items : List α} {item best : α}
    (hBest : items.find? (fun a => items.all fun b => measure a ≤ measure b) = some best) :
    (items ++ [item]).find? (fun a => (items ++ [item]).all fun b => measure a ≤ measure b) =
      if measure item < measure best then some item else some best := by
  have hMin : ∀ b ∈ items, measure best ≤ measure b := by simpa using List.find?_some hBest
  have hMem : best ∈ items := List.mem_of_find?_eq_some hBest
  rw [List.find?_append]
  simp only [List.all_append, List.all_cons, List.all_nil, Bool.and_true]
  split
  · rename_i hLess
    have hNone : items.find? (fun a => (items.all fun b => measure a ≤ measure b) &&
        decide (measure a ≤ measure item)) = none := by
      rw [List.find?_eq_none]
      intro a ha hLeast
      have hOwn := hMin a ha
      simp only [Bool.and_eq_true, decide_eq_true_eq] at hLeast
      omega
    have hAll : ∀ b ∈ items, measure item ≤ measure b := by
      intro b hb
      have hOwn := hMin b hb
      omega
    rw [hNone, Option.none_or, List.find?_cons_of_pos]
    simpa using hAll
  · rename_i hLess
    have hSame : ∀ a ∈ items, ((items.all fun b => measure a ≤ measure b) &&
        decide (measure a ≤ measure item)) = items.all fun b => measure a ≤ measure b := by
      intro a _
      rw [Bool.and_eq_left_iff_imp]
      intro hLeast
      have hOwn : measure a ≤ measure best := by
        simpa using List.all_eq_true.mp hLeast best hMem
      exact decide_eq_true (by omega)
    rw [← List.head?_filter, List.filter_congr hSame, List.head?_filter, hBest, Option.some_or]

theorem leastBy?_eq_none {α : Type} {measure : α → Nat} {items : List α}
    (h : leastBy? measure items = none) : items = [] := by
  induction items using List.reverseRecOn with
  | nil => rfl
  | append_singleton items item =>
    rw [leastBy?_concat] at h
    split at h
    · split at h <;> cases h
    · cases h

/-- The first of the items that no item is less than. -/
theorem leastBy?_eq_find? {α : Type} (measure : α → Nat) (items : List α) :
    leastBy? measure items = items.find? fun a => items.all fun b => measure a ≤ measure b := by
  induction items using List.reverseRecOn with
  | nil => rfl
  | append_singleton items item ih =>
    rw [leastBy?_concat]
    cases hBest : leastBy? measure items with
    | some best => exact (find?_least_concat (ih.symm.trans hBest)).symm
    | none =>
      rw [leastBy?_eq_none hBest]
      simp

/-- No other route that begins with the path has fewer segments. -/
def IsShortest (path : List Char) (routes : List Route) (route : Route) : Prop :=
  Begins path route ∧ ∀ other ∈ routes, Begins path other →
    (segments route.path.toList).length ≤ (segments other.path.toList).length

variable {routes : List Route} {route found : Route} {path typed : List Char}

theorem leastBy?_begins :
    leastBy? (fun r => (segments r.path.toList).length)
        (routes.filter fun r => pathBegins r.path.toList (normalizePath path)) = some found ↔
      IsFirst (IsShortest path routes) routes found := by
  rw [leastBy?_eq_find?, List.find?_filter]
  apply find?_eq_some_iff
  intro r
  simp only [decide_eq_true_eq, List.all_eq_true, List.mem_filter, begins_iff, and_imp,
    IsShortest]

theorem routeForPartial?_eq_some_iff :
    routeForPartial? routes path = some found ↔
      routeFor? routes path = some found ∨
        routeFor? routes path = none ∧ IsFirst (IsShortest path routes) routes found := by
  rw [routeForPartial?, Option.or_eq_some_iff, leastBy?_begins]

theorem routeForPartial?_eq_none (h : routeForPartial? routes path = none) :
    ∀ other ∈ routes, ¬Admits path other ∧ ¬Begins path other := by
  rw [routeForPartial?, Option.or_eq_none_iff] at h
  intro other hMem
  constructor
  · exact (routeFor?_eq_none_iff.mp h.1 other hMem).2
  · intro hBegins
    have hNone := List.filter_eq_nil_iff.mp (leastBy?_eq_none h.2)
    exact hNone other hMem ((begins_iff path other).mpr hBegins)

/-! ### Beginnings of paths -/

/-- The path puts texts in place of the parameters of the route. -/
def Fills (path : List Char) (route : Route) : Prop :=
  ∃ written, IsInstance IsSegmentChar (Text.splitAt '/' route.path.toList) written ∧
    (∀ segment ∈ written, ∀ c ∈ segment, IsSegmentChar c) ∧ path = Text.join ['/'] written

/-- A beginning of a path ends in one of its segments. -/
theorem exists_cut_segment (hNe : written ≠ []) (h : typed <+: Text.join ['/'] written) :
    ∃ front segment more cut, written = front ++ segment :: more ∧ cut <+: segment ∧
      typed = Text.join ['/'] (front ++ [cut]) := by
  induction written generalizing typed with
  | nil => exact absurd rfl hNe
  | cons segment written ih =>
    cases written with
    | nil =>
      rw [Text.join_singleton] at h
      exact ⟨[], segment, [], typed, rfl, h, (Text.join_singleton _ _).symm⟩
    | cons next written =>
      obtain ⟨rest, hText⟩ := h
      rw [Text.join_cons _ _ (List.cons_ne_nil _ _), List.append_assoc, List.singleton_append]
        at hText
      rcases List.append_eq_append_iff.mp hText with ⟨after, hSegment, -⟩ | ⟨after, rfl, hRest⟩
      · exact ⟨[], segment, next :: written, typed, rfl, ⟨after, hSegment.symm⟩,
          (Text.join_singleton _ _).symm⟩
      · -- The cut is either in front of the slash or behind it.
        cases after with
        | nil =>
          refine ⟨[], segment, next :: written, segment, rfl, List.prefix_refl _, ?_⟩
          rw [List.append_nil, List.nil_append, Text.join_singleton]
        | cons c after =>
          obtain ⟨rfl, hMore⟩ := List.cons.inj hRest
          obtain ⟨front, other, more, cut, hWritten, hCut, rfl⟩ :=
            ih (List.cons_ne_nil _ _) ⟨rest, hMore.symm⟩
          refine ⟨segment :: front, other, more, cut, by rw [hWritten]; rfl, hCut, ?_⟩
          rw [List.cons_append, Text.join_cons _ _ (by simp), List.append_assoc]
          rfl

/-- A segment that the route admits, in front of segments that it admits or begins with. -/
theorem admits_or_begins_cons {path : List (List Char)} (h : Agrees expected actual)
    (hAdmits : AdmitsSegments pattern path →
      AdmitsSegments (expected :: pattern) (actual :: path))
    (hRest : path ≠ [] → AdmitsSegments pattern path ∨ BeginsSegments pattern path) :
    AdmitsSegments (expected :: pattern) (actual :: path) ∨
      BeginsSegments (expected :: pattern) (actual :: path) := by
  by_cases hNe : path = []
  · subst hNe
    exact .inr (.last (.inl h) pattern)
  · rcases hRest hNe with hOwn | hBegins
    · exact .inl (hAdmits hOwn)
    · exact .inr (.next h hBegins)

/-- What is written of a path in place of a route is admitted by the route, or the route begins with
it. -/
theorem IsInstance.admits_or_begins {literal : Char → Prop} (h : IsInstance literal pattern written)
    {front more : List (List Char)} {segment : List Char}
    (hWritten : written = front ++ segment :: more) (hCut : cut <+: segment)
    (hNe : (front ++ [cut]).filter (!·.isEmpty) ≠ []) :
    AdmitsSegments (pattern.filter (!·.isEmpty)) ((front ++ [cut]).filter (!·.isEmpty)) ∨
      BeginsSegments (pattern.filter (!·.isEmpty)) ((front ++ [cut]).filter (!·.isEmpty)) := by
  induction h generalizing front with
  | done => simp at hWritten
  | @fixed own pattern path _ _ ih =>
    cases front with
    | nil =>
      obtain ⟨rfl, -⟩ := List.cons.inj hWritten
      cases cut with
      | nil => exact absurd rfl hNe
      | cons c cut =>
        -- The cut segment is a beginning of the segment of the route.
        have hFull : own ≠ [] := by
          rintro rfl
          cases List.prefix_nil.mp hCut
        rw [List.filter_cons_of_pos (by simpa using hFull)]
        exact .inr (.last (.inr hCut) _)
    | cons first front =>
      obtain ⟨rfl, hPath⟩ := List.cons.inj hWritten
      rw [List.cons_append] at hNe ⊢
      by_cases hEmpty : own = []
      · subst hEmpty
        exact ih hPath hNe
      · rw [List.filter_cons_of_pos (by simpa using hEmpty),
          List.filter_cons_of_pos (by simpa using hEmpty)]
        exact admits_or_begins_cons (.inr (.inr (.inr rfl))) (.same own) (ih hPath)
  | @parameter name value pattern path _ hFull _ ih =>
    rw [List.filter_cons_of_pos rfl]
    cases front with
    | nil =>
      cases cut with
      | nil => exact absurd rfl hNe
      | cons c cut => exact .inr (.last (.inl (.inl rfl)) _)
    | cons first front =>
      obtain ⟨rfl, hPath⟩ := List.cons.inj hWritten
      rw [List.cons_append, List.filter_cons_of_pos (by simpa using hFull)]
      exact admits_or_begins_cons (.inl rfl) (.parameter name value) (ih hPath)
  | @glob name values _ =>
    rw [List.filter_cons_of_pos rfl]
    exact .inl (.glob name _ _)

/-- In a beginning of such a path nothing is replaced or left out but slashes at its end. -/
theorem segments_normalizePath_of_literal (h : ∀ c ∈ typed, c ≠ '?' ∧ c ≠ '#') :
    segments (normalizePath typed) = segments typed := by
  have hNoHash : '#' ∉ typed := fun hMem => (h _ hMem).2 rfl
  have hAll : (typed ++ []).takeWhile (fun c => c != '?' && c != '#') = typed :=
    Text.takeWhile_append_of_stop (by simpa using h) nofun
  rw [List.append_nil] at hAll
  rw [segments_normalizePath, replaceInterpolations_of_not_mem hNoHash, hAll]

theorem Fills.admits_or_begins (h : Fills path route) (hTyped : typed <+: path)
    (hNe : segments typed ≠ []) :
    segments (normalizePath typed) = segments typed ∧
      (Admits typed route ∨ Begins typed route) := by
  obtain ⟨written, hInstance, hLiteral, rfl⟩ := h
  have hChars : ∀ c ∈ typed, c ≠ '?' ∧ c ≠ '#' := by
    intro c hc
    rcases Text.mem_join (hTyped.subset hc) with hSlash | ⟨segment, hMem, hOwn⟩
    · rw [List.mem_singleton.mp hSlash]
      decide
    · exact (hLiteral segment hMem c hOwn).2
  have hSame := segments_normalizePath_of_literal hChars
  refine ⟨hSame, ?_⟩
  have hWritten : written ≠ [] := by
    rintro rfl
    rw [List.prefix_nil.mp hTyped] at hNe
    exact hNe rfl
  obtain ⟨front, segment, more, cut, rfl, hCut, rfl⟩ := exists_cut_segment hWritten hTyped
  have hPieces : ∀ piece ∈ front ++ [cut], '/' ∉ piece := by
    intro piece hMem hSlash
    rcases List.mem_append.mp hMem with hFront | hOwn
    · exact (hLiteral piece (List.mem_append_left _ hFront) _ hSlash).1 rfl
    · rw [List.mem_singleton.mp hOwn] at hSlash
      exact (hLiteral segment (by simp) _ (hCut.subset hSlash)).1 rfl
  have hSegments := segments_join hPieces
  rw [Admits, Begins, hSame]
  rw [hSegments] at hNe ⊢
  exact hInstance.admits_or_begins rfl hCut hNe

/-- **A route is found at every stage of writing its path.** What is found is the route that a
finished path would have, or else the first one with the fewest segments of those that begin with
the path. And some route is found for every beginning, with a segment in it, of a path that puts
texts in place of the parameters of a route. -/
theorem routeForPartial?_finds_beginnings (routes : List Route) (typed : List Char) :
    (∀ found, routeForPartial? routes typed = some found ↔
      routeFor? routes typed = some found ∨
        routeFor? routes typed = none ∧ IsFirst (IsShortest typed routes) routes found) ∧
    ∀ route ∈ routes, ∀ path, Fills path route → typed <+: path → segments typed ≠ [] →
      segments (normalizePath typed) = segments typed ∧
        ∃ found, routeForPartial? routes typed = some found := by
  constructor
  · intro found
    exact routeForPartial?_eq_some_iff
  · intro route hMem path hPath hTyped hNe
    obtain ⟨hSame, hRoute⟩ := hPath.admits_or_begins hTyped hNe
    refine ⟨hSame, Option.ne_none_iff_exists'.mp ?_⟩
    intro hNone
    obtain ⟨hAdmits, hBegins⟩ := routeForPartial?_eq_none hNone route hMem
    rcases hRoute with hOwn | hOwn
    · exact hAdmits hOwn
    · exact hBegins hOwn

/-- A path that is cut inside of the text for a parameter, where a shorter route begins alike. -/
theorem routeForPartial?_finds_beginnings_cut :
    let comments : Route :=
      { path := "/posts/:id/comments", verb := "GET", line := 2, helperBase := "post_comment" }
    let new : Route := { path := "/posts/new", verb := "GET", line := 3, helperBase := "post" }
    Fills "/posts/n42/comments".toList comments ∧
      "/posts/n".toList <+: "/posts/n42/comments".toList ∧
      (∃ found, routeForPartial? [comments, new] "/posts/n".toList = some found) ∧
      routeFor? [comments, new] "/posts/n".toList = none ∧
      IsFirst (IsShortest "/posts/n".toList [comments, new]) [comments, new] new := by
  intro comments new
  have hPattern : Text.splitAt '/' comments.path.toList =
      [[], "posts".toList, ":id".toList, "comments".toList] := by decide +kernel
  have hPath : Fills "/posts/n42/comments".toList comments := by
    refine ⟨[[], "posts".toList, "n42".toList, "comments".toList], ?_, by decide, by decide⟩
    rw [hPattern]
    have hValue : IsMixed IsSegmentChar "n42".toList :=
      .literal (by decide) (.literal (by decide) (.literal (by decide) .nil))
    exact .fixed (List.forall_mem_nil _)
      (.fixed (by decide) (.parameter hValue (by decide) (.fixed (by decide) .done)))
  have hTyped : "/posts/n".toList <+: "/posts/n42/comments".toList := by decide
  obtain ⟨hFound, hBeginnings⟩ :=
    routeForPartial?_finds_beginnings [comments, new] "/posts/n".toList
  have hNone : routeFor? [comments, new] "/posts/n".toList = none := by decide +kernel
  have hNew : routeForPartial? [comments, new] "/posts/n".toList = some new := by decide +kernel
  refine ⟨hPath, hTyped, (hBeginnings comments (by simp) _ hPath hTyped (by decide)).2, hNone, ?_⟩
  rcases (hFound new).mp hNew with hStrict | ⟨-, hShortest⟩
  · rw [hNone] at hStrict
    cases hStrict
  · exact hShortest

end PhoenixLens.Routing
