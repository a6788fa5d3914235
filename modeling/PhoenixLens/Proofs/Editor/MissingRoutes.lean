import PhoenixLens.Editor.Diagnostics
import PhoenixLens.Proofs.Routing.QuotedPath
import PhoenixLens.Proofs.Text.Rest

/-!
# Routes that are reported as missing

A path is read from a sigil up to the next quote of its line. Where no route is found for what has
been read, it is reported with its place. Quotes in an interpolation cut the path short; a route is
found nevertheless, unless segments of the route are behind the cut.
-/

namespace PhoenixLens.Routing

variable {text before after path rest : List Char} {found : VerifiedRoute}

/-! ### Reading sigils -/

def sigil (path : List Char) : List Char := "~p\"".toList ++ path ++ ['"']

/-- What is read of a sigil ends at the first quote, and in its line. -/
def IsSigilPath (path : List Char) : Prop := ∀ c ∈ path, c ≠ '"' ∧ c ≠ '\n'

instance (path : List Char) : Decidable (IsSigilPath path) :=
  inferInstanceAs (Decidable (∀ c ∈ path, _))

theorem IsSigilPath.not_mem (h : IsSigilPath path) : '"' ∉ path := fun hMem => (h _ hMem).1 rfl

theorem sigil_append (path rest : List Char) :
    sigil path ++ rest = "~p\"".toList ++ (path ++ '"' :: rest) := by
  rw [sigil, List.append_assoc, List.append_assoc, List.singleton_append]

theorem verifiedPath?_eq_some_iff :
    verifiedPath? text = some (path, rest) ↔ text = sigil path ++ rest ∧ IsSigilPath path := by
  constructor
  · intro h
    rw [verifiedPath?] at h
    obtain ⟨behind, hPrefix, hRead⟩ := Option.bind_eq_some_iff.mp h
    have hText := List.isPrefixOf?_eq_some_iff_append_eq.mp hPrefix
    have hBehind := List.prefix_iff_eq_append.mp
      (List.takeWhile_prefix (l := behind) fun c => c != '"' && c != '\n')
    simp only at hRead
    split at hRead
    · rename_i hDrop
      cases hRead
      rw [hDrop] at hBehind
      refine ⟨?_, fun c hc => by simpa using List.all_eq_true.mp List.all_takeWhile c hc⟩
      rw [sigil_append, hBehind, hText]
    · cases hRead
  · rintro ⟨rfl, hPath⟩
    have hTaken : (path ++ '"' :: rest).takeWhile (fun c => c != '"' && c != '\n') = path :=
      Text.takeWhile_append_of_stop (fun c hc => by simpa using hPath c hc) (by simp)
    have hPrefix : Text.stripPrefix? "~p\"" ("~p\"".toList ++ (path ++ '"' :: rest)) =
        some (path ++ '"' :: rest) := Text.stripPrefix?_append _ _
    rw [sigil_append, verifiedPath?, hPrefix]
    simp [hTaken]

theorem exists_of_mem_verifiedRoutes (h : found ∈ verifiedRoutes text) :
    ∃ before after, text = before ++ sigil found.path ++ after ∧ IsSigilPath found.path ∧
      found.start = Text.byteLength before + 3 ∧
      found.stop = Text.byteLength before + 3 + Text.byteLength found.path := by
  obtain ⟨⟨start, path⟩, hMem, rfl⟩ := List.mem_map.mp h
  obtain ⟨before, here, previous, rest, rfl, hStart, hRead⟩ := Text.exists_of_mem_matchesFrom hMem
  obtain ⟨rfl, hPath⟩ := verifiedPath?_eq_some_iff.mp hRead
  rw [Nat.zero_add] at hStart
  refine ⟨before, rest, (List.append_assoc _ _ _).symm, hPath, ?_, ?_⟩ <;> rw [hStart]

/-- No sigil is left open: behind each of its marks there is a quote or the end of a line. -/
def ClosesSigils (before : List Char) : Prop :=
  ∀ front rest, before = front ++ "~p\"".toList ++ rest → ¬IsSigilPath rest

/-- What is read from a mark that begins in `before` ends in there. -/
theorem ClosesSigils.isApartFrom (h : ClosesSigils before) (path rest : List Char) :
    Text.IsApartFrom (fun _ => verifiedPath?) before (sigil path ++ rest) := by
  intro front middle hBefore hNe previous other behind hRead
  obtain ⟨hText, hOther⟩ := verifiedPath?_eq_some_iff.mp hRead
  rw [sigil_append, sigil_append] at hText
  rw [sigil_append]
  generalize path ++ '"' :: rest = further at hText ⊢
  -- A mark that begins in `middle` ends in there: no mark begins inside of another.
  obtain ⟨inner, rfl⟩ : ∃ inner, middle = "~p\"".toList ++ inner := by
    match middle, hNe with
    | [_], _ => simp at hText
    | [_, _], _ => simp at hText
    | a :: b :: c :: inner, _ =>
      simp only [String.reduceToList, List.cons_append, List.nil_append, List.cons.injEq] at hText
      obtain ⟨rfl, rfl, rfl, -⟩ := hText
      exact ⟨inner, rfl⟩
  have hInner : ¬IsSigilPath inner := h front inner (by rw [hBefore, List.append_assoc])
  rw [List.append_assoc, List.append_cancel_left_eq] at hText
  rcases List.append_eq_append_iff.mp hText with ⟨more, hMore, -⟩ | ⟨more, -, hBehind⟩
  · exact absurd (fun c hc => hOther c (hMore ▸ List.mem_append_left more hc)) hInner
  · cases more with
    | nil => simp at hBehind
    | cons c more =>
      obtain ⟨-, rfl⟩ := List.cons.inj hBehind
      exact (List.suffix_append more _).length_le

theorem mem_verifiedRoutes (hBefore : ClosesSigils before) (hPath : IsSigilPath path)
    (after : List Char) :
    { path, start := Text.byteLength before + 3,
      stop := Text.byteLength before + 3 + Text.byteLength path } ∈
        verifiedRoutes (before ++ sigil path ++ after) := by
  have hNe : sigil path ++ after ≠ [] := by simp [sigil_append]
  have hMem : (0 + Text.byteLength before, path) ∈
      Text.matchesFrom (fun _ => verifiedPath?) none 0 0 (before ++ (sigil path ++ after)) :=
    Text.mem_matchesFrom (hBefore.isApartFrom path after) (Nat.zero_le _) hNe
      fun _ => ⟨after, verifiedPath?_eq_some_iff.mpr ⟨rfl, hPath⟩⟩
  rw [Nat.zero_add, ← List.append_assoc] at hMem
  exact List.mem_map_of_mem hMem

/-- At the place of a sigil, what stands before the first quote of its path is read. -/
theorem path_of_start (hMem : found ∈ verifiedRoutes (before ++ sigil path ++ after))
    (hStart : found.start = Text.byteLength before + 3) : found.path = untilQuote path := by
  obtain ⟨front, rest, hText, hFound, hFront, -⟩ := exists_of_mem_verifiedRoutes hMem
  have hPlace : Text.byteLength front = Text.byteLength before := by omega
  rw [List.append_assoc, List.append_assoc] at hText
  have hRest := Text.RestAt.unique ⟨before, rfl, rfl⟩ ⟨front, hText, hPlace⟩
  rw [sigil_append, sigil_append, List.append_cancel_left_eq] at hRest
  have hUntil := congrArg untilQuote hRest
  rw [untilQuote_append_cons hFound.not_mem] at hUntil
  rw [← hUntil, untilQuote_close]

end PhoenixLens.Routing

namespace PhoenixLens.DiagnosticsConfig

open Routing

variable {index : Index} {text : List Char} {diagnostic : Diagnostic}

/-- What is reported for a path that stands behind `before`. -/
def missingRoute (before path : List Char) : Diagnostic :=
  { start := Text.byteLength before + 3
    stop := Text.byteLength before + 3 + Text.byteLength path
    finding := .unknownRoute (String.ofList path) }

theorem mem_checkRoutes_iff :
    diagnostic ∈ checkRoutes index text ↔
      index.routes.entityCount ≠ 0 ∧ ∃ found ∈ Routing.verifiedRoutes text,
        index.routeFor? found.path = none ∧
        diagnostic = ⟨found.start, found.stop, .unknownRoute (String.ofList found.path)⟩ := by
  rw [checkRoutes]
  split
  · rename_i hNone
    simp [beq_iff_eq.mp hNone]
  · rename_i hSome
    have hCount : index.routes.entityCount ≠ 0 := by simpa using hSome
    rw [and_iff_right hCount]
    simp only [List.mem_map, List.mem_filter, Option.isNone_iff_eq_none, and_assoc,
      @eq_comm _ _ diagnostic]

theorem routeFor?_eq_none_iff {path : List Char} :
    index.routeFor? path = none ↔
      ∀ route ∈ index.allRoutes, ¬IsWrittenAs path route ∧ ¬Admits path route :=
  Routing.routeFor?_eq_none_iff

/-- What is reported is the place of a path as it is read, and no route is found for that path.
What stands before the first quote of a path decides: nothing is reported for the path of a route
that has quotes in no other segments than those for the last segment of the route. And what is read
is reported unless a route is found. -/
theorem checkRoutes_reports_missing (index : Index) (text : List Char) :
    (∀ diagnostic ∈ checkRoutes index text, ∃ before path after,
      text = before ++ sigil path ++ after ∧ IsSigilPath path ∧
      diagnostic = missingRoute before path ∧
      ∀ route ∈ index.allRoutes, ¬IsWrittenAs path route ∧ ¬Admits path route) ∧
    (∀ before path after, text = before ++ sigil path ++ after →
      ∀ route ∈ index.allRoutes, InstantiatesQuoted path route →
        ∀ diagnostic ∈ checkRoutes index text, diagnostic.start ≠ Text.byteLength before + 3) ∧
    ∀ before path after, text = before ++ sigil path ++ after → IsSigilPath path →
      ClosesSigils before → index.routes.entityCount ≠ 0 →
      (∀ route ∈ index.allRoutes, ¬IsWrittenAs path route ∧ ¬Admits path route) →
        missingRoute before path ∈ checkRoutes index text := by
  refine ⟨fun diagnostic hMem => ?_, ?_, ?_⟩
  · obtain ⟨-, found, hFound, hNone, rfl⟩ := mem_checkRoutes_iff.mp hMem
    obtain ⟨before, after, hText, hPath, hStart, hStop⟩ := exists_of_mem_verifiedRoutes hFound
    refine ⟨before, found.path, after, hText, hPath, ?_, routeFor?_eq_none_iff.mp hNone⟩
    rw [missingRoute, hStart, hStop]
  · rintro before path after rfl route hRoute hPath diagnostic hMem hStart
    obtain ⟨-, found, hFound, hNone, rfl⟩ := mem_checkRoutes_iff.mp hMem
    rw [path_of_start hFound hStart] at hNone
    exact (routeFor?_eq_none_iff.mp hNone route hRoute).2 hPath.admits
  · rintro before path after rfl hPath hBefore hCount hNone
    exact mem_checkRoutes_iff.mpr ⟨hCount, _, mem_verifiedRoutes hBefore hPath after,
      routeFor?_eq_none_iff.mpr hNone, rfl⟩

/-! ### Two templates -/

def postRoute (path : String) : Route := { path, verb := "GET", line := 2, helperBase := "post" }

def postIndex (path : String) : Index :=
  { routes := ({} : FileRegistry Route).commit ⟨"/app/router.ex"⟩ [postRoute path] "" }

/-- A path without a route is reported, and one with a string for the last segment of its route is
not. -/
theorem checkRoutes_reports_missing_post :
    let index := postIndex "/posts/:id"
    let front := "<a href=\x7b".toList
    let between := "\x7d></a><a href=\x7b".toList
    let post := "/posts/#\x7bMap.get(@post, \"id\")\x7d".toList
    let text := front ++ sigil "/gone".toList ++ between ++ sigil post ++ "\x7d></a>".toList
    missingRoute front "/gone".toList ∈ checkRoutes index text ∧
      (∀ diagnostic ∈ checkRoutes index text,
        diagnostic.start ≠ Text.byteLength (front ++ sigil "/gone".toList ++ between) + 3) ∧
      ∀ diagnostic ∈ checkRoutes index text, ∃ before path after,
        text = before ++ sigil path ++ after ∧ IsSigilPath path ∧
        diagnostic = missingRoute before path ∧
        ∀ route ∈ index.allRoutes, ¬IsWrittenAs path route ∧ ¬Admits path route := by
  intro index front between post text
  obtain ⟨hPlaces, hNone, hMissing⟩ := checkRoutes_reports_missing index text
  have hRoutes : index.allRoutes = [postRoute "/posts/:id"] := by decide +kernel
  refine ⟨?_, ?_, hPlaces⟩
  · refine hMissing front _ (between ++ sigil post ++ "\x7d></a>".toList) (by simp [text])
      (by decide) ?_ (by decide) ?_
    · intro before rest hText
      have hTilde : '~' ∈ front := by simp [hText]
      exact absurd hTilde (by decide)
    · exact routeFor?_eq_none_iff.mp (by decide +kernel)
  · have hValue : IsMixed IsSigilChar "#\x7bMap.get(@post, \"id\")\x7d".toList := by
      have hCall : IsInterpolation "\x7bMap.get(@post, \"id\")\x7d".toList := by decide
      exact .interpolation hCall .nil
    have hPath : InstantiatesQuoted post (postRoute "/posts/:id") := by
      have hPattern : Text.splitAt '/' (postRoute "/posts/:id").path.toList =
          [[], "posts".toList, ":id".toList] := by decide
      refine ⟨[[], "posts".toList, "#\x7bMap.get(@post, \"id\")\x7d".toList], [], [], ?_, ?_,
        List.forall_mem_nil _, .nil, by decide⟩ <;> rw [hPattern]
      · exact .fixed (List.forall_mem_nil _) (.fixed (by decide) (.parameter hValue (by decide) .done))
      · decide
    exact hNone _ post _ rfl _ (by rw [hRoutes]; exact List.mem_singleton_self _) hPath

/-- With a string in an interpolation before the last segment, a path of a route is cut short and
reported. -/
theorem checkRoutes_reports_nested_string :
    let path := "/posts/#\x7bMap.get(@post, \"id\")\x7d/comments".toList
    let route := postRoute "/posts/:id/comments"
    (postIndex "/posts/:id/comments").allRoutes = [route] ∧ Instantiates path route ∧
      checkRoutes (postIndex "/posts/:id/comments")
        ("<a href=\x7b".toList ++ sigil path ++ "\x7d>x</a>".toList) =
          [missingRoute "<a href=\x7b".toList "/posts/#\x7bMap.get(@post, ".toList] := by
  intro path route
  have hCall : IsInterpolation "\x7bMap.get(@post, \"id\")\x7d".toList := by decide
  have hValue : IsMixed IsSegmentChar "#\x7bMap.get(@post, \"id\")\x7d".toList :=
    .interpolation hCall .nil
  refine ⟨by decide +kernel, ?_, by decide +kernel⟩
  have hPattern : Text.splitAt '/' route.path.toList =
      [[], "posts".toList, ":id".toList, "comments".toList] := by decide
  refine ⟨[[], "posts".toList, "#\x7bMap.get(@post, \"id\")\x7d".toList, "comments".toList],
    [], [], ?_, List.forall_mem_nil _, .nil, by decide⟩
  rw [hPattern]
  exact .fixed (List.forall_mem_nil _)
    (.fixed (by decide) (.parameter hValue (by decide) (.fixed (by decide) .done)))

end PhoenixLens.DiagnosticsConfig
