import PhoenixLens.Proofs.Markup.Offsets
import PhoenixLens.Proofs.Routing.Admission

/-!
# Paths that are cut at a quote

A path may have quotes in its interpolations. What stands before the first of them is a path as
well: an interpolation that is cut there is not closed, so that it takes what is left of the path,
and counts as one segment. A route that has no more segments than that still admits it.
-/

namespace PhoenixLens.Routing

open Markup (expressionEnd? expressionEnd?_go_append)

variable {value : List Char} {pattern written : List (List Char)}

/-! ### Interpolations -/

/-- The braces of an interpolation that is not closed. -/
structure IsOpen (value : List Char) : Prop where
  head : value.head? = some '{'
  noEnd : expressionEnd? 0 value = none

theorem IsInterpolation.isOpen {front rest : List Char} {c : Char}
    (h : IsInterpolation (front ++ c :: rest)) (hQuote : c ≠ '{') : IsOpen front := by
  refine ⟨?_, ?_⟩
  · cases front with
    | nil => exact absurd (Option.some.inj h.1) hQuote
    | cons d front => exact h.1
  · rw [Option.eq_none_iff_forall_ne_some]
    intro stop hEnd
    obtain ⟨-, further, hRest⟩ := Markup.expressionEnd?_offset (Text.RestAt.self front) hEnd
    have hWhole := expressionEnd?_go_append hEnd 0 (c :: rest)
    have hStop : stop = Text.byteLength (front ++ c :: rest) :=
      Option.some.inj (hWhole.symm.trans h.2)
    have hSize := c.utf8Size_pos
    have hLe := hRest.le
    rw [Text.byteLength_append, Text.byteLength_cons] at hStop
    omega

/-- An interpolation that is not closed reads like an empty one at the end of a path. -/
theorem normalizePath_open {front : List Char} (hFront : IsWhole front) (hOpen : IsOpen value) :
    normalizePath (front ++ '#' :: value) = normalizePath (front ++ ['#', '{', '}']) := by
  have hEmpty : replaceInterpolations ['#', '{', '}'] = [':', '_'] := by decide
  rw [normalizePath, normalizePath, hFront, hFront, hEmpty,
    replaceInterpolations_open hOpen.head hOpen.noEnd]

/-! ### Segments -/

/-- What may stand for itself in the path of a sigil. -/
def IsSigilChar (c : Char) : Prop := IsSegmentChar c ∧ c ≠ '"'

instance (c : Char) : Decidable (IsSigilChar c) := inferInstanceAs (Decidable (_ ∧ _))

theorem IsSigilChar.isSegmentChar {c : Char} (h : IsSigilChar c) : IsSegmentChar c := h.1

/-- A segment that is cut at its first quote, which stands in an interpolation. -/
structure IsCut (segment whole inner rest : List Char) : Prop where
  text : segment = whole ++ '#' :: (inner ++ '"' :: rest)
  isMixed : IsMixed IsSigilChar whole
  isOpen : IsOpen inner
  noQuote : '"' ∉ whole ++ '#' :: inner

theorem IsMixed.append {literal : Char → Prop} {rest : List Char} (h : IsMixed literal value)
    (hRest : IsMixed literal rest) : IsMixed literal (value ++ rest) := by
  induction h with
  | nil => exact hRest
  | literal hChar _ ih => exact .literal hChar ih
  | interpolation hValue _ ih =>
    rw [List.cons_append, List.append_assoc]
    exact .interpolation hValue ih

theorem IsMixed.exists_cut (h : IsMixed IsSigilChar value) (hQuote : '"' ∈ value) :
    ∃ whole inner rest, IsCut value whole inner rest := by
  induction h with
  | nil => cases hQuote
  | @literal c rest hChar _ ih =>
    have hNe : '"' ≠ c := hChar.2.symm
    obtain ⟨whole, inner, after, hCut⟩ := ih (List.mem_of_ne_of_mem hNe hQuote)
    refine ⟨c :: whole, inner, after, ?_, .literal hChar hCut.isMixed, hCut.isOpen, ?_⟩
    · rw [hCut.text, List.cons_append]
    · exact List.not_mem_cons_of_ne_of_not_mem hNe hCut.noQuote
  | @interpolation value rest hValue _ ih =>
    by_cases hInner : '"' ∈ value
    · obtain ⟨front, back, rfl, hFront⟩ := List.eq_append_cons_of_mem hInner
      refine ⟨[], front, back ++ rest, ?_, .nil, hValue.isOpen (by decide), ?_⟩
      · simp
      · exact List.not_mem_cons_of_ne_of_not_mem (by decide) hFront
    · have hRest : '"' ∈ rest := by simpa [hInner] using hQuote
      obtain ⟨whole, inner, after, hCut⟩ := ih hRest
      refine ⟨'#' :: (value ++ whole), inner, after, ?_, .interpolation hValue hCut.isMixed,
        hCut.isOpen, ?_⟩
      · rw [hCut.text]
        simp
      · have hNoQuote := hCut.noQuote
        simp only [List.cons_append, List.append_assoc, List.mem_cons, List.mem_append, hInner,
          false_or] at hNoQuote ⊢
        simpa using hNoQuote

theorem IsCut.closed {segment whole inner rest : List Char}
    (h : IsCut segment whole inner rest) : IsMixed IsSigilChar (whole ++ ['#', '{', '}']) := by
  have hEmpty : IsInterpolation ['{', '}'] := by decide
  exact h.isMixed.append (.interpolation hEmpty .nil)

/-- Quotes stand in nothing but what the last segment of a route stands for. -/
def IsQuotedLast (pattern written : List (List Char)) : Prop :=
  ∀ segment ∈ written.take (pattern.length - 1), '"' ∉ segment

instance (pattern written : List (List Char)) : Decidable (IsQuotedLast pattern written) :=
  inferInstanceAs (Decidable (∀ segment ∈ _, _))

theorem IsQuotedLast.tail {expected segment : List Char}
    (h : IsQuotedLast (expected :: pattern) (segment :: written)) : IsQuotedLast pattern written := by
  cases pattern with
  | nil => nofun
  | cons next pattern => exact fun s hMem => h s (List.mem_cons_of_mem _ hMem)

theorem IsQuotedLast.eq_nil {expected segment : List Char}
    (h : IsQuotedLast (expected :: pattern) (segment :: written)) (hQuote : '"' ∈ segment) :
    pattern = [] := by
  cases pattern with
  | nil => rfl
  | cons next pattern => exact absurd hQuote (h segment List.mem_cons_self)

/-- The first segment with a quote is cut there. With its interpolation closed, it completes what
stands before it to a path of the route. -/
theorem IsInstance.exists_cut (h : IsInstance IsSigilChar pattern written)
    (hLast : IsQuotedLast pattern written) (hQuote : ∃ segment ∈ written, '"' ∈ segment) :
    ∃ front segment more whole inner rest, written = front ++ segment :: more ∧
      (∀ other ∈ front, '"' ∉ other) ∧ IsCut segment whole inner rest ∧
      IsInstance IsSigilChar pattern (front ++ [whole ++ ['#', '{', '}']]) := by
  induction h with
  | done => simp at hQuote
  | @fixed segment pattern path hFixed _ ih =>
    have hOwn : '"' ∉ segment := fun hMem => (hFixed _ hMem).2 rfl
    have hRest : ∃ other ∈ path, '"' ∈ other := by simpa [hOwn] using hQuote
    obtain ⟨front, other, more, whole, inner, rest, rfl, hFront, hCut, hInstance⟩ :=
      ih hLast.tail hRest
    exact ⟨segment :: front, other, more, whole, inner, rest, rfl,
      List.forall_mem_cons.mpr ⟨hOwn, hFront⟩, hCut, .fixed hFixed hInstance⟩
  | @parameter name value pattern path hValue hNe hPath ih =>
    by_cases hOwn : '"' ∈ value
    · obtain rfl := hLast.eq_nil hOwn
      obtain ⟨whole, inner, rest, hCut⟩ := hValue.exists_cut hOwn
      exact ⟨[], value, path, whole, inner, rest, rfl, nofun, hCut,
        .parameter hCut.closed (by simp) .done⟩
    · have hRest : ∃ other ∈ path, '"' ∈ other := by simpa [hOwn] using hQuote
      obtain ⟨front, other, more, whole, inner, rest, rfl, hFront, hCut, hInstance⟩ :=
        ih hLast.tail hRest
      exact ⟨value :: front, other, more, whole, inner, rest, rfl,
        List.forall_mem_cons.mpr ⟨hOwn, hFront⟩, hCut, .parameter hValue hNe hInstance⟩
  | @glob name values hValues =>
    obtain ⟨segment, hFind⟩ : ∃ segment, values.find? (fun s => decide ('"' ∈ s)) = some segment := by
      rw [← Option.isSome_iff_exists, List.find?_isSome]
      simpa using hQuote
    obtain ⟨hOwn, front, more, rfl, hFront⟩ := List.find?_eq_some_iff_append.mp hFind
    have hSegment := hValues segment (by simp)
    obtain ⟨whole, inner, rest, hCut⟩ := hSegment.1.exists_cut (by simpa using hOwn)
    refine ⟨front, segment, more, whole, inner, rest, rfl, by simpa using hFront, hCut,
      .glob fun value hMem => ?_⟩
    rcases List.mem_append.mp hMem with hFrontMem | hClosed
    · exact hValues value (List.mem_append_left _ hFrontMem)
    · rw [List.mem_singleton.mp hClosed]
      exact ⟨hCut.closed, by simp⟩

/-! ### Paths -/

/-- What stands before the first quote. -/
def untilQuote (path : List Char) : List Char := path.takeWhile (· != '"')

theorem untilQuote_append_cons {front : List Char} (h : '"' ∉ front) (rest : List Char) :
    untilQuote (front ++ '"' :: rest) = front :=
  Text.takeWhile_append_of_stop (fun c hc => by simpa using fun hEq : c = '"' => h (hEq ▸ hc))
    (by simp)

theorem untilQuote_append {front : List Char} (h : '"' ∉ front) (rest : List Char) :
    untilQuote (front ++ rest) = front ++ untilQuote rest :=
  List.takeWhile_append_of_pos fun c hc => by simpa using fun hEq : c = '"' => h (hEq ▸ hc)

theorem untilQuote_close (path rest : List Char) :
    untilQuote (path ++ '"' :: rest) = untilQuote path := by
  by_cases hQuote : '"' ∈ path
  · obtain ⟨front, back, rfl, hFront⟩ := List.eq_append_cons_of_mem hQuote
    rw [List.append_assoc, List.cons_append, untilQuote_append_cons hFront,
      untilQuote_append_cons hFront]
  · rw [untilQuote_append_cons hQuote, ← List.append_nil (untilQuote path), ← List.append_nil path,
      untilQuote_append hQuote]
    simp [untilQuote]

theorem IsEnding.untilQuote {ending : List Char} (h : IsEnding ending) :
    IsEnding (untilQuote ending) := by
  cases h with
  | nil => exact .nil
  | query text => exact .query (text.takeWhile (· != '"'))
  | @fragment text hText =>
    have hHead : (text.takeWhile (· != '"')).head? ≠ some '{' := by
      cases text with
      | nil => nofun
      | cons c text =>
        rw [List.takeWhile_cons]
        split
        · exact hText
        · nofun
    exact .fragment hHead

theorem join_concat_append (front : List (List Char)) (segment rest : List Char) :
    Text.join ['/'] (front ++ [segment ++ rest]) = Text.join ['/'] (front ++ [segment]) ++ rest := by
  cases front with
  | nil => exact (Text.join_singleton _ _).trans (congrArg (· ++ rest) (Text.join_singleton _ _).symm)
  | cons first front =>
    have hNe : first :: front ≠ [] := List.cons_ne_nil _ _
    rw [Text.join_concat _ hNe, Text.join_concat _ hNe, ← List.append_assoc]

theorem exists_join_append_cons (front : List (List Char)) (segment : List Char)
    (more : List (List Char)) :
    ∃ rest, Text.join ['/'] (front ++ segment :: more) =
      Text.join ['/'] (front ++ [segment]) ++ rest := by
  cases more with
  | nil => exact ⟨[], (List.append_nil _).symm⟩
  | cons next more =>
    refine ⟨['/'] ++ Text.join ['/'] (next :: more), ?_⟩
    rw [← List.append_assoc, ← Text.join_append _ (by simp) (List.cons_ne_nil _ _),
      List.append_assoc, List.singleton_append]

/-- The path puts values in place of the parameters of the route, with quotes in nothing but its
query, its fragment and what the last segment of the route stands for. -/
def InstantiatesQuoted (path : List Char) (route : Route) : Prop :=
  ∃ written slashes ending, IsInstance IsSigilChar (Text.splitAt '/' route.path.toList) written ∧
    IsQuotedLast (Text.splitAt '/' route.path.toList) written ∧
    (∀ c ∈ slashes, c = '/') ∧ IsEnding ending ∧
    path = Text.join ['/'] written ++ slashes ++ ending

theorem IsMixed.unquoted (h : IsMixed IsSegmentChar value) (hQuote : '"' ∉ value) :
    IsMixed IsSigilChar value := by
  induction h with
  | nil => exact .nil
  | literal hChar _ ih =>
    have hNe := List.ne_of_not_mem_cons hQuote
    exact .literal ⟨hChar, hNe.symm⟩ (ih (List.not_mem_of_not_mem_cons hQuote))
  | interpolation hValue _ ih =>
    have hRest := List.not_mem_of_not_mem_cons hQuote
    exact .interpolation hValue (ih fun hMem => hRest (List.mem_append_right _ hMem))

theorem IsInstance.unquoted (h : IsInstance IsSegmentChar pattern written)
    (hQuote : ∀ segment ∈ written, '"' ∉ segment) : IsInstance IsSigilChar pattern written := by
  induction h with
  | done => exact .done
  | @fixed segment _ _ hFixed _ ih =>
    obtain ⟨hOwn, hRest⟩ := List.forall_mem_cons.mp hQuote
    exact .fixed (fun c hc => ⟨hFixed c hc, fun hEq => hOwn (hEq ▸ hc)⟩) (ih hRest)
  | parameter hValue hNe _ ih =>
    obtain ⟨hOwn, hRest⟩ := List.forall_mem_cons.mp hQuote
    exact .parameter (hValue.unquoted hOwn) hNe (ih hRest)
  | glob hValues =>
    exact .glob fun value hMem =>
      ⟨(hValues value hMem).1.unquoted (hQuote value hMem), (hValues value hMem).2⟩

/-- Without quotes, any values will do. -/
theorem Instantiates.quoted {path : List Char} {route : Route} (h : Instantiates path route)
    (hQuote : '"' ∉ path) : InstantiatesQuoted path route := by
  obtain ⟨written, slashes, ending, hWritten, hSlashes, hEnding, rfl⟩ := h
  have hSegments : ∀ segment ∈ written, '"' ∉ segment := fun segment hMem hQuoted =>
    hQuote (List.mem_append_left _ (List.mem_append_left _ (Text.mem_join_of_mem hMem hQuoted)))
  exact ⟨written, slashes, ending, hWritten.unquoted hSegments,
    fun segment hMem => hSegments segment (List.mem_of_mem_take hMem), hSlashes, hEnding, rfl⟩

theorem not_mem_join {pieces : List (List Char)} (h : ∀ piece ∈ pieces, '"' ∉ piece) :
    '"' ∉ Text.join ['/'] pieces := fun hMem => by
  rcases Text.mem_join hMem with hSlash | ⟨piece, hPiece, hQuote⟩
  · simp at hSlash
  · exact h piece hPiece hQuote

theorem IsCut.admits {route : Route} {front : List (List Char)}
    {segment whole inner rest : List Char} (h : IsCut segment whole inner rest)
    (hClosed : IsInstance IsSigilChar (Text.splitAt '/' route.path.toList)
      (front ++ [whole ++ ['#', '{', '}']])) :
    Admits (Text.join ['/'] (front ++ [whole ++ '#' :: inner])) route := by
  have hWhole : IsWhole (Text.join ['/'] (front ++ [whole])) := by
    refine (IsWhole.join fun other hMem => ?_).1
    rcases List.mem_append.mp hMem with hFront | hOwn
    · exact (hClosed.forall_segment (fun _ => IsSigilChar.isSegmentChar) other
        (List.mem_append_left _ hFront)).1
    · rw [List.mem_singleton.mp hOwn]
      exact h.isMixed.isWhole fun _ => IsSigilChar.isSegmentChar
  have hPath := hClosed.admits_path (fun _ => IsSigilChar.isSegmentChar)
    (List.forall_mem_nil _) .nil
  rw [List.append_nil, List.append_nil, Admits, join_concat_append,
    ← normalizePath_open hWhole h.isOpen] at hPath
  rwa [Admits, join_concat_append]

/-- The route still admits what stands before the first quote of the path. -/
theorem InstantiatesQuoted.admits {path : List Char} {route : Route}
    (h : InstantiatesQuoted path route) : Admits (untilQuote path) route := by
  obtain ⟨written, slashes, ending, hWritten, hLast, hSlashes, hEnding, rfl⟩ := h
  by_cases hQuote : ∃ segment ∈ written, '"' ∈ segment
  · obtain ⟨front, segment, more, whole, inner, rest, rfl, hFront, hCut, hClosed⟩ :=
      hWritten.exists_cut hLast hQuote
    obtain ⟨after, hAfter⟩ := exists_join_append_cons front segment more
    have hSegment : segment = whole ++ '#' :: inner ++ '"' :: rest := by
      rw [hCut.text, List.append_assoc, List.cons_append]
    have hNoQuote : '"' ∉ Text.join ['/'] (front ++ [whole ++ '#' :: inner]) := by
      refine not_mem_join fun piece hMem => ?_
      rcases List.mem_append.mp hMem with hPiece | hOwn
      · exact hFront piece hPiece
      · rw [List.mem_singleton.mp hOwn]
        exact hCut.noQuote
    rw [hAfter, hSegment, join_concat_append, List.append_assoc, List.append_assoc,
      List.append_assoc, List.cons_append, untilQuote_append_cons hNoQuote]
    exact hCut.admits hClosed
  · have hNoQuote : '"' ∉ Text.join ['/'] written ++ slashes := fun hMem => by
      rcases List.mem_append.mp hMem with hJoin | hSlash
      · exact not_mem_join (fun piece hPiece hMem => hQuote ⟨piece, hPiece, hMem⟩) hJoin
      · cases hSlashes _ hSlash
    rw [untilQuote_append hNoQuote]
    exact hWritten.admits_path (fun _ => IsSigilChar.isSegmentChar) hSlashes hEnding.untilQuote

end PhoenixLens.Routing
