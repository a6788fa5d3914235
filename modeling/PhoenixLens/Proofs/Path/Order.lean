import Mathlib.Data.List.Basic
import PhoenixLens.Path.Basic

/-!
# Tables by path and the order of paths

What `set` and `erase` do to later look-ups. Keys count by where they lead, so every statement is
about paths that are the same, not about equal texts.

Paths are ordered by their segments, one after the other. The order is total up to paths that lead
the same way, so entries that have been sorted stay as they are when they are sorted again.
-/

namespace PhoenixLens

namespace Path

theorem same_iff {a b : Path} : a.same b = true ↔ a.segments = b.segments := by
  simp [same]

@[simp] theorem same_refl (a : Path) : a.same a = true := same_iff.mpr rfl

theorem same_comm (a b : Path) : a.same b = b.same a := by
  rw [Bool.eq_iff_iff, same_iff, same_iff]
  exact eq_comm

theorem same_congr_right {a b : Path} (h : a.same b = true) (c : Path) : c.same a = c.same b := by
  simp only [same, same_iff.mp h]

theorem same_congr_left {a b : Path} (h : a.same b = true) (c : Path) : a.same c = b.same c := by
  simp only [same, same_iff.mp h]

end Path

namespace PathTable

variable {α : Type}

theorem get?_congr (table : PathTable α) {p q : Path} (h : p.same q = true) :
    table.get? p = table.get? q := by
  simp only [get?, Path.same_congr_right h]

/-- A value put in place of another leaves the keys alone, so the same entry is found as before. -/
theorem get?_replace (entries : List (Path × α)) (p q : Path) (value : α) :
    (PathTable.mk (entries.map fun e => if e.1.same p then (e.1, value) else e)).get? q =
      ((PathTable.mk entries).get? q).map fun old => if p.same q then value else old := by
  have hKeys : ((fun e : Path × α => e.1.same q) ∘
      fun e : Path × α => if e.1.same p then (e.1, value) else e) = fun e => e.1.same q := by
    funext e
    simp only [Function.comp_apply]
    split <;> rfl
  simp only [get?, List.find?_map, hKeys]
  cases hFound : entries.find? fun e => e.1.same q with
  | none => rfl
  | some e =>
    have hq : e.1.same q = true := by simpa using List.find?_some hFound
    simp only [Option.map_some, Path.same_congr_left hq p, Path.same_comm q p]
    split <;> rfl

theorem get?_set (table : PathTable α) (p q : Path) (value : α) :
    (table.set p value).get? q = if p.same q then some value else table.get? q := by
  by_cases hKnown : table.contains p = true
  · rw [set, if_pos hKnown, get?_replace]
    split
    · rename_i hKey
      obtain ⟨old, hOld⟩ := Option.isSome_iff_exists.mp hKnown
      rw [← get?_congr table hKey, hOld, Option.map_some]
    · exact Option.map_id'
  · rw [set, if_neg hKnown]
    have hNone : table.get? p = none := by simpa [contains] using hKnown
    simp only [get?, List.find?_append, List.find?_singleton]
    split
    · rename_i hKey
      rw [get?_congr table hKey, get?, Option.map_eq_none_iff] at hNone
      rw [hNone]
      rfl
    · rw [Option.or_none]

theorem get?_erase (table : PathTable α) (p q : Path) :
    (table.erase p).get? q = if p.same q then none else table.get? q := by
  obtain ⟨entries⟩ := table
  simp only [get?, erase, List.find?_filter]
  by_cases hKey : p.same q = true
  · have hGone : entries.find? (fun e => !e.1.same p && e.1.same q) = none := by
      rw [List.find?_eq_none]
      intro e _
      rw [Path.same_congr_right hKey]
      simp
    simpa [hKey] using hGone
  · have hKept : (fun e : Path × α => !e.1.same p && e.1.same q) = fun e => e.1.same q := by
      funext e
      by_cases hq : e.1.same q = true
      · have hp : e.1.same p = false := by
          rw [Path.same_congr_left hq, Path.same_comm]
          simpa using hKey
        simp [hq, hp]
      · simp [hq]
    simp [hKey, hKept]

end PathTable

end PhoenixLens

/-! ### The order of paths -/

namespace PhoenixLens

namespace Segment

theorem before_iff {a b : Segment} :
    a.before b = true ↔ a.rank < b.rank ∨ a.rank = b.rank ∧ a.text < b.text := by
  cases a <;> cases b <;> simp [before, rank, text]

theorem eq_of_rank_of_text {a b : Segment} (hRank : a.rank = b.rank) (hText : a.text = b.text) :
    a = b := by
  cases a <;> cases b <;> simp_all [rank, text]

theorem before_irrefl (a : Segment) : a.before a = false := by
  rw [Bool.eq_false_iff, Ne, before_iff]
  rintro (hRank | ⟨-, hText⟩)
  · exact absurd hRank (Nat.lt_irrefl _)
  · exact absurd hText (String.lt_irrefl _)

theorem before_trans {a b c : Segment} (h : a.before b = true) (h' : b.before c = true) :
    a.before c = true := by
  rw [before_iff] at h h' ⊢
  rcases h with hRank | ⟨hRank, hText⟩ <;> rcases h' with hRank' | ⟨hRank', hText'⟩
  · exact .inl (by omega)
  · exact .inl (by omega)
  · exact .inl (by omega)
  · exact .inr ⟨hRank.trans hRank', String.lt_trans hText hText'⟩

theorem before_or_before {a b : Segment} (h : a ≠ b) : a.before b = true ∨ b.before a = true := by
  simp only [before_iff]
  by_cases hRank : a.rank = b.rank
  · by_cases hText : a.text < b.text
    · exact .inl (.inr ⟨hRank, hText⟩)
    · refine .inr (.inr ⟨hRank.symm, ?_⟩)
      by_contra hText'
      exact h (eq_of_rank_of_text hRank
        (String.le_antisymm (String.not_lt.mp hText') (String.not_lt.mp hText)))
  · rcases Nat.lt_or_gt_of_ne hRank with hLess | hGreater
    · exact .inl (.inl hLess)
    · exact .inr (.inl hGreater)

theorem before_asymm {a b : Segment} (h : a.before b = true) : b.before a = false := by
  by_contra h'
  have hSelf := before_trans h (Bool.not_eq_false _ ▸ h')
  rw [before_irrefl] at hSelf
  cases hSelf

end Segment

namespace Path

theorem segmentsBefore_cons_self (s : Segment) (a b : List Segment) :
    segmentsBefore (s :: a) (s :: b) = segmentsBefore a b := by
  rw [segmentsBefore, BEq.rfl, if_pos rfl]

theorem segmentsBefore_cons_of_ne {s t : Segment} (h : s ≠ t) (a b : List Segment) :
    segmentsBefore (s :: a) (t :: b) = s.before t := by
  rw [segmentsBefore, beq_false_of_ne h, if_neg (by decide)]

theorem segmentsBefore_asymm {a b : List Segment} (h : segmentsBefore a b = true) :
    segmentsBefore b a = false := by
  induction a generalizing b with
  | nil =>
    cases b with
    | nil => cases h
    | cons _ _ => rfl
  | cons s a ih =>
    cases b with
    | nil => cases h
    | cons t b =>
      by_cases hSame : s = t
      · cases hSame
        rw [segmentsBefore_cons_self] at h ⊢
        exact ih h
      · rw [segmentsBefore_cons_of_ne hSame] at h
        rw [segmentsBefore_cons_of_ne (Ne.symm hSame)]
        exact Segment.before_asymm h

/-- Anything else stands behind the first or before the second of two paths in order. -/
theorem segmentsBefore_or {a c : List Segment} (h : segmentsBefore a c = true)
    (b : List Segment) : segmentsBefore a b = true ∨ segmentsBefore b c = true := by
  induction a generalizing b c with
  | nil =>
    cases c with
    | nil => cases h
    | cons _ _ =>
      cases b with
      | nil => exact .inr rfl
      | cons _ _ => exact .inl rfl
  | cons s a ih =>
    cases c with
    | nil => cases h
    | cons u c =>
      cases b with
      | nil => exact .inr rfl
      | cons t b =>
        by_cases hFirst : s = t
        · subst hFirst
          by_cases hSecond : s = u
          · subst hSecond
            rw [segmentsBefore_cons_self] at h
            simpa only [segmentsBefore_cons_self] using ih h b
          · rw [segmentsBefore_cons_of_ne hSecond] at h
            exact .inr ((segmentsBefore_cons_of_ne hSecond b c).trans h)
        · rw [segmentsBefore_cons_of_ne hFirst]
          by_cases hSecond : t = u
          · subst hSecond
            rw [segmentsBefore_cons_of_ne hFirst] at h
            exact .inl h
          · rw [segmentsBefore_cons_of_ne hSecond]
            refine (Segment.before_or_before hFirst).imp_right fun hBefore => ?_
            by_cases hEnds : s = u
            · exact hEnds ▸ hBefore
            · rw [segmentsBefore_cons_of_ne hEnds] at h
              exact Segment.before_trans hBefore h

theorem segmentsBefore_of_ne {a b : List Segment} (h : a ≠ b) :
    segmentsBefore a b = true ∨ segmentsBefore b a = true := by
  induction a generalizing b with
  | nil =>
    cases b with
    | nil => exact absurd rfl h
    | cons _ _ => exact .inl rfl
  | cons s a ih =>
    cases b with
    | nil => exact .inr rfl
    | cons t b =>
      by_cases hSame : s = t
      · subst hSame
        simp only [segmentsBefore_cons_self]
        exact ih fun hRest => h (hRest ▸ rfl)
      · rw [segmentsBefore_cons_of_ne hSame, segmentsBefore_cons_of_ne (Ne.symm hSame)]
        exact Segment.before_or_before hSame

theorem atMost_total (a b : Path) : (a.atMost b || b.atMost a) = true := by
  simp only [atMost, Bool.or_eq_true, Bool.not_eq_true']
  cases h : segmentsBefore b.segments a.segments with
  | false => exact .inl rfl
  | true => exact .inr (segmentsBefore_asymm h)

theorem atMost_trans (a b c : Path) (h : a.atMost b = true) (h' : b.atMost c = true) :
    a.atMost c = true := by
  simp only [atMost, Bool.not_eq_true'] at h h' ⊢
  by_contra hBefore
  rcases segmentsBefore_or (Bool.not_eq_false _ ▸ hBefore) b.segments with hFirst | hSecond
  · rw [h'] at hFirst
    cases hFirst
  · rw [h] at hSecond
    cases hSecond

/-- The path comes before another one and leads another way. -/
def Before (p q : Path) : Prop := segmentsBefore p.segments q.segments = true

theorem Before.trans {p q r : Path} (h : p.Before q) (h' : q.Before r) : p.Before r := by
  rcases segmentsBefore_or h r.segments with hBefore | hAfter
  · exact hBefore
  · have hNot := segmentsBefore_asymm h'
    rw [hAfter] at hNot
    cases hNot

theorem Before.not_same {p q : Path} (h : p.Before q) : p.same q = false := by
  by_contra hSame
  rw [Bool.not_eq_false, same_iff] at hSame
  have hNot := segmentsBefore_asymm h
  rw [Before, hSame] at h
  rw [hSame, h] at hNot
  cases hNot

theorem same_or_before {p q : Path} (h : p.atMost q = true) : p.same q = true ∨ p.Before q := by
  rw [atMost, Bool.not_eq_true'] at h
  by_cases hSame : p.segments = q.segments
  · exact .inl (same_iff.mpr hSame)
  · rcases segmentsBefore_of_ne hSame with hBefore | hAfter
    · exact .inr hBefore
    · rw [h] at hAfter
      cases hAfter

theorem Before.congr_left {p q r : Path} (h : q.Before r) (hSame : p.same q = true) :
    p.Before r := by
  rw [Before, same_iff.mp hSame]
  exact h

end Path

end PhoenixLens
