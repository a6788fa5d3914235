import Mathlib.Data.List.Nodup
import Mathlib.Data.List.Pairwise
import Mathlib.Data.Nat.Basic
import Mathlib.Order.Lattice

/-!
# Lists whose order is up to something else

What a search and a join make of the elements of a list in every order, and what sorting by a key
leaves of the order. Sorting is stable, so that elements of one key stay as they were.
-/

namespace PhoenixLens

/-! ### What may come first -/

section

variable {α β : Type}

/-- Every element may come first. So a search gives the same in every order just if there is only
one thing that it can give. -/
theorem findSome?_perm_iff {f : α → Option β} {l : List α} :
    (∀ order : List α, order.Perm l → order.findSome? f = l.findSome? f) ↔
      ∀ a ∈ l, ∀ b ∈ l, ∀ x ∈ f a, ∀ y ∈ f b, x = y := by
  constructor
  · intro h
    have hFirst (a : α) (ha : a ∈ l) (x : β) (hx : x ∈ f a) : l.findSome? f = some x := by
      obtain ⟨before, after, rfl⟩ := List.append_of_mem ha
      rw [← h _ List.perm_middle.symm, List.findSome?_cons, Option.mem_def.mp hx]
    intro a ha b hb x hx y hy
    exact Option.some.inj ((hFirst a ha x hx).symm.trans (hFirst b hb y hy))
  · intro h order hOrder
    cases hFound : order.findSome? f with
    | none =>
      rw [eq_comm, List.findSome?_eq_none_iff]
      intro a ha
      exact List.findSome?_eq_none_iff.mp hFound a (hOrder.mem_iff.mpr ha)
    | some x =>
      obtain ⟨a, ha, hx⟩ := List.exists_of_findSome?_eq_some hFound
      obtain ⟨y, hSome⟩ := Option.isSome_iff_exists.mp
        (List.findSome?_isSome_iff.mpr ⟨a, hOrder.mem_iff.mp ha, Option.isSome_of_eq_some hx⟩)
      obtain ⟨b, hb, hy⟩ := List.exists_of_findSome?_eq_some hSome
      rw [hSome, h a (hOrder.mem_iff.mp ha) b hb x hx y hy]

/-- Lists of which only one element has a part are joined to the same in every order. -/
theorem flatMap_eq_of_perm {f : α → List β} {l order : List α} (hOrder : order.Perm l)
    (hOne : ∀ a ∈ l, ∀ b ∈ l, f a ≠ [] → f b ≠ [] → a = b) : order.flatMap f = l.flatMap f := by
  induction hOrder with
  | nil => rfl
  | cons a _ ih =>
    rw [List.flatMap_cons, List.flatMap_cons, ih]
    exact fun b hb c hc => hOne b (List.mem_cons_of_mem _ hb) c (List.mem_cons_of_mem _ hc)
  | swap a b l =>
    simp only [List.flatMap_cons, ← List.append_assoc]
    congr 1
    by_cases ha : f a = []
    · rw [ha, List.nil_append, List.append_nil]
    · by_cases hb : f b = []
      · rw [hb, List.nil_append, List.append_nil]
      · rw [hOne a List.mem_cons_self b (List.mem_cons_of_mem _ List.mem_cons_self) ha hb]
  | trans _ hLater ih ihLater =>
    refine (ih fun a ha b hb => ?_).trans (ihLater hOne)
    exact hOne a (hLater.mem_iff.mp ha) b (hLater.mem_iff.mp hb)

end

/-! ### Sorting by a key -/

section

variable {α κ : Type} [LinearOrder κ] (key : α → κ)

/-- Sorts by a key and leaves elements of one key in their order. -/
def sortBy (l : List α) : List α := l.mergeSort fun a b => decide (key a ≤ key b)

theorem sortBy_perm (l : List α) : (sortBy key l).Perm l := List.mergeSort_perm l _

theorem perm_sortBy {l order : List α} (h : order.Perm l) :
    (sortBy key order).Perm (sortBy key l) :=
  (sortBy_perm key order).trans (h.trans (sortBy_perm key l).symm)

theorem decide_key_trans (a b c : α) (hab : decide (key a ≤ key b) = true)
    (hbc : decide (key b ≤ key c) = true) : decide (key a ≤ key c) = true :=
  decide_eq_true (le_trans (of_decide_eq_true hab) (of_decide_eq_true hbc))

theorem decide_key_total (a b : α) : (decide (key a ≤ key b) || decide (key b ≤ key a)) = true := by
  simpa using le_total (key a) (key b)

theorem pairwise_sortBy (l : List α) : (sortBy key l).Pairwise fun a b => key a ≤ key b := by
  have hSorted := List.pairwise_mergeSort (decide_key_trans key) (decide_key_total key) l
  exact hSorted.imp of_decide_eq_true

theorem sortBy_of_pairwise {l : List α} (h : l.Pairwise fun a b => key a ≤ key b) :
    sortBy key l = l := List.mergeSort_of_pairwise (h.imp decide_eq_true)

/-- Elements that are in order, no two of one key, are what sorting gives in every order. -/
theorem sortBy_eq_of_perm {l order : List α} (hOrder : order.Perm l)
    (h : l.Pairwise fun a b => key a < key b) : sortBy key order = l := by
  have hPerm : (sortBy key order).Perm l := (sortBy_perm key order).trans hOrder
  have hKeys : (l.map key).Nodup := List.pairwise_map.mpr (h.imp ne_of_lt)
  refine List.Perm.eq_of_pairwise ?_ (pairwise_sortBy key order) (h.imp le_of_lt) hPerm
  intro a b ha hb hab hba
  exact List.inj_on_of_nodup_map hKeys (hPerm.mem_iff.mp ha) hb (le_antisymm hab hba)

/-- The keys of a sorted list do not depend on the order that it had. -/
theorem map_sortBy_of_perm {l order : List α} (h : order.Perm l) :
    (sortBy key order).map key = (sortBy key l).map key := by
  have hKeys (l : List α) : ((sortBy key l).map key).Pairwise (· ≤ ·) :=
    List.pairwise_map.mpr (pairwise_sortBy key l)
  exact List.Perm.eq_of_pairwise (fun _ _ _ _ => le_antisymm) (hKeys order) (hKeys l)
    ((perm_sortBy key h).map key)

/-! ### Elements of one key -/

variable {key}

theorem filter_sortBy (l : List α) (k : κ) :
    (sortBy key l).filter (key · = k) = l.filter (key · = k) := by
  have hKeys : (l.filter (key · = k)).Pairwise fun a b => decide (key a ≤ key b) = true := by
    refine List.pairwise_of_forall_mem_list fun a ha b hb => decide_eq_true (le_of_eq ?_)
    rw [of_decide_eq_true (List.mem_filter.mp ha).2, of_decide_eq_true (List.mem_filter.mp hb).2]
  have hSublist : (l.filter (key · = k)).Sublist (sortBy key l) :=
    List.sublist_mergeSort (decide_key_trans key) (decide_key_total key) hKeys
      List.filter_sublist
  have hKept := hSublist.filter (key · = k)
  rw [List.filter_filter] at hKept
  simp only [Bool.and_self] at hKept
  exact (hKept.eq_of_length ((sortBy_perm key l).filter _).length_eq.symm).symm

theorem mem_iff_of_filter_key {l other : List α}
    (hKeys : ∀ k, l.filter (key · = k) = other.filter (key · = k)) (a : α) :
    a ∈ l ↔ a ∈ other := by
  have hSame := congrArg (a ∈ ·) (hKeys (key a))
  simpa using hSame

/-- Lists in order of a key are the same if for every key they have the same elements. -/
theorem eq_of_filter_key {l other : List α} (h : l.Pairwise fun a b => key a ≤ key b)
    (hOther : other.Pairwise fun a b => key a ≤ key b)
    (hKeys : ∀ k, l.filter (key · = k) = other.filter (key · = k)) : l = other := by
  induction l generalizing other with
  | nil =>
    refine (List.eq_nil_iff_forall_not_mem.mpr fun b hb => ?_).symm
    exact List.not_mem_nil ((mem_iff_of_filter_key hKeys b).mpr hb)
  | cons a l ih =>
    have hMem := mem_iff_of_filter_key hKeys
    cases other with
    | nil => exact absurd ((hMem a).mp List.mem_cons_self) List.not_mem_nil
    | cons b other =>
      rw [List.pairwise_cons] at h hOther
      have hFirst : key a = key b := by
        apply le_antisymm
        · rcases List.mem_cons.mp ((hMem b).mpr List.mem_cons_self) with rfl | hb
          · exact le_rfl
          · exact h.1 b hb
        · rcases List.mem_cons.mp ((hMem a).mp List.mem_cons_self) with rfl | ha
          · exact le_rfl
          · exact hOther.1 a ha
      have hHead := hKeys (key a)
      simp only [List.filter_cons, decide_true, if_true, hFirst] at hHead
      obtain ⟨rfl, -⟩ := List.cons.inj hHead
      have hRest (k : κ) : l.filter (key · = k) = other.filter (key · = k) := by
        have hKey := hKeys k
        rw [List.filter_cons, List.filter_cons] at hKey
        split at hKey
        · exact (List.cons.inj hKey).2
        · exact hKey
      rw [ih h.2 hOther.2 hRest]

theorem sortBy_eq_of_filter_key {l other : List α}
    (hKeys : ∀ k, l.filter (key · = k) = other.filter (key · = k)) :
    sortBy key l = sortBy key other := by
  refine eq_of_filter_key (pairwise_sortBy key l) (pairwise_sortBy key other) fun k => ?_
  rw [filter_sortBy, filter_sortBy, hKeys]

/-- The first element of a sorted list is the first one of its key. -/
theorem find?_of_head?_sortBy {l : List α} {a : α} (h : (sortBy key l).head? = some a) :
    l.find? (key · = key a) = some a := by
  obtain ⟨rest, hRest⟩ := List.head?_eq_some_iff.mp h
  rw [← List.head?_filter, ← filter_sortBy, hRest, List.filter_cons, if_pos (decide_eq_true rfl)]
  rfl

end

end PhoenixLens
