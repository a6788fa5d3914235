import Mathlib.Data.List.Induction
import Mathlib.Data.List.Pairwise
import PhoenixLens.Proofs.Path.Order

/-!
# Tables in order

A table has each key once, up to paths that lead the same way. So its entries can be listed in order
of their paths, some of them left out, and the list is that of the table that is made from it.
-/

namespace PhoenixLens

/-- The paths lead different ways. -/
def Path.Distinct (paths : List Path) : Prop := paths.Pairwise fun p q => p.same q = false

instance (paths : List Path) : Decidable (Path.Distinct paths) :=
  inferInstanceAs (Decidable (paths.Pairwise fun p q => p.same q = false))

namespace Path

theorem Distinct.eq_of_same {β : Type} {f : β → Path} {l : List β} (h : Distinct (l.map f))
    {a b : β} (ha : a ∈ l) (hb : b ∈ l) (hSame : (f a).same (f b) = true) : a = b := by
  have hApart : l.Pairwise fun a b => (f a).same (f b) = false := List.pairwise_map.mp h
  have : Std.Symm fun a b : β => (f a).same (f b) = false :=
    ⟨fun a b hab => same_comm (f a) (f b) ▸ hab⟩
  by_contra hNe
  rw [hApart.forall ha hb hNe] at hSame
  cases hSame

theorem Distinct.map_filter {β : Type} {f : β → Path} {l : List β} (h : Distinct (l.map f))
    (keep : β → Bool) : Distinct ((l.filter keep).map f) :=
  List.Pairwise.sublist (List.filter_sublist.map f) h

theorem Distinct.perm {paths order : List Path} (h : Distinct paths) (hOrder : order.Perm paths) :
    Distinct order := by
  refine (hOrder.pairwise_iff fun {p q} hApart => ?_).mpr h
  rw [same_comm]
  exact hApart

/-- Of paths that lead different ways there is one order. -/
theorem sort_eq_of_perm {paths order : List Path} (h : Distinct paths) (hOrder : order.Perm paths) :
    sort order = sort paths := by
  have hOrdered (l : List Path) : (sort l).Pairwise fun p q => p.atMost q = true :=
    List.pairwise_mergeSort atMost_trans atMost_total l
  have hPerm : (sort order).Perm (sort paths) :=
    (List.mergeSort_perm _ _).trans (hOrder.trans (List.mergeSort_perm _ _).symm)
  refine List.Perm.eq_of_pairwise ?_ (hOrdered order) (hOrdered paths) hPerm
  intro p q hp hq hpq hqp
  have hpMem : p ∈ paths := (List.mergeSort_perm paths _).mem_iff.mp (hPerm.mem_iff.mp hp)
  have hqMem : q ∈ paths := (List.mergeSort_perm paths _).mem_iff.mp hq
  rw [← List.map_id paths] at h
  refine h.eq_of_same hpMem hqMem ((same_or_before hpq).resolve_right fun hBefore => ?_)
  rw [atMost, Bool.not_eq_true', hBefore] at hqp
  cases hqp

end Path

namespace PathTable

variable {α β : Type}

theorem contains_eq_any (table : PathTable α) (path : Path) :
    table.contains path = table.keys.any (·.same path) := by
  rw [contains, get?, Option.isSome_map, keys, List.any_map, Bool.eq_iff_iff, List.find?_isSome,
    List.any_eq_true]
  rfl

theorem get?_eq_none_iff {table : PathTable α} {path : Path} :
    table.get? path = none ↔ ∀ p ∈ table.keys, p.same path = false := by
  rw [← Option.isNone_iff_eq_none, ← Option.not_isSome, Bool.not_eq_true', ← contains,
    contains_eq_any, List.any_eq_false]
  simp only [Bool.not_eq_true]

theorem set_of_get?_eq_none {table : PathTable α} {path : Path} (h : table.get? path = none)
    (value : α) : table.set path value = ⟨table.entries ++ [(path, value)]⟩ := by
  rw [set, contains, h]
  rfl

/-- Setting a value adds its path to the keys, unless it is there already. -/
theorem keys_set (table : PathTable α) (path : Path) (value : α) :
    (table.set path value).keys =
      if table.keys.any (·.same path) then table.keys else table.keys ++ [path] := by
  rw [set, contains_eq_any]
  split
  · rw [keys, List.map_map]
    refine List.map_congr_left fun e _ => ?_
    simp only [Function.comp_apply]
    split <;> rfl
  · rw [keys, List.map_append, keys, List.map_singleton]

theorem keys_erase (table : PathTable α) (path : Path) :
    (table.erase path).keys = table.keys.filter fun p => !p.same path := by
  rw [keys, erase, keys, List.filter_map]
  rfl

theorem mem_set {table : PathTable α} {path : Path} {value : α} {e : Path × α}
    (h : e ∈ (table.set path value).entries) :
    e ∈ table.entries ∨ e.1.same path = true ∧ e.2 = value := by
  rw [set] at h
  split at h
  · obtain ⟨before, hBefore, hEntry⟩ := List.mem_map.mp h
    split at hEntry
    · next hSame => exact .inr (hEntry ▸ ⟨hSame, rfl⟩)
    · exact .inl (hEntry ▸ hBefore)
  · rcases List.mem_append.mp h with hBefore | hNew
    · exact .inl hBefore
    · rw [List.mem_singleton.mp hNew]
      exact .inr ⟨Path.same_refl path, rfl⟩

theorem distinct_set {table : PathTable α} (h : Path.Distinct table.keys) (path : Path)
    (value : α) : Path.Distinct (table.set path value).keys := by
  rw [keys_set]
  split
  · exact h
  · rename_i hNew
    refine List.pairwise_append.mpr ⟨h, List.pairwise_singleton _ _, ?_⟩
    intro p hp q hq
    rw [List.mem_singleton.mp hq]
    simp only [Bool.not_eq_true, List.any_eq_false] at hNew
    simpa using hNew p hp

theorem distinct_erase {table : PathTable α} (h : Path.Distinct table.keys) (path : Path) :
    Path.Distinct (table.erase path).keys := by
  rw [keys_erase]
  exact h.filter _

/-! ### Tables made from lists -/

theorem ofList_concat (entries : List (Path × α)) (e : Path × α) :
    ofList (entries ++ [e]) = (ofList entries).set e.1 e.2 := by
  rw [ofList, List.foldl_concat, ofList]

theorem distinct_ofList (entries : List (Path × α)) : Path.Distinct (ofList entries).keys := by
  induction entries using List.reverseRecOn with
  | nil => exact .nil
  | append_singleton entries e ih =>
    rw [ofList_concat]
    exact distinct_set ih _ _

/-- The keys of a table depend on the paths of its list alone. -/
theorem keys_ofList (entries : List (Path × α)) :
    (ofList entries).keys = (entries.map (·.1)).foldl
      (fun keys path => if keys.any (·.same path) then keys else keys ++ [path]) [] := by
  induction entries using List.reverseRecOn with
  | nil => rfl
  | append_singleton entries e ih =>
    rw [ofList_concat, keys_set, ih, List.map_append, List.map_singleton, List.foldl_concat]

theorem ofList_of_distinct {entries : List (Path × α)}
    (h : Path.Distinct (entries.map (·.1))) : ofList entries = ⟨entries⟩ := by
  induction entries using List.reverseRecOn with
  | nil => rfl
  | append_singleton entries e ih =>
    rw [List.map_append, Path.Distinct, List.pairwise_append] at h
    obtain ⟨hBefore, -, hApart⟩ := h
    have hNew : (PathTable.mk entries).get? e.1 = none :=
      get?_eq_none_iff.mpr fun p hp => hApart p hp e.1 (List.mem_singleton_self _)
    rw [ofList_concat, ih hBefore, set_of_get?_eq_none hNew]

theorem mem_ofList {entries : List (Path × α)} {e : Path × α} (h : e ∈ (ofList entries).entries) :
    ∃ other ∈ entries, e.2 = other.2 := by
  induction entries using List.reverseRecOn with
  | nil => cases h
  | append_singleton entries last ih =>
    rw [ofList_concat] at h
    rcases mem_set h with hBefore | ⟨_, hNew⟩
    · obtain ⟨other, hOther, hValue⟩ := ih hBefore
      exact ⟨other, List.mem_append_left _ hOther, hValue⟩
    · exact ⟨last, List.mem_append_right _ (List.mem_singleton_self _), hNew⟩

/-! ### Sorted entries -/

theorem sorted_perm (table : PathTable α) : table.sorted.Perm table.entries :=
  List.mergeSort_perm _ _

@[simp]
theorem sorted_empty : ({} : PathTable α).sorted = [] := List.mergeSort_nil

theorem pairwise_sorted (table : PathTable α) :
    table.sorted.Pairwise fun a b => a.1.atMost b.1 = true := by
  rw [sorted]
  refine List.pairwise_mergeSort ?_ ?_ _
  · intro a b c
    exact Path.atMost_trans a.1 b.1 c.1
  · intro a b
    exact Path.atMost_total a.1 b.1

theorem map_fst_sorted (table : PathTable α) :
    table.sorted.map (·.1) = Path.sort table.keys :=
  List.map_mergeSort fun _ _ _ _ => rfl

theorem distinct_sorted {table : PathTable α} (h : Path.Distinct table.keys) :
    Path.Distinct (table.sorted.map (·.1)) := h.perm (table.sorted_perm.map _)

/-- Entries that are in order are those of the table that is made from them, in order. -/
theorem sorted_ofList {entries : List (Path × α)} (hDistinct : Path.Distinct (entries.map (·.1)))
    (hOrdered : entries.Pairwise fun a b => a.1.atMost b.1 = true) :
    (ofList entries).sorted = entries := by
  rw [ofList_of_distinct hDistinct]
  exact List.mergeSort_of_pairwise hOrdered

theorem sorted_ofList_filter {table : PathTable α} (h : Path.Distinct table.keys)
    (keep : Path × α → Bool) :
    (ofList (table.sorted.filter keep)).sorted = table.sorted.filter keep :=
  sorted_ofList ((distinct_sorted h).map_filter keep)
    (List.Pairwise.filter keep table.pairwise_sorted)

/-! ### Looking up in sorted entries -/

theorem get?_eq_some_iff {table : PathTable α} (h : Path.Distinct table.keys) {path : Path}
    {value : α} :
    table.get? path = some value ↔ ∃ e ∈ table.entries, e.1.same path = true ∧ e.2 = value := by
  constructor
  · intro hFound
    obtain ⟨e, hEntry, rfl⟩ := Option.map_eq_some_iff.mp hFound
    exact ⟨e, List.mem_of_find?_eq_some hEntry, by simpa using List.find?_some hEntry, rfl⟩
  · rintro ⟨e, hMem, hSame, rfl⟩
    obtain ⟨entries⟩ := table
    induction entries with
    | nil => cases hMem
    | cons first entries ih =>
      obtain ⟨hApart, hRest⟩ := List.pairwise_cons.mp h
      rcases List.mem_cons.mp hMem with rfl | hLater
      · simp [get?, hSame]
      · have hOther : first.1.same path = false := by
          rw [← Path.same_congr_right hSame]
          exact hApart e.1 (List.mem_map_of_mem hLater)
        have hFound := ih hRest hLater
        rw [get?] at hFound ⊢
        rw [List.find?_cons, hOther]
        exact hFound

theorem get?_of_perm {table other : PathTable α} (h : Path.Distinct table.keys)
    (hOther : Path.Distinct other.keys) (hPerm : table.entries.Perm other.entries) (path : Path) :
    table.get? path = other.get? path := by
  ext value
  rw [get?_eq_some_iff h, get?_eq_some_iff hOther]
  simp only [hPerm.mem_iff]

/-- Of the entries of a table, those that are kept are found again. -/
theorem get?_ofList_filter {table : PathTable α} (h : Path.Distinct table.keys)
    {keep : Path → Bool} (hKeep : ∀ p q, p.same q = true → keep p = keep q) (path : Path) :
    (ofList (table.sorted.filter fun e => keep e.1)).get? path =
      if keep path then table.get? path else none := by
  have hSorted := distinct_sorted h
  have hKept : Path.Distinct ((table.sorted.filter fun e => keep e.1).map (·.1)) :=
    hSorted.map_filter _
  have hFilter : (fun e : Path × α => decide (keep e.1 = true ∧ e.1.same path = true)) =
      fun e => keep path && e.1.same path := by
    funext e
    cases hSame : e.1.same path with
    | false => simp
    | true => simp [hKeep _ _ hSame]
  rw [ofList_of_distinct hKept, get?, List.find?_filter, hFilter]
  cases keep path with
  | false => simp
  | true =>
    have hFound := @get?_of_perm α ⟨table.sorted⟩ table hSorted h table.sorted_perm path
    simpa [get?] using hFound

end PathTable

end PhoenixLens
