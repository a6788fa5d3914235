import PhoenixLens.Exact.BoundedCache

/-!
# What bounded caches hold

A cache finds for a key what was last set for it, or nothing. Setting a key may drop others, and
asking for a key drops none. Keys that are equal by their test are one key.
-/

namespace PhoenixLens.BoundedCache

variable {κ ν : Type} [BEq κ]

@[simp] theorem capacity_touch (cache : BoundedCache κ ν) (key : κ) :
    (cache.touch key).capacity = cache.capacity := by
  rw [touch]
  split <;> rfl

@[simp] theorem capacity_set (cache : BoundedCache κ ν) (key : κ) (value : ν) :
    (cache.set key value).capacity = cache.capacity := rfl

theorem find?_eq_none_of_capacity {cache : BoundedCache κ ν} (hSize : cache.size ≤ cache.capacity)
    (hRoom : cache.capacity = 0) (key : κ) : cache.find? key = none := by
  rw [hRoom, Nat.le_zero, size, List.length_eq_zero_iff] at hSize
  rw [find?, hSize]
  rfl

section

variable [EquivBEq κ]

theorem lookup_erase (entries : List (κ × ν)) (key k : κ) :
    (entries.filter fun e => !(e.1 == key)).lookup k =
      if k == key then none else entries.lookup k := by
  induction entries with
  | nil => simp
  | cons e entries ih =>
    rw [List.filter_cons, List.lookup_cons]
    cases hKey : e.1 == key with
    | true =>
      -- the entry goes; it is that of `k` only if `k` is the key, too
      rw [Bool.not_true, if_neg (by decide), ih]
      have hOther : (k == e.1) = (k == key) := BEq.congr_right hKey
      rw [hOther]
      cases k == key <;> rfl
    | false =>
      rw [Bool.not_false, if_pos rfl, List.lookup_cons, ih]
      cases hFound : k == e.1 with
      | true =>
        have hOther : (k == key) = false := (BEq.congr_left hFound).trans hKey
        rw [hOther]
        rfl
      | false => rfl

theorem find?_congr (cache : BoundedCache κ ν) {key other : κ} (h : (key == other) = true) :
    cache.find? key = cache.find? other := by
  rw [find?, find?]
  induction cache.entries with
  | nil => rfl
  | cons e entries ih => rw [List.lookup_cons, List.lookup_cons, BEq.congr_left h, ih]

theorem find?_erase (cache : BoundedCache κ ν) (key k : κ) :
    (cache.erase key).find? k = if k == key then none else cache.find? k :=
  lookup_erase cache.entries key k

theorem find?_touch (cache : BoundedCache κ ν) (key k : κ) :
    (cache.touch key).find? k = cache.find? k := by
  rw [touch]
  split
  · rename_i value hValue
    rw [find?, List.lookup_cons]
    cases hKey : k == key with
    | true => rw [cache.find?_congr hKey, hValue]
    | false =>
      have hErase := cache.find?_erase key k
      rw [hKey] at hErase
      exact hErase
  · rfl

theorem find?_set_eq_some {cache : BoundedCache κ ν} {key k : κ} {value found : ν}
    (h : (cache.set key value).find? k = some found) :
    (k == key) = true ∧ found = value ∨ (k == key) = false ∧ cache.find? k = some found := by
  -- the entries that have been dropped stood behind the others
  have hAll : ((key, value) :: (cache.erase key).entries).lookup k = some found := by
    rw [← List.take_append_drop cache.capacity ((key, value) :: (cache.erase key).entries),
      List.lookup_append]
    exact Option.or_eq_some_iff.mpr (.inl h)
  rw [List.lookup_cons] at hAll
  cases hKey : k == key with
  | true =>
    rw [hKey] at hAll
    exact .inl ⟨rfl, (Option.some.inj hAll).symm⟩
  | false =>
    rw [hKey] at hAll
    have hErase := cache.find?_erase key k
    rw [hKey, find?] at hErase
    exact .inr ⟨rfl, hErase.symm.trans hAll⟩

theorem find?_set_self (cache : BoundedCache κ ν) (key : κ) (value : ν)
    (hRoom : 0 < cache.capacity) : (cache.set key value).find? key = some value := by
  obtain ⟨room, hCapacity⟩ := Nat.exists_eq_succ_of_ne_zero (Nat.ne_of_gt hRoom)
  rw [find?, set, hCapacity, List.take_succ_cons, List.lookup_cons, BEq.rfl]

theorem size_touch_le {cache : BoundedCache κ ν} (hSize : cache.size ≤ cache.capacity) (key : κ) :
    (cache.touch key).size ≤ cache.capacity := by
  rw [touch]
  split
  · rename_i value hValue
    have hErased : (cache.erase key).entries.length < cache.entries.length := by
      have hFound : (cache.entries.lookup key).isSome = true := Option.isSome_of_eq_some hValue
      obtain ⟨e, hEntry, hKey⟩ := List.lookup_isSome_iff.mp hFound
      exact List.length_filter_lt_length_iff_exists.mpr ⟨e, hEntry, by simp [BEq.symm hKey]⟩
    exact Nat.le_trans hErased hSize
  · exact hSize

end

end PhoenixLens.BoundedCache
