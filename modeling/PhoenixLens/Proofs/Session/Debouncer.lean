import PhoenixLens.Session.Debouncer

/-!
# Which call of a key counts

How each operation of a debouncer changes which version of a key is current. Calls of other keys
never matter, and a call that ends takes only its own version away.
-/

namespace PhoenixLens.Debouncer

variable {κ : Type} [BEq κ] [LawfulBEq κ]

omit [LawfulBEq κ] in
theorem isCurrent_iff {debouncer : Debouncer κ} {key : κ} {version : Nat} :
    debouncer.isCurrent key version = true ↔ debouncer.version? key = some version := by
  simp [isCurrent]

theorem lookup_filter_ne {β : Type} (entries : List (κ × β)) {key other : κ} (h : other ≠ key) :
    (entries.filter fun e => !(e.1 == key)).lookup other = entries.lookup other := by
  induction entries with
  | nil => rfl
  | cons e entries ih =>
    by_cases hKey : e.1 = key
    · have hOther : (other == e.1) = false := by simpa [hKey] using h
      rw [List.filter_cons_of_neg (by simp [hKey]), ih, List.lookup_cons, hOther]
    · rw [List.filter_cons_of_pos (by simp [hKey]), List.lookup_cons, List.lookup_cons, ih]

theorem lookup_filter_self {β : Type} (entries : List (κ × β)) (key : κ) :
    (entries.filter fun e => !(e.1 == key)).lookup key = none := by
  rw [List.lookup_eq_none_iff]
  intro e hEntry
  have hKey : e.1 ≠ key := by simpa using (List.mem_filter.mp hEntry).2
  simpa using hKey.symm

theorem version?_bump_self (debouncer : Debouncer κ) (key : κ) :
    (debouncer.bump key).version? key = some (debouncer.lastVersion + 1) := by
  simp [version?, bump]

theorem version?_bump_of_ne (debouncer : Debouncer κ) {key other : κ} (h : other ≠ key) :
    (debouncer.bump key).version? other = debouncer.version? other := by
  have hOther : (other == key) = false := by simpa using h
  simp only [version?, bump, List.lookup_cons, hOther, lookup_filter_ne _ h]

theorem version?_cancel_of_ne (debouncer : Debouncer κ) {key other : κ} (h : other ≠ key) :
    (debouncer.cancel key).version? other = debouncer.version? other := lookup_filter_ne _ h

omit [LawfulBEq κ] in
@[simp] theorem lastVersion_complete (debouncer : Debouncer κ) (key : κ) (version : Nat) :
    (debouncer.complete key version).lastVersion = debouncer.lastVersion := by
  rw [complete]
  split <;> rfl

omit [LawfulBEq κ] in
@[simp] theorem delay_complete (debouncer : Debouncer κ) (key : κ) (version : Nat) :
    (debouncer.complete key version).delay = debouncer.delay := by
  rw [complete]
  split <;> rfl

theorem isCurrent_complete {debouncer : Debouncer κ} {key other : κ} {version ended : Nat}
    (h : debouncer.isCurrent key version = true) (hEnded : ended ≠ version) :
    (debouncer.complete other ended).isCurrent key version = true := by
  rw [complete]
  split
  · rename_i hOther
    have hKeys : key ≠ other := by
      rintro rfl
      rw [isCurrent_iff] at h hOther
      rw [h] at hOther
      exact hEnded (Option.some.inj hOther).symm
    rw [isCurrent_iff, version?_cancel_of_ne _ hKeys]
    exact isCurrent_iff.mp h
  · exact h

/-! ### Versions that are current -/

theorem isCurrent_bump {debouncer : Debouncer κ} {version : Nat}
    (hOld : version ≤ debouncer.lastVersion) (called key : κ) :
    (debouncer.bump called).isCurrent key version = true ↔
      debouncer.isCurrent key version = true ∧ called ≠ key := by
  rw [isCurrent_iff, isCurrent_iff]
  by_cases hKey : key = called
  · subst hKey
    rw [version?_bump_self]
    constructor
    · intro h
      have := Option.some.inj h
      omega
    · rintro ⟨-, h⟩
      exact absurd rfl h
  · rw [version?_bump_of_ne _ hKey]
    exact (and_iff_left (Ne.symm hKey)).symm

theorem isCurrent_cancel (debouncer : Debouncer κ) (cancelled key : κ) (version : Nat) :
    (debouncer.cancel cancelled).isCurrent key version = true ↔
      debouncer.isCurrent key version = true ∧ cancelled ≠ key := by
  rw [isCurrent_iff, isCurrent_iff]
  by_cases hKey : key = cancelled
  · subst hKey
    simp [version?, cancel, lookup_filter_self]
  · rw [version?_cancel_of_ne _ hKey]
    exact (and_iff_left (Ne.symm hKey)).symm

theorem isCurrent_complete_of_ne {ended version : Nat} (h : ended ≠ version)
    (debouncer : Debouncer κ) (other key : κ) :
    (debouncer.complete other ended).isCurrent key version = true ↔
      debouncer.isCurrent key version = true := by
  constructor
  · rw [complete]
    split
    · exact fun hCurrent => ((isCurrent_cancel _ _ _ _).mp hCurrent).1
    · exact id
  · exact fun hCurrent => isCurrent_complete hCurrent h

theorem isCurrent_complete_self (debouncer : Debouncer κ) (key : κ) (version : Nat) :
    (debouncer.complete key version).isCurrent key version = false := by
  rw [complete]
  split
  · rw [← Bool.not_eq_true, isCurrent_cancel]
    exact fun h => h.2 rfl
  · rename_i h
    simpa using h

/-! ### Keys -/

theorem version?_of_complete {debouncer : Debouncer κ} {other key : κ} {ended version : Nat}
    (h : (debouncer.complete other ended).version? key = some version) :
    debouncer.version? key = some version := by
  rw [complete] at h
  split at h
  · exact isCurrent_iff.mp ((isCurrent_cancel _ _ _ _).mp (isCurrent_iff.mpr h)).1
  · exact h

def HasDistinctKeys (debouncer : Debouncer κ) : Prop := (debouncer.versions.map Prod.fst).Nodup

namespace HasDistinctKeys

variable {debouncer : Debouncer κ}

omit [LawfulBEq κ] in
theorem cancel (h : debouncer.HasDistinctKeys) (key : κ) :
    (debouncer.cancel key).HasDistinctKeys :=
  List.Nodup.sublist (List.filter_sublist.map _) h

omit [LawfulBEq κ] in
theorem complete (h : debouncer.HasDistinctKeys) (key : κ) (version : Nat) :
    (debouncer.complete key version).HasDistinctKeys := by
  rw [Debouncer.complete]
  split
  · exact h.cancel key
  · exact h

theorem bump (h : debouncer.HasDistinctKeys) (key : κ) : (debouncer.bump key).HasDistinctKeys := by
  have hOthers := h.cancel key
  rw [HasDistinctKeys, Debouncer.bump, List.map_cons, List.nodup_cons]
  refine ⟨?_, hOthers⟩
  rw [List.mem_map]
  rintro ⟨entry, hEntry, rfl⟩
  simp at hEntry

end HasDistinctKeys

theorem mem_keys_iff (debouncer : Debouncer κ) (key : κ) :
    key ∈ debouncer.versions.map Prod.fst ↔ ∃ version, debouncer.version? key = some version := by
  rw [version?]
  induction debouncer.versions with
  | nil => simp
  | cons entry entries ih =>
    rw [List.map_cons, List.mem_cons, List.lookup_cons]
    by_cases hKey : key = entry.1
    · simp [hKey]
    · have hOther : (key == entry.1) = false := by simpa using hKey
      rw [hOther, ih]
      exact or_iff_right hKey

end PhoenixLens.Debouncer
