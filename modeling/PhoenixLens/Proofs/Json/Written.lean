import Mathlib.Data.List.Basic
import Mathlib.Data.List.Induction
import Mathlib.Data.List.Nodup
import PhoenixLens.Json.Parser
import PhoenixLens.Json.Printer

/-!
# What printed values come back as

The compact form lists the members of an object by name, so a value comes back with its members in
that order. A value that is written has members of different names, numbers that are kept as such,
and no more containers inside each other than can be read.
-/

namespace PhoenixLens.Json

/-! ### Members by name -/

section

variable {β γ : Type}

/-- Inserts a member into members ordered by name, in place of one with its name. -/
def insertByName (name : String) (value : β) : List (String × β) → List (String × β)
  | [] => [(name, value)]
  | (key, other) :: rest =>
    if name < key then (name, value) :: (key, other) :: rest
    else if name == key then (name, value) :: rest
    else (key, other) :: insertByName name value rest

/-- The members in order of their names. -/
def byName (members : List (String × β)) : List (String × β) :=
  members.foldl (fun ordered m => insertByName m.1 m.2 ordered) []

/-- The members with other values under the same names. -/
def mapValues (f : β → γ) (members : List (String × β)) : List (String × γ) :=
  members.map fun m => (m.1, f m.2)

theorem map_fst_mapValues (f : β → γ) (members : List (String × β)) :
    (mapValues f members).map (·.1) = members.map (·.1) := by
  simp [mapValues, Function.comp_def]

@[simp] theorem byName_nil : byName ([] : List (String × β)) = [] := rfl

theorem byName_concat (members : List (String × β)) (m : String × β) :
    byName (members ++ [m]) = insertByName m.1 m.2 (byName members) := by
  rw [byName, List.foldl_concat, byName]

theorem insertMember_eq_insertByName (name : String) (rendered : List Char)
    (members : List (String × List Char)) :
    insertMember name rendered members = insertByName name rendered members := by
  induction members with
  | nil => rfl
  | cons m members ih => rw [insertMember, insertByName, ih]

theorem mapValues_insertByName (f : β → γ) (name : String) (value : β)
    (members : List (String × β)) :
    mapValues f (insertByName name value members) =
      insertByName name (f value) (mapValues f members) := by
  induction members with
  | nil => rfl
  | cons m members ih =>
    simp only [mapValues, List.map_cons, insertByName] at ih ⊢
    split
    · rfl
    · split
      · rfl
      · rw [List.map_cons, ih]

theorem mapValues_byName (f : β → γ) (members : List (String × β)) :
    mapValues f (byName members) = byName (mapValues f members) := by
  induction members using List.reverseRecOn with
  | nil => rfl
  | append_singleton members m ih =>
    have hConcat : mapValues f (members ++ [m]) = mapValues f members ++ [(m.1, f m.2)] :=
      List.map_append
    rw [byName_concat, mapValues_insertByName, ih, hConcat, byName_concat]

theorem insertByName_perm {name : String} {members : List (String × β)}
    (hNew : name ∉ members.map (·.1)) (value : β) :
    (insertByName name value members).Perm ((name, value) :: members) := by
  induction members with
  | nil => exact .refl _
  | cons m members ih =>
    rw [List.map_cons, List.mem_cons, not_or] at hNew
    obtain ⟨hOther, hRest⟩ := hNew
    rw [insertByName, beq_false_of_ne hOther]
    split
    · exact .refl _
    · exact ((ih hRest).cons m).trans (.swap _ _ _)

theorem byName_perm {members : List (String × β)} (hNames : (members.map (·.1)).Nodup) :
    (byName members).Perm members := by
  induction members using List.reverseRecOn with
  | nil => exact .refl _
  | append_singleton members m ih =>
    rw [List.map_append, List.nodup_append] at hNames
    obtain ⟨hBefore, -, hApart⟩ := hNames
    have hSame := ih hBefore
    have hNew : m.1 ∉ (byName members).map (·.1) := by
      intro hMem
      exact hApart _ ((hSame.map _).mem_iff.mp hMem) _ (by simp) rfl
    rw [byName_concat]
    have hConcat := List.perm_append_singleton m members
    exact (insertByName_perm hNew m.2).trans ((hSame.cons m).trans hConcat.symm)

theorem nodup_byName {members : List (String × β)} (hNames : (members.map (·.1)).Nodup) :
    ((byName members).map (·.1)).Nodup :=
  ((byName_perm hNames).map _).nodup_iff.mpr hNames

/-- Of members with different names, one is alone under its name. -/
theorem filter_eq_singleton {members : List (String × β)} (hNames : (members.map (·.1)).Nodup)
    {m : String × β} (hm : m ∈ members) : members.filter (·.1 == m.1) = [m] := by
  induction members with
  | nil => cases hm
  | cons n members ih =>
    rw [List.map_cons, List.nodup_cons] at hNames
    obtain ⟨hNew, hRest⟩ := hNames
    rcases List.mem_cons.mp hm with rfl | hMember
    · have hNone : members.filter (·.1 == m.1) = [] := by
        refine List.filter_eq_nil_iff.mpr fun n hn hName => hNew ?_
        rw [← eq_of_beq hName]
        exact List.mem_map_of_mem hn
      rw [List.filter_cons, BEq.rfl, if_pos rfl, hNone]
    · have hOther : (n.1 == m.1) = false := by
        refine beq_false_of_ne fun hName => hNew ?_
        rw [hName]
        exact List.mem_map_of_mem hMember
      rw [List.filter_cons, hOther, if_neg (by decide), ih hRest hMember]

theorem filter_byName {members : List (String × β)} (hNames : (members.map (·.1)).Nodup)
    {m : String × β} (hm : m ∈ members) : (byName members).filter (·.1 == m.1) = [m] :=
  filter_eq_singleton (nodup_byName hNames) ((byName_perm hNames).mem_iff.mpr hm)

end

/-! ### Values -/

mutual

/-- The value with the members of each object in order of their names. -/
def ordered : Json → Json
  | arr items => arr (orderedItems items)
  | obj members => obj (byName (orderedMembers members))
  | value => value

def orderedItems : List Json → List Json
  | [] => []
  | item :: items => ordered item :: orderedItems items

def orderedMembers : List (String × Json) → List (String × Json)
  | [] => []
  | (name, value) :: members => (name, ordered value) :: orderedMembers members

end

theorem orderedItems_eq (items : List Json) : orderedItems items = items.map ordered := by
  induction items with
  | nil => rfl
  | cons item items ih => rw [orderedItems, ih, List.map_cons]

theorem orderedMembers_eq (members : List (String × Json)) :
    orderedMembers members = mapValues ordered members := by
  induction members with
  | nil => rfl
  | cons m members ih => rw [orderedMembers, ih]; rfl

/-- Values that are written, with containers inside each other to the given depth. -/
inductive Written : Nat → Json → Prop where
  | null {depth : Nat} : Written depth null
  | bool {depth : Nat} (b : Bool) : Written depth (.bool b)
  | nat {depth n : Nat} (h : n < UInt64.size) : Written depth (.int n)
  | str {depth : Nat} (s : String) : Written depth (.str s)
  | arr {depth : Nat} {items : List Json} (h : ∀ item ∈ items, Written depth item) :
    Written (depth + 1) (.arr items)
  | obj {depth : Nat} {members : List (String × Json)} (hNames : (members.map (·.1)).Nodup)
    (h : ∀ m ∈ members, Written depth m.2) : Written (depth + 1) (.obj members)

theorem areReadable_iff {items : List Json} :
    areReadable items = true ↔ ∀ item ∈ items, item.isReadable = true := by
  induction items with
  | nil => simp [areReadable]
  | cons item items ih => simp [areReadable, ih]

theorem haveReadable_iff {members : List (String × Json)} :
    haveReadable members = true ↔ ∀ m ∈ members, m.2.isReadable = true := by
  induction members with
  | nil => simp [haveReadable]
  | cons m members ih => simp [haveReadable, ih]

namespace Written

variable {α : Type} {depth : Nat}

theorem isReadable_ordered {value : Json} (h : Written depth value) :
    value.ordered.isReadable = true := by
  induction h with
  | null | bool | nat | str => rfl
  | arr h ih =>
    rw [ordered, orderedItems_eq, isReadable, areReadable_iff]
    intro item hItem
    obtain ⟨before, hBefore, rfl⟩ := List.mem_map.mp hItem
    exact ih before hBefore
  | @obj _ members hNames h ih =>
    rw [ordered, orderedMembers_eq, isReadable, haveReadable_iff]
    intro m hm
    have hOrdered : ((mapValues ordered members).map (·.1)).Nodup := by
      rwa [map_fst_mapValues]
    obtain ⟨before, hBefore, rfl⟩ := List.mem_map.mp ((byName_perm hOrdered).mem_iff.mp hm)
    exact ih before hBefore

theorem option {encode : α → Json} {value : Option α}
    (h : ∀ a, value = some a → Written depth (encode a)) :
    Written depth (Json.option encode value) := by
  cases value with
  | none => exact .null
  | some a => exact h a rfl

theorem list {encode : α → Json} {items : List α} (h : ∀ a ∈ items, Written depth (encode a)) :
    Written (depth + 1) (Json.list encode items) := by
  refine .arr fun item hItem => ?_
  obtain ⟨a, hMember, rfl⟩ := List.mem_map.mp hItem
  exact h a hMember

end Written

end PhoenixLens.Json
