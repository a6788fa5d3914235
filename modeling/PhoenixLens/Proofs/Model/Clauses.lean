import Mathlib.Logic.Relation
import PhoenixLens.Elixir.FunctionComponents
import PhoenixLens.Model.EntityKind

/-!
# Components in several clauses

The clauses of a function component come one after the other, with other components between them.
What is found clause by clause is one component for each module and name, in the order of the first
clauses, and a later clause adds to it what it declares under new names.

Of two declarations of one name the earlier one counts, so it does not matter which clauses are
joined first, and joining once more changes nothing.
-/

namespace PhoenixLens.Component

/-- The items whose names neither are taken nor come before them. -/
def untaken {α : Type} (name : α → String) : List String → List α → List α
  | _, [] => []
  | taken, a :: more =>
    if name a ∈ taken then untaken name taken more else a :: untaken name (taken ++ [name a]) more

theorem addNew_eq {α : Type} (name : α → String) (items more : List α) :
    addNew name items more = items ++ untaken name (items.map name) more := by
  induction more generalizing items with
  | nil => exact (List.append_nil items).symm
  | cons a more ih =>
    have hAny : items.any (name · == name a) = true ↔ name a ∈ items.map name := by
      simp [List.any_eq_true, List.mem_map]
    rw [addNew, List.foldl_cons, untaken]
    by_cases hTaken : name a ∈ items.map name
    · rw [if_pos (hAny.mpr hTaken), if_pos hTaken]
      exact ih items
    · rw [if_neg fun h => hTaken (hAny.mp h), if_neg hTaken]
      refine (ih (items ++ [a])).trans ?_
      rw [List.map_append, List.append_assoc]
      rfl

def withClauses (first : Component) (later : List Component) : Component :=
  { first with
    attributes := first.attributes ++
      untaken Attribute.name (first.attributes.map Attribute.name)
        (later.flatMap Component.attributes)
    slots := first.slots ++
      untaken Slot.name (first.slots.map Slot.name) (later.flatMap Component.slots) }

theorem withClauses_nil (first : Component) : first.withClauses [] = first := by
  simp [withClauses, untaken]

theorem withClauses_cons (first other : Component) (later : List Component) :
    first.withClauses (other :: later) = (first.mergeClause other).withClauses later := by
  simp only [withClauses, mergeClause, ← addNew_eq, List.flatMap_cons]
  simp only [addNew, List.foldl_append]

theorem isClauseOf_iff {component other : Component} :
    component.isClauseOf other = true ↔
      component.moduleName = other.moduleName ∧ component.name = other.name := by
  simp [isClauseOf]

theorem isClauseOf_comm (component other : Component) :
    component.isClauseOf other = other.isClauseOf component := by
  rw [Bool.eq_iff_iff, isClauseOf_iff, isClauseOf_iff]
  exact and_congr eq_comm eq_comm

theorem isClauseOf_self (component : Component) : component.isClauseOf component = true :=
  isClauseOf_iff.mpr ⟨rfl, rfl⟩

theorem isClauseOf_congr {first second : Component} (h : first.isClauseOf second = true)
    (other : Component) : first.isClauseOf other = second.isClauseOf other := by
  obtain ⟨hModule, hName⟩ := isClauseOf_iff.mp h
  rw [isClauseOf, isClauseOf, hModule, hName]

/-- The components that clauses make up, in the order of the first ones. -/
def merged : List Component → List Component
  | [] => []
  | first :: rest =>
    first.withClauses (rest.filter first.isClauseOf) ::
      (merged rest).filter fun other => !first.isClauseOf other

/-- No two of the components are clauses of one. -/
def AreApart (found : List Component) : Prop :=
  found.Pairwise fun first second => first.isClauseOf second = false

/-- The component has no clause among the others. -/
def isNew (found : List Component) (component : Component) : Bool :=
  found.all fun first => !first.isClauseOf component

/-- A component with a further clause, if it is one of its own. -/
def extended (first clause : Component) : Component :=
  if first.isClauseOf clause then first.mergeClause clause else first

theorem isClauseOf_extended (first clause : Component) :
    (first.extended clause).isClauseOf = first.isClauseOf := by
  rw [extended]
  split <;> rfl

theorem isClauseOf_extended_right (first clause other : Component) :
    other.isClauseOf (first.extended clause) = other.isClauseOf first := by
  rw [extended]
  split <;> rfl

theorem extended_withClauses (first clause : Component) (later : List Component) :
    (first.extended clause).withClauses (later.filter first.isClauseOf) =
      first.withClauses ((clause :: later).filter first.isClauseOf) := by
  rw [extended, List.filter_cons]
  split
  · exact (withClauses_cons _ _ _).symm
  · rfl

end PhoenixLens.Component

namespace PhoenixLens.Elixir

open Component

variable {found : List Component} {clause : Component}

/-- A clause of a component that has been found is added to it. -/
theorem addClause_of_mem (hApart : AreApart found)
    (h : ∃ first ∈ found, first.isClauseOf clause = true) :
    addClause found clause = found.map (extended · clause) := by
  induction found with
  | nil => simp at h
  | cons first found ih =>
    obtain ⟨hFirst, hRest⟩ := List.pairwise_cons.mp hApart
    rw [addClause, List.map_cons, extended]
    by_cases hClause : first.isClauseOf clause = true
    · have hOthers : ∀ other ∈ found, other.extended clause = other := by
        intro other hOther
        rw [extended, if_neg]
        intro hSame
        have hApartOther := hFirst other hOther
        rw [isClauseOf_congr hClause, isClauseOf_comm, hSame] at hApartOther
        cases hApartOther
      rw [if_pos hClause, if_pos hClause, List.map_congr_left hOthers, List.map_id']
    · rw [if_neg hClause, if_neg hClause]
      refine congrArg _ (ih hRest ?_)
      obtain ⟨other, hOther, hSame⟩ := h
      rcases List.mem_cons.mp hOther with rfl | hLater
      · exact absurd hSame hClause
      · exact ⟨other, hLater, hSame⟩

theorem addClause_of_not_mem (h : ∀ first ∈ found, first.isClauseOf clause = false) :
    addClause found clause = found ++ [clause] := by
  induction found with
  | nil => rfl
  | cons first found ih =>
    obtain ⟨hFirst, hRest⟩ := List.forall_mem_cons.mp h
    rw [addClause, hFirst, if_neg Bool.false_ne_true, ih hRest, List.cons_append]

theorem foldl_addClause_eq (hApart : AreApart found) (clauses : List Component) :
    clauses.foldl addClause found =
      found.map (fun first => first.withClauses (clauses.filter first.isClauseOf)) ++
        (merged clauses).filter (isNew found) := by
  induction clauses generalizing found with
  | nil => simp [merged, withClauses_nil]
  | cons clause clauses ih =>
    rw [List.foldl_cons, merged]
    cases hNew : isNew found clause with
    | false =>
      obtain ⟨first, hFirst, hSame⟩ : ∃ first ∈ found, first.isClauseOf clause = true := by
        simpa [isNew] using hNew
      have hExtended : AreApart (found.map (extended · clause)) := by
        rw [AreApart, List.pairwise_map]
        refine hApart.imp fun {first second} h => ?_
        rwa [isClauseOf_extended, isClauseOf_extended_right]
      have hOwn : ∀ first ∈ found,
          ((fun first => first.withClauses (clauses.filter first.isClauseOf)) ∘ (extended · clause))
              first = first.withClauses ((clause :: clauses).filter first.isClauseOf) := by
        intro first _
        rw [← extended_withClauses, ← isClauseOf_extended first clause]
        rfl
      have hTaken : isNew found (clause.withClauses (clauses.filter clause.isClauseOf)) = false :=
        hNew
      rw [addClause_of_mem hApart ⟨first, hFirst, hSame⟩, ih hExtended, List.map_map,
        List.map_congr_left hOwn, List.filter_cons_of_neg (by simp [hTaken]), List.filter_filter]
      refine congrArg _ (List.filter_congr fun other _ => ?_)
      have hSameNew : isNew (found.map (extended · clause)) other = isNew found other := by
        simp [isNew, isClauseOf_extended, Function.comp_def]
      cases hOther : isNew found other with
      | false => rw [hSameNew, hOther, Bool.false_and]
      | true =>
        have hNot := List.all_eq_true.mp hOther first hFirst
        rw [isClauseOf_congr hSame] at hNot
        rw [hSameNew, hOther, hNot, Bool.and_self]
    | true =>
      have hNone : ∀ first ∈ found, first.isClauseOf clause = false := by
        simpa [isNew] using hNew
      have hAppended : AreApart (found ++ [clause]) := by
        refine List.pairwise_append.mpr ⟨hApart, List.pairwise_singleton _ _, ?_⟩
        intro first hFirst
        simpa using hNone first hFirst
      have hFree : isNew found (clause.withClauses (clauses.filter clause.isClauseOf)) = true :=
        hNew
      have hOthers : ∀ first ∈ found, first.withClauses (clauses.filter first.isClauseOf) =
          first.withClauses ((clause :: clauses).filter first.isClauseOf) := by
        intro first hFirst
        rw [List.filter_cons_of_neg (by simp [hNone first hFirst])]
      rw [addClause_of_not_mem hNone, ih hAppended, List.map_append, List.append_assoc,
        List.map_congr_left hOthers, List.filter_cons_of_pos hFree, List.filter_filter]
      have hBoth : isNew (found ++ [clause]) =
          fun other => isNew found other && !clause.isClauseOf other := by
        funext other
        simp [isNew, List.all_append]
      rw [hBoth]
      rfl

/-- Clauses added one by one are the components that they make up. -/
theorem foldl_addClause (clauses : List Component) :
    clauses.foldl addClause [] = merged clauses := by
  rw [foldl_addClause_eq List.Pairwise.nil, List.map_nil, List.nil_append]
  exact List.filter_eq_self.mpr fun _ _ => rfl

end PhoenixLens.Elixir

namespace PhoenixLens.Component

open Elixir (addClause componentsOf)

/-! ### Items of other names -/

section

variable {α : Type} (name : α → String)

theorem addNew_append (items more further : List α) :
    addNew name items (more ++ further) = addNew name (addNew name items more) further :=
  List.foldl_append

theorem addNew_singleton (items : List α) (a : α) :
    addNew name items [a] = if name a ∈ items.map name then items else items ++ [a] := by
  rw [addNew_eq, untaken, untaken]
  split
  · exact List.append_nil items
  · rfl

theorem mem_map_addNew_iff {key : String} {items more : List α} :
    key ∈ (addNew name items more).map name ↔ key ∈ items.map name ∨ key ∈ more.map name := by
  induction more generalizing items with
  | nil => simp [addNew]
  | cons a more ih =>
    rw [← List.singleton_append, addNew_append, ih, addNew_singleton, List.map_append,
      List.mem_append, List.map_singleton, List.mem_singleton]
    split
    · rename_i hTaken
      constructor
      · rintro (h | h)
        · exact .inl h
        · exact .inr (.inr h)
      · rintro (h | rfl | h)
        · exact .inl h
        · exact .inl hTaken
        · exact .inr h
    · rw [List.map_append, List.mem_append, List.map_singleton, List.mem_singleton, or_assoc]

/-- What is new beside some items and then beside others is new beside them together. -/
theorem addNew_assoc (items more further : List α) :
    addNew name items (addNew name more further) =
      addNew name (addNew name items more) further := by
  induction further generalizing more with
  | nil => rfl
  | cons a further ih =>
    rw [← List.singleton_append, addNew_append, addNew_append, ih, addNew_singleton name more]
    split
    · rename_i hTaken
      rw [addNew_singleton, if_pos ((mem_map_addNew_iff name).mpr (.inr hTaken))]
    · rw [addNew_append]

/-- The first item of each name that is not taken. -/
theorem untaken_eq (taken : List String) (more : List α) :
    untaken name taken more =
      (more.filter fun a => name a ∉ taken).eraseDupsBy fun a b => name a == name b := by
  induction more generalizing taken with
  | nil => rfl
  | cons a more ih =>
    rw [untaken, List.filter_cons]
    by_cases h : name a ∈ taken
    · rw [if_pos h, if_neg (by simpa using h)]
      exact ih taken
    · rw [if_neg h, if_pos (by simpa using h), ih, List.eraseDupsBy_cons, List.filter_filter]
      congr 2
      refine List.filter_congr fun b _ => ?_
      simp [and_comm]

/-- A name has its first item where items are added. -/
theorem find?_addNew (items more : List α) (key : String) :
    (addNew name items more).find? (name · == key) = (items ++ more).find? (name · == key) := by
  induction more generalizing items with
  | nil => rw [List.append_nil]; rfl
  | cons a more ih =>
    rw [← List.singleton_append, addNew_append, ih, addNew_singleton, ← List.append_assoc]
    split
    · rename_i hTaken
      obtain ⟨b, hb, hName⟩ := List.mem_map.mp hTaken
      simp only [List.find?_append]
      by_cases hKey : name a = key
      · have hFound : (items.find? (name · == key)).isSome = true :=
          List.find?_isSome.mpr ⟨b, hb, by simp [hName, hKey]⟩
        obtain ⟨found, hFound⟩ := Option.isSome_iff_exists.mp hFound
        simp [hFound]
      · have hOther : [a].find? (name · == key) = none := by simp [hKey]
        rw [hOther, Option.or_none]
    · rfl

end

/-! ### Clauses of one component -/

theorem mergeClause_assoc (first second third : Component) :
    (first.mergeClause second).mergeClause third =
      first.mergeClause (second.mergeClause third) := by
  simp only [mergeClause, addNew_assoc]

theorem withClauses_eq_foldl (first : Component) (later : List Component) :
    first.withClauses later = later.foldl mergeClause first := by
  induction later generalizing first with
  | nil => exact first.withClauses_nil
  | cons other later ih => rw [withClauses_cons, ih, List.foldl_cons]

/-- Two later clauses that follow each other are one. -/
theorem withClauses_mergeClause (first second third : Component) (front back : List Component) :
    first.withClauses (front ++ second.mergeClause third :: back) =
      first.withClauses (front ++ second :: third :: back) := by
  simp only [withClauses_eq_foldl, List.foldl_append, List.foldl_cons, mergeClause_assoc]

/-! ### Components that clauses make up -/

/-- What belongs to the clauses of one component alone is chosen before or after joining them. -/
theorem filter_merged {p : Component → Bool}
    (hp : ∀ {first second : Component}, first.isClauseOf second = true → p first = p second)
    (clauses : List Component) : (merged clauses).filter p = merged (clauses.filter p) := by
  induction clauses with
  | nil => rfl
  | cons first rest ih =>
    have hFirst : p (first.withClauses (rest.filter first.isClauseOf)) = p first :=
      hp (isClauseOf_iff.mpr ⟨rfl, rfl⟩)
    rw [merged, List.filter_cons, hFirst, List.filter_cons, List.filter_filter]
    cases hChosen : p first with
    | true =>
      have hOwn : (rest.filter p).filter first.isClauseOf = rest.filter first.isClauseOf := by
        rw [List.filter_filter]
        refine List.filter_congr fun other _ => ?_
        cases hOther : first.isClauseOf other with
        | true => rw [← hp hOther, hChosen, Bool.and_self]
        | false => exact Bool.false_and _
      rw [if_pos rfl, if_pos rfl, merged, hOwn, ← ih, List.filter_filter]
      simp only [Bool.and_comm]
    | false =>
      rw [if_neg Bool.false_ne_true, if_neg Bool.false_ne_true, ← ih]
      refine List.filter_congr fun other _ => ?_
      cases hOther : first.isClauseOf other with
      | true => rw [← hp hOther, hChosen, Bool.false_and]
      | false => exact Bool.and_true _

theorem areApart_merged (clauses : List Component) : AreApart (merged clauses) := by
  induction clauses with
  | nil => exact .nil
  | cons first rest ih =>
    refine .cons (fun other hOther => ?_) (ih.filter _)
    have hNot := (List.mem_filter.mp hOther).2
    rwa [Bool.not_eq_true'] at hNot

theorem merged_of_areApart {found : List Component} (h : AreApart found) :
    merged found = found := by
  induction found with
  | nil => rfl
  | cons first rest ih =>
    obtain ⟨hFirst, hRest⟩ := List.pairwise_cons.mp h
    have hOwn : rest.filter first.isClauseOf = [] :=
      List.filter_eq_nil_iff.mpr fun other hOther => by simp [hFirst other hOther]
    have hOthers : rest.filter (fun other => !first.isClauseOf other) = rest :=
      List.filter_eq_self.mpr fun other hOther => by simp [hFirst other hOther]
    rw [merged, hOwn, withClauses_nil, ih hRest, hOthers]

theorem exists_of_mem_merged {clauses : List Component} {c : Component} (h : c ∈ merged clauses) :
    ∃ first later, clauses.filter c.isClauseOf = first :: later ∧ c = first.withClauses later := by
  induction clauses with
  | nil => cases h
  | cons first rest ih =>
    rcases List.mem_cons.mp h with rfl | hRest
    · refine ⟨first, rest.filter first.isClauseOf, ?_, rfl⟩
      exact List.filter_cons_of_pos first.isClauseOf_self
    · obtain ⟨hMem, hOther⟩ := List.mem_filter.mp hRest
      have hNot : c.isClauseOf first = false := by
        rw [isClauseOf_comm]
        simpa using hOther
      rw [List.filter_cons_of_neg (by simp [hNot])]
      exact ih hMem

def key (component : Component) : String × String := (component.moduleName, component.name)

theorem isClauseOf_iff_key {component other : Component} :
    component.isClauseOf other = true ↔ component.key = other.key := by
  rw [isClauseOf_iff, key, key, Prod.mk.injEq]

theorem map_key_merged (clauses : List Component) :
    (merged clauses).map key = (clauses.map key).eraseDups := by
  induction hLength : clauses.length using Nat.strongRecOn generalizing clauses with
  | _ n ih =>
    cases clauses with
    | nil => rfl
    | cons first rest =>
      have hSplit : (fun other => !first.isClauseOf other) = (fun k => !k == first.key) ∘ key := by
        funext other
        rw [Function.comp_apply, Bool.eq_iff_iff]
        simp [← isClauseOf_iff_key, isClauseOf_comm]
      have hShort : (rest.filter fun other => !first.isClauseOf other).length < n := by
        rw [← hLength]
        exact Nat.lt_succ_of_le (List.length_filter_le _ _)
      have hApart {a b : Component} (h : a.isClauseOf b = true) :
          (!first.isClauseOf a) = !first.isClauseOf b := by
        rw [isClauseOf_comm first, isClauseOf_comm first, isClauseOf_congr h]
      rw [merged, List.map_cons, filter_merged hApart, ih _ hShort _ rfl, List.map_cons,
        List.eraseDups_cons, hSplit, ← List.filter_map]
      rfl

/-! ### Clauses that are joined before -/

/-- Two clauses of a component with none of its clauses between them are joined. -/
inductive Joins : List Component → List Component → Prop where
  | intro {first second : Component} {before between after : List Component}
      (hSame : first.isClauseOf second = true)
      (hBetween : ∀ other ∈ between, first.isClauseOf other = false) :
      Joins (before ++ first :: (between ++ second :: after))
        (before ++ first.mergeClause second :: (between ++ after))

theorem merged_joins {clauses joined : List Component} (h : Joins clauses joined) :
    merged joined = merged clauses := by
  obtain @⟨first, second, before, between, after, hSame, hBetween⟩ := h
  have hNone : between.filter first.isClauseOf = [] :=
    List.filter_eq_nil_iff.mpr fun other hOther => by simp [hBetween other hOther]
  induction before with
  | nil =>
    have hApart {a b : Component} (h : a.isClauseOf b = true) :
        (!first.isClauseOf a) = !first.isClauseOf b := by
      rw [isClauseOf_comm first, isClauseOf_comm first, isClauseOf_congr h]
    have hOwn : (between ++ second :: after).filter first.isClauseOf =
        second :: after.filter first.isClauseOf := by
      rw [List.filter_append, hNone, List.nil_append, List.filter_cons_of_pos hSame]
    have hLater : (between ++ after).filter first.isClauseOf = after.filter first.isClauseOf := by
      rw [List.filter_append, hNone, List.nil_append]
    have hOthers : (between ++ second :: after).filter (fun other => !first.isClauseOf other) =
        (between ++ after).filter fun other => !first.isClauseOf other := by
      rw [List.filter_append, List.filter_cons_of_neg (by simp [hSame]), ← List.filter_append]
    have hMerged : (first.mergeClause second).isClauseOf = first.isClauseOf := rfl
    rw [List.nil_append, List.nil_append, merged, merged, hMerged, hOwn, withClauses_cons, hLater,
      filter_merged hApart, filter_merged hApart, hOthers]
  | cons other before ih =>
    rw [List.cons_append, List.cons_append, merged, merged, ih]
    refine congrArg (· :: _) ?_
    simp only [List.filter_append, List.filter_cons]
    cases hOther : other.isClauseOf first with
    | false =>
      have hSecond : other.isClauseOf second = false := by
        rw [isClauseOf_comm, ← isClauseOf_congr hSame, isClauseOf_comm, hOther]
      have hMerged : other.isClauseOf (first.mergeClause second) = false := hOther
      simp [hSecond, hMerged]
    | true =>
      have hSecond : other.isClauseOf second = true := by
        rw [isClauseOf_congr hOther, hSame]
      have hMerged : other.isClauseOf (first.mergeClause second) = true := hOther
      have hClauses : other.isClauseOf = first.isClauseOf := funext (isClauseOf_congr hOther)
      rw [hMerged, hSecond, hClauses, hNone]
      exact withClauses_mergeClause other first second _ _

/-- Any clauses are joined, one after the other. -/
def Regroups : List Component → List Component → Prop := Relation.ReflTransGen Joins

theorem merged_regroups {clauses joined : List Component} (h : Regroups clauses joined) :
    merged joined = merged clauses := by
  induction h with
  | refl => rfl
  | tail _ hLast ih => rw [merged_joins hLast, ih]

/-! ### Components of a file -/

def inFile (path : Path) (component : Component) : Component := { component with filePath := path }

theorem addComponent_eq_addClause (found : List Component) (clause : Component) :
    addComponent found clause = addClause found clause := by
  have hMerge (h : found.any (·.isClauseOf clause) = true) :
      addComponent.mergeFirst clause found = addClause found clause := by
    induction found with
    | nil => cases h
    | cons first rest ih =>
      rw [addComponent.mergeFirst, addClause]
      split
      · rfl
      · rename_i hOther
        rw [List.any_cons, Bool.or_eq_true] at h
        rw [ih (h.resolve_left hOther)]
  rw [addComponent]
  split
  · rename_i hAny
    exact hMerge hAny
  · rename_i hNone
    exact (Elixir.addClause_of_not_mem (by simpa using hNone)).symm

theorem ofFile_eq (path : Path) (clauses : List Component) :
    EntityKind.components.ofFile path clauses = merged (clauses.map (inFile path)) := by
  have hAdd : addComponent = addClause :=
    funext fun found => funext (addComponent_eq_addClause found)
  rw [EntityKind.ofFile, hAdd, Elixir.foldl_addClause]
  rfl

theorem withClauses_inFile (path : Path) (first : Component) (later : List Component) :
    (first.inFile path).withClauses (later.map (inFile path)) =
      (first.withClauses later).inFile path := by
  simp only [withClauses, inFile, List.flatMap_map]

theorem merged_map_inFile (path : Path) (clauses : List Component) :
    merged (clauses.map (inFile path)) = (merged clauses).map (inFile path) := by
  induction clauses with
  | nil => rfl
  | cons first rest ih =>
    rw [List.map_cons, merged, merged, List.map_cons, ih, List.filter_map, List.filter_map,
      ← withClauses_inFile]
    rfl

theorem AreApart.map_inFile {found : List Component} (h : AreApart found) (path : Path) :
    AreApart (found.map (inFile path)) := List.pairwise_map.mpr h

theorem AreApart.addClause {found : List Component} (h : AreApart found) (clause : Component) :
    AreApart (Elixir.addClause found clause) := by
  have hAdded : Elixir.addClause found clause = merged (found ++ [clause]) := by
    rw [← Elixir.foldl_addClause, List.foldl_append, Elixir.foldl_addClause, merged_of_areApart h]
    rfl
  rw [hAdded]
  exact areApart_merged _

end PhoenixLens.Component

namespace PhoenixLens.Elixir.ComponentState

open Component (AreApart)

variable {state : ComponentState}

/-- A line adds a clause where it defines a component, and no other line adds one. -/
theorem found_apply (state : ComponentState) (file : Path) (line : Nat) (read : ComponentLine) :
    (state.apply file line read).found = state.found ∨
      ∃ (name : List Char) (clause : Component), read = .defines name true ∧
        clause.name = String.ofList name ∧ clause.line = line ∧
        (state.apply file line read).found = addClause state.found clause := by
  cases read with
  | nothing => exact .inl rfl
  | declaresAttribute declared =>
    refine .inl ?_
    cases declared with
    | none => rfl
    | some declared =>
      rw [apply]
      split <;> rfl
  | declaresSlot declared opensBlock =>
    refine .inl ?_
    cases declared with
    | none => rfl
    | some slot =>
      rw [apply]
      split <;> rfl
  | defines name isComponent =>
    rw [apply, define]
    cases state.tracker.currentModule? with
    | none => exact .inl rfl
    | some moduleName =>
      cases isComponent with
      | false => exact .inl rfl
      | true => exact .inr ⟨name, _, rfl, rfl, rfl, rfl⟩

theorem found_closeSlot (state : ComponentState) : state.closeSlot.found = state.found := by
  rw [closeSlot]
  split
  · split <;> rfl
  · rfl

theorem areApart_takeLine (h : AreApart state.found) (file : Path) (line : LogicalLine) :
    AreApart (state.takeLine file line).found := by
  rw [takeLine]
  split
  · exact h
  · rw [found_closeSlot, settle]
    rcases state.found_apply file line.line (readComponentLine line) with
      hKept | ⟨_, _, -, -, -, hAdded⟩
    · rwa [hKept]
    · rw [hAdded]
      exact h.addClause _

end PhoenixLens.Elixir.ComponentState

namespace PhoenixLens.Component

open Elixir (addClause componentsOf)

theorem areApart_componentsOf (file : Path) (source : List Char) :
    AreApart (componentsOf file source) :=
  List.foldlRecOn (motive := fun state => AreApart (Elixir.ComponentState.found state)) _ _ .nil
    fun _ h line _ => Elixir.ComponentState.areApart_takeLine h file line

/-! ### The union -/

/-- The items with names that neither the others have nor an item before them. -/
def ofNewNames {α : Type} (name : α → String) (items more : List α) : List α :=
  (more.filter fun a => name a ∉ items.map name).eraseDupsBy fun a b => name a == name b

/-- A component stands for its clauses: the first one with what later ones declare under new
names, so that the earliest declaration of each name is found. -/
structure StandsFor (component first : Component) (later : List Component) : Prop where
  line : component.line = first.line
  attributes : component.attributes = first.attributes ++
    ofNewNames Attribute.name first.attributes (later.flatMap Component.attributes)
  slots : component.slots = first.slots ++
    ofNewNames Slot.name first.slots (later.flatMap Component.slots)
  findAttribute? (name : String) : component.findAttribute? name =
    ((first :: later).flatMap Component.attributes).find? (·.name == name)
  findSlot? (name : String) : component.findSlot? name =
    ((first :: later).flatMap Component.slots).find? (·.name == name)

/-- One component stands for all clauses of a module and a name, in the order of the first ones. -/
structure Unites (path : Path) (clauses united : List Component) : Prop where
  keys : united.map key = (clauses.map key).eraseDups
  standsFor : ∀ component ∈ united, component.filePath = path ∧ ∃ first later,
    clauses.filter component.isClauseOf = first :: later ∧ component.StandsFor first later

theorem standsFor_withClauses (first : Component) (later : List Component) :
    (first.withClauses later).StandsFor first later where
  line := rfl
  attributes := congrArg _ (untaken_eq _ _ _)
  slots := congrArg _ (untaken_eq _ _ _)
  findAttribute? key := by
    have hAdded : (first.withClauses later).attributes =
        addNew Attribute.name first.attributes (later.flatMap Component.attributes) :=
      (addNew_eq _ _ _).symm
    rw [findAttribute?, hAdded, find?_addNew, List.flatMap_cons]
  findSlot? key := by
    have hAdded : (first.withClauses later).slots =
        addNew Slot.name first.slots (later.flatMap Component.slots) := (addNew_eq _ _ _).symm
    rw [findSlot?, hAdded, find?_addNew, List.flatMap_cons]

theorem unites_merged (path : Path) (clauses : List Component) :
    Unites path clauses ((merged clauses).map (inFile path)) where
  keys := by
    rw [List.map_map]
    exact map_key_merged clauses
  standsFor component hComponent := by
    obtain ⟨c, hc, rfl⟩ := List.mem_map.mp hComponent
    obtain ⟨first, later, hClauses, hJoined⟩ := exists_of_mem_merged hc
    have hStands := standsFor_withClauses first later
    rw [← hJoined] at hStands
    exact ⟨rfl, first, later, hClauses, hStands.line, hStands.attributes, hStands.slots,
      hStands.findAttribute?, hStands.findSlot?⟩

/-- The components of a file unite their clauses, in whatever way these are found: added one by
one, joined before, or united already. -/
theorem ofFile_unites (path : Path) (clauses : List Component) :
    Unites path clauses (EntityKind.components.ofFile path clauses) ∧
      (clauses.foldl addClause []).map (inFile path) =
        EntityKind.components.ofFile path clauses ∧
      (∀ joined, Regroups clauses joined →
        EntityKind.components.ofFile path joined = EntityKind.components.ofFile path clauses) ∧
      (∀ other, EntityKind.components.ofFile other (EntityKind.components.ofFile path clauses) =
        (EntityKind.components.ofFile path clauses).map (inFile other)) ∧
      ∀ file source, EntityKind.components.ofFile path (componentsOf file source) =
        (componentsOf file source).map (inFile path) := by
  have hUnited (file : Path) (found : List Component) :
      EntityKind.components.ofFile file found = (merged found).map (inFile file) := by
    rw [ofFile_eq, merged_map_inFile]
  refine ⟨?_, ?_, fun joined hJoined => ?_, fun other => ?_, fun file source => ?_⟩
  · rw [hUnited]
    exact unites_merged path clauses
  · rw [hUnited, Elixir.foldl_addClause]
  · rw [hUnited, hUnited, merged_regroups hJoined]
  · rw [hUnited other, hUnited path,
      merged_of_areApart ((areApart_merged clauses).map_inFile path)]
  · rw [hUnited, merged_of_areApart (areApart_componentsOf file source)]

/-- Three clauses of an icon, the second one behind a badge; `class` is declared twice. -/
def iconClauses : List Component :=
  [{ name := "icon", moduleName := "Shop.Icons", line := 3,
     attributes := [{ name := "class", type := "string" }] },
    { name := "badge", moduleName := "Shop.Icons", line := 8 },
    { name := "icon", moduleName := "Shop.Icons", line := 12,
      attributes := [{ name := "class", type := "atom" }, { name := "size", type := "integer" }] },
    { name := "icon", moduleName := "Shop.Icons", line := 17,
      attributes := [{ name := "size", type := "any" }, { name := "rest", type := "global" }] }]

/-- The icon with its last two clauses joined. -/
def regroupedIcon : List Component :=
  [{ name := "icon", moduleName := "Shop.Icons", line := 3,
     attributes := [{ name := "class", type := "string" }] },
    { name := "badge", moduleName := "Shop.Icons", line := 8 },
    { name := "icon", moduleName := "Shop.Icons", line := 12,
      attributes := [{ name := "class", type := "atom" }, { name := "size", type := "integer" },
        { name := "rest", type := "global" }] }]

theorem ofFile_unites_icon :
    Regroups iconClauses regroupedIcon ∧
      EntityKind.components.ofFile ⟨"/shop/icons.ex"⟩ regroupedIcon =
        [{ name := "icon", moduleName := "Shop.Icons", filePath := ⟨"/shop/icons.ex"⟩, line := 3,
           attributes := [{ name := "class", type := "string" },
             { name := "size", type := "integer" }, { name := "rest", type := "global" }] },
          { name := "badge", moduleName := "Shop.Icons", filePath := ⟨"/shop/icons.ex"⟩,
            line := 8 }] := by
  have hRegroups : Regroups iconClauses regroupedIcon := by
    have hJoins := @Joins.intro (iconClauses.get ⟨2, by decide⟩) (iconClauses.get ⟨3, by decide⟩)
      (iconClauses.take 2) [] [] (by decide) nofun
    exact .single hJoins
  refine ⟨hRegroups, ?_⟩
  rw [(ofFile_unites ⟨"/shop/icons.ex"⟩ iconClauses).2.2.1 regroupedIcon hRegroups]
  decide

end PhoenixLens.Component
