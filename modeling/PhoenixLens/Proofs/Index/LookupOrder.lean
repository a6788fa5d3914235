import Mathlib.Data.String.Basic
import PhoenixLens.Index.Lookup
import PhoenixLens.Proofs.Index.Readings
import PhoenixLens.Proofs.SortedLists

/-!
# Lookups and the order in which files come

Files are read in any order, and a table may list them in any order; every such order is the order
of some reading. Routes are listed in the order of their paths and the schema of a name is chosen by
the name of its module, so they do not depend on it. The first component that fits is taken, and the
first schema of the chosen module, and renders in one line of two files are taken as they come.
-/

namespace PhoenixLens

/-! ### Files in any order -/

namespace Index

variable {σ : Type} {readings order : List (FileReading σ)}

theorem distinct_of_perm (h : Path.Distinct (readings.map (·.path)))
    (hOrder : order.Perm readings) : Path.Distinct (order.map (·.path)) := h.perm (hOrder.map _)

theorem all_perm (h : Path.Distinct (readings.map (·.path))) (hOrder : order.Perm readings)
    (kind : EntityKind) :
    ((readAll order).registry kind).all.Perm ((readAll readings).registry kind).all := by
  rw [all_readAll (distinct_of_perm h hOrder), all_readAll h]
  exact hOrder.flatMap_right _

theorem fromFile_perm (h : Path.Distinct (readings.map (·.path))) (hOrder : order.Perm readings)
    (kind : EntityKind) (path : Path) :
    ((readAll order).registry kind).fromFile path =
      ((readAll readings).registry kind).fromFile path := by
  have hKeys {l : List (FileReading σ)} (h : Path.Distinct (l.map (·.path))) :
      Path.Distinct ((readAll l).registry kind).entries.keys := by
    have hFiles := files_readAll h kind
    rw [FileRegistry.files] at hFiles
    rw [hFiles]
    exact h.map_filter _
  have hOrderApart := distinct_of_perm h hOrder
  rw [FileRegistry.fromFile, FileRegistry.fromFile,
    PathTable.get?_of_perm (hKeys hOrderApart) (hKeys h)]
  rw [(tables_readAll hOrderApart kind).1, (tables_readAll h kind).1]
  exact (hOrder.filter _).map _

/-- Routes are listed in the order of their files' paths. -/
theorem allRoutes_perm (h : Path.Distinct (readings.map (·.path))) (hOrder : order.Perm readings) :
    (readAll order).allRoutes = (readAll readings).allRoutes := by
  have hFiles := files_readAll h .routes
  have hOrderFiles := files_readAll (distinct_of_perm h hOrder) .routes
  have hFrom := fromFile_perm h hOrder .routes
  simp only [registry] at hFiles hOrderFiles hFrom
  have hSort := Path.sort_eq_of_perm (h.map_filter (EntityKind.routes.takes ·.path))
    ((hOrder.filter (EntityKind.routes.takes ·.path)).map (·.path))
  rw [allRoutes, allRoutes, hOrderFiles, hFiles, hSort]
  exact List.flatMap_congr fun path _ => hFrom path

/-! ### The first that fits -/

/-- At most one of the files holds entities that fit. -/
def HeldInOneFile (readings : List (FileReading σ)) (kind : EntityKind)
    (p : kind.Entity → Bool) : Prop :=
  ∀ a ∈ readings, ∀ b ∈ readings, (a.held kind).any p = true → (b.held kind).any p = true →
    a.path.same b.path = true

theorem find?_readAll (h : Path.Distinct (readings.map (·.path))) (kind : EntityKind)
    (p : kind.Entity → Bool) :
    ((readAll readings).registry kind).find? p =
      readings.findSome? fun r => (r.held kind).find? p := by
  rw [FileRegistry.find?, all_readAll h, List.find?_flatMap]

/-- What comes first of two files is not the same, since it says where it comes from. -/
theorem find?_perm_iff (h : Path.Distinct (readings.map (·.path))) (kind : EntityKind)
    (p : kind.Entity → Bool) :
    (∀ order, order.Perm readings →
      ((readAll order).registry kind).find? p = ((readAll readings).registry kind).find? p) ↔
      HeldInOneFile readings kind p := by
  have hFirst : (∀ order : List (FileReading σ), order.Perm readings →
      ((readAll order).registry kind).find? p = ((readAll readings).registry kind).find? p) ↔
      ∀ order : List (FileReading σ), order.Perm readings →
        (order.findSome? fun r => (r.held kind).find? p) =
          readings.findSome? fun r => (r.held kind).find? p := by
    refine forall₂_congr fun order hOrder => ?_
    rw [find?_readAll h, find?_readAll (distinct_of_perm h hOrder)]
  rw [hFirst, findSome?_perm_iff]
  constructor
  · intro hOne a ha b hb hHeld hOther
    rw [← List.isSome_find?, Option.isSome_iff_exists] at hHeld hOther
    obtain ⟨x, hx⟩ := hHeld
    obtain ⟨y, hy⟩ := hOther
    obtain rfl := hOne a ha b hb x hx y hy
    rw [← a.source_held (List.mem_of_find?_eq_some hx),
      ← b.source_held (List.mem_of_find?_eq_some hy), Path.same_refl]
  · intro hOne a ha b hb x hx y hy
    have hAny (r : FileReading σ) (z : kind.Entity) (hz : z ∈ (r.held kind).find? p) :
        (r.held kind).any p = true := by
      rw [← List.isSome_find?, Option.mem_def.mp hz, Option.isSome_some]
    obtain rfl := h.eq_of_same ha hb (hOne a ha b hb (hAny a x hx) (hAny b y hy))
    exact Option.some.inj (hx.symm.trans hy)

/-! ### Components -/

/-- The component has the name and is of exactly the module. -/
def isNamedIn (moduleName name : String) (c : Component) : Bool :=
  c.name == name && c.moduleName == moduleName

/-- The component has the name and its module is meant. -/
def isNamedInMeant (moduleName name : String) (c : Component) : Bool :=
  c.name == name && isModuleMeant moduleName c.moduleName

/-- What is looked for: the components of exactly the module if there are some, else those whose
modules are meant. -/
def soughtComponent (index : Index) (moduleName name : String) : Component → Bool :=
  if index.components.all.any (isNamedIn moduleName name) then isNamedIn moduleName name
  else isNamedInMeant moduleName name

theorem findComponent?_eq_find? (index : Index) (moduleName name : String) :
    index.findComponent? moduleName name =
      index.components.find? (index.soughtComponent moduleName name) := by
  have hEq : index.findComponent? moduleName name =
      (index.components.find? (isNamedIn moduleName name)).or
        (index.components.find? (isNamedInMeant moduleName name)) := rfl
  rw [hEq, soughtComponent]
  split
  · next hNamed =>
    rw [← List.isSome_find?] at hNamed
    exact Option.or_of_isSome hNamed
  · next hNamed =>
    rw [← List.isSome_find?, Option.not_isSome_iff_eq_none] at hNamed
    rw [FileRegistry.find?, hNamed, Option.none_or]

theorem findComponent?_perm_iff (h : Path.Distinct (readings.map (·.path)))
    (moduleName name : String) :
    (∀ order, order.Perm readings →
      (readAll order).findComponent? moduleName name =
        (readAll readings).findComponent? moduleName name) ↔
      HeldInOneFile readings .components ((readAll readings).soughtComponent moduleName name) := by
  rw [← find?_perm_iff h]
  refine forall₂_congr fun order hOrder => ?_
  have hSought : (readAll order).soughtComponent moduleName name =
      (readAll readings).soughtComponent moduleName name := by
    have hPerm : (readAll order).components.all.Perm (readAll readings).components.all :=
      all_perm h hOrder .components
    rw [soughtComponent, soughtComponent, hPerm.any_eq]
  rw [findComponent?_eq_find?, findComponent?_eq_find?, hSought]
  rfl

/-! ### Schemas -/

/-- The schemas whose modules are meant by a name, by module name. -/
def candidateSchemas (index : Index) (name : String) : List SchemaInfo :=
  sortBy SchemaInfo.moduleName (index.schemas.filter fun s => isModuleMeant name s.moduleName)

theorem schemaFor?_eq_or (index : Index) (name : String) :
    index.schemaFor? name =
      (index.schemaOfModule? name).or (index.candidateSchemas name).head? := by
  have hLe (a b : SchemaInfo) :
      (!decide (b.moduleName < a.moduleName)) = decide (a.moduleName ≤ b.moduleName) := by
    rw [← decide_not, decide_eq_decide, String.not_lt]
  rw [schemaFor?, candidateSchemas, sortBy]
  simp only [hLe]

theorem map_schemaOfModule? (index : Index) (name : String) :
    (index.schemaOfModule? name).map (·.moduleName) =
      if index.schemas.all.any (·.moduleName == name) then some name else none := by
  rw [← List.isSome_find?, schemaOfModule?, FileRegistry.find?]
  cases hFound : index.schemas.all.find? (·.moduleName == name) with
  | none => rfl
  | some s =>
    have hName := List.find?_some hFound
    rw [Option.map_some, beq_iff_eq.mp hName, Option.isSome_some, if_pos rfl]

/-- A name leads to the first schema of its module. -/
theorem schemaOfModule?_of_schemaFor? {index : Index} {name : String} {s : SchemaInfo}
    (h : index.schemaFor? name = some s) : index.schemaOfModule? s.moduleName = some s := by
  rw [schemaFor?_eq_or, Option.or_eq_some_iff] at h
  rcases h with hNamed | ⟨-, hFirst⟩
  · have hName := List.find?_some hNamed
    rwa [beq_iff_eq.mp hName]
  · have hMeant : isModuleMeant name s.moduleName = true := by
      have hMem := (sortBy_perm _ _).mem_iff.mp (List.mem_of_mem_head? hFirst)
      exact (List.mem_filter.mp hMem).2
    have hFound := find?_of_head?_sortBy hFirst
    rw [FileRegistry.filter, List.find?_filter] at hFound
    rw [schemaOfModule?, FileRegistry.find?, ← hFound]
    congr 1
    funext other
    by_cases hModule : other.moduleName = s.moduleName
    · simp [hModule, hMeant]
    · simp [hModule]

/-- The module of the schema for a name does not depend on the order of files. -/
theorem schemaModule_perm (h : Path.Distinct (readings.map (·.path))) (hOrder : order.Perm readings)
    (name : String) :
    ((readAll order).schemaFor? name).map (·.moduleName) =
      ((readAll readings).schemaFor? name).map (·.moduleName) := by
  have hPerm : (readAll order).schemas.all.Perm (readAll readings).schemas.all :=
    all_perm h hOrder .schemas
  have hFirst : ((readAll order).candidateSchemas name).head?.map (·.moduleName) =
      ((readAll readings).candidateSchemas name).head?.map (·.moduleName) := by
    rw [← List.head?_map, ← List.head?_map]
    exact congrArg List.head? (map_sortBy_of_perm _ (hPerm.filter _))
  rw [schemaFor?_eq_or, schemaFor?_eq_or, Option.map_or, Option.map_or, map_schemaOfModule?,
    map_schemaOfModule?, hPerm.any_eq, hFirst]

theorem schemaFor?_perm_iff (h : Path.Distinct (readings.map (·.path))) (name : String) :
    (∀ order, order.Perm readings →
      (readAll order).schemaFor? name = (readAll readings).schemaFor? name) ↔
      ∀ s, (readAll readings).schemaFor? name = some s →
        HeldInOneFile readings .schemas fun other : SchemaInfo =>
          other.moduleName == s.moduleName := by
  have hBind (index : Index) : index.schemaFor? name =
      ((index.schemaFor? name).map (·.moduleName)).bind index.schemaOfModule? := by
    cases hSchema : index.schemaFor? name with
    | none => rfl
    | some s => exact (schemaOfModule?_of_schemaFor? hSchema).symm
  cases hSchema : (readAll readings).schemaFor? name with
  | none =>
    refine iff_of_true (fun order hOrder => ?_) (by rintro _ ⟨⟩)
    have hModule := schemaModule_perm h hOrder name
    rw [hSchema] at hModule
    exact Option.map_eq_none_iff.mp hModule
  | some s =>
    simp only [Option.some.injEq, forall_eq']
    rw [← find?_perm_iff h]
    refine forall₂_congr fun order hOrder => ?_
    have hModule := schemaModule_perm h hOrder name
    have hOrderSchema :
        (readAll order).schemaFor? name = (readAll order).schemaOfModule? s.moduleName := by
      rw [hBind, hModule, hSchema]
      rfl
    rw [hOrderSchema, ← schemaOfModule?_of_schemaFor? hSchema]
    rfl

/-! ### Assigns of templates -/

end Index

namespace FileReading

variable {σ : Type}

/-- The renders of a template of a view in the controllers of a file. -/
def rendersOf (reading : FileReading σ) (view template : String) : List RenderInfo :=
  (reading.held .controllers).flatMap fun controller : ControllerInfo =>
    controller.renders.filter fun r => r.template == template && controller.viewFor r == view

end FileReading

namespace Index

variable {σ : Type} {readings order : List (FileReading σ)}

theorem rendersOf_readAll (h : Path.Distinct (readings.map (·.path))) (view template : String) :
    (readAll readings).rendersOf view template =
      sortBy RenderInfo.line (readings.flatMap (·.rendersOf view template)) := by
  have hAll : (readAll readings).controllers.all = readings.flatMap (·.held .controllers) :=
    all_readAll h .controllers
  rw [rendersOf, hAll, List.flatMap_assoc]
  rfl

/-- The renders of a template do not depend on the order of files, up to the order in a line. -/
theorem rendersOf_perm (h : Path.Distinct (readings.map (·.path))) (hOrder : order.Perm readings)
    (view template : String) :
    ((readAll order).rendersOf view template).Perm
      ((readAll readings).rendersOf view template) := by
  rw [rendersOf_readAll h, rendersOf_readAll (distinct_of_perm h hOrder)]
  exact perm_sortBy _ (hOrder.flatMap_right _)

/-- No two files have renders of the template in lines of one number. -/
def RendersApart (readings : List (FileReading σ)) (view template : String) : Prop :=
  ∀ a ∈ readings, ∀ b ∈ readings, ∀ r ∈ a.rendersOf view template,
    ∀ s ∈ b.rendersOf view template, r.line = s.line → a.path.same b.path = true

theorem rendersOf_eq_of_perm (h : Path.Distinct (readings.map (·.path)))
    (hOrder : order.Perm readings) {view template : String}
    (hApart : RendersApart readings view template) :
    (readAll order).rendersOf view template = (readAll readings).rendersOf view template := by
  rw [rendersOf_readAll h, rendersOf_readAll (distinct_of_perm h hOrder)]
  refine sortBy_eq_of_filter_key fun line => ?_
  rw [List.filter_flatMap, List.filter_flatMap]
  refine flatMap_eq_of_perm hOrder fun a ha b hb hLine hOther => h.eq_of_same ha hb ?_
  obtain ⟨r, hr⟩ := List.exists_mem_of_ne_nil _ hLine
  obtain ⟨s, hs⟩ := List.exists_mem_of_ne_nil _ hOther
  obtain ⟨hRender, hLine⟩ := List.mem_filter.mp hr
  obtain ⟨hOtherRender, hOtherLine⟩ := List.mem_filter.mp hs
  exact hApart a ha b hb r hRender s hOtherRender
    ((of_decide_eq_true hLine).trans (of_decide_eq_true hOtherLine).symm)

theorem mem_names_addAssign (assigns : List RenderAssign) (assign : RenderAssign) (name : String) :
    name ∈ (addAssign assigns assign).map (·.name) ↔
      name ∈ assigns.map (·.name) ∨ name = assign.name := by
  rw [addAssign]
  split
  · next hKnown =>
    have hNames : (assigns.map fun a =>
        if a.name == assign.name then { a with value := a.value.or assign.value } else a).map
          (·.name) = assigns.map (·.name) := by
      rw [List.map_map]
      refine List.map_congr_left fun a _ => ?_
      simp only [Function.comp_apply]
      split <;> rfl
    rw [hNames, iff_self_or]
    rintro rfl
    obtain ⟨a, ha, hName⟩ := List.any_eq_true.mp hKnown
    exact List.mem_map.mpr ⟨a, ha, beq_iff_eq.mp hName⟩
  · rw [List.map_append, List.mem_append, List.map_singleton, List.mem_singleton]

/-- The names of the assigns are those that some render passes on. -/
theorem mem_names_assignsOf (index : Index) (view template name : String) :
    name ∈ (index.assignsOf view template).map (·.name) ↔
      ∃ r ∈ index.rendersOf view template, name ∈ r.assigns.map (·.name) := by
  have hFold (found assigns : List RenderAssign) :
      name ∈ (assigns.foldl addAssign found).map (·.name) ↔
        name ∈ found.map (·.name) ∨ name ∈ assigns.map (·.name) := by
    induction assigns generalizing found with
    | nil => simp
    | cons assign assigns ih =>
      rw [List.foldl_cons, ih, mem_names_addAssign, List.map_cons, List.mem_cons, or_assoc]
  rw [assignsOf, hFold, List.map_nil, List.map_flatMap, List.mem_flatMap]
  simp only [List.not_mem_nil, false_or]

/-! ### What does not depend on the order -/

/-- Files that are read in any order have the same routes, lead a name to a schema of the same
module, and pass assigns of the same names to a template. The assigns are the same too where no two
files render the template in lines of one number. A component is the same one in every order just if
one file alone holds such components, and a schema just if one file alone holds schemas of its
module. -/
theorem lookups_of_perm (h : Path.Distinct (readings.map (·.path))) :
    (∀ order, order.Perm readings →
      let index := readAll readings
      let other := readAll order
      other.allRoutes = index.allRoutes ∧
        (∀ path, other.routeFor? path = index.routeFor? path ∧
          other.routeForPartial? path = index.routeForPartial? path) ∧
        (∀ name, (other.schemaFor? name).map (·.moduleName) =
          (index.schemaFor? name).map (·.moduleName)) ∧
        ∀ view template,
          (∀ name, name ∈ (other.assignsOf view template).map (·.name) ↔
            name ∈ (index.assignsOf view template).map (·.name)) ∧
          (RendersApart readings view template →
            other.assignsOf view template = index.assignsOf view template)) ∧
    (∀ moduleName name,
      (∀ order, order.Perm readings → (readAll order).findComponent? moduleName name =
        (readAll readings).findComponent? moduleName name) ↔
      HeldInOneFile readings .components
        ((readAll readings).soughtComponent moduleName name)) ∧
    ∀ name,
      (∀ order, order.Perm readings →
        (readAll order).schemaFor? name = (readAll readings).schemaFor? name) ↔
      ∀ s, (readAll readings).schemaFor? name = some s →
        HeldInOneFile readings .schemas fun other : SchemaInfo =>
          other.moduleName == s.moduleName := by
  refine ⟨fun order hOrder => ?_, findComponent?_perm_iff h, schemaFor?_perm_iff h⟩
  have hRoutes := allRoutes_perm h hOrder
  refine ⟨hRoutes, fun path => ?_, schemaModule_perm h hOrder, fun view template => ⟨?_, ?_⟩⟩
  · rw [routeFor?, routeFor?, routeForPartial?, routeForPartial?, hRoutes]
    exact ⟨rfl, rfl⟩
  · intro name
    simp only [mem_names_assignsOf, (rendersOf_perm h hOrder view template).mem_iff]
  · intro hApart
    rw [assignsOf, assignsOf, rendersOf_eq_of_perm h hOrder hApart]

def scanned (path text : String) : FileReading Unit := { path := ⟨path⟩, text, state := () }

theorem lookups_of_perm_reversed :
    let routers := [
      scanned "lib/admin_web/router.ex" "  get \"/audit\", AuditController, :show\n",
      scanned "lib/shop_web/router.ex" "  get \"/cart\", CartController, :show\n"]
    Path.Distinct (routers.map (·.path)) ∧ routers.reverse.Perm routers ∧
      (readAll routers.reverse).allRoutes.map (·.path) = ["/audit", "/cart"] := by
  intro routers
  have hDistinct : Path.Distinct (routers.map (·.path)) := by decide
  have hOrder : routers.reverse.Perm routers := List.reverse_perm _
  obtain ⟨hRoutes, -⟩ := (lookups_of_perm hDistinct).1 _ hOrder
  refine ⟨hDistinct, hOrder, ?_⟩
  rw [hRoutes, allRoutes, Path.sort, List.mergeSort_of_pairwise (by decide +kernel)]
  decide +kernel

/-- Files of which two hold components of a name, schemas of a module, or renders in one line lead
to different ones in different orders. -/
theorem lookups_differ_by_order :
    let cores := [
      scanned "shop_web/core.ex" "defmodule Shop.Core do\n  def badge(assigns), do: ~H\"\"\n",
      scanned "admin_web/core.ex" "defmodule Admin.Core do\n  def badge(assigns), do: ~H\"\"\n"]
    let users := [
      scanned "lib/shop/user.ex" "defmodule User do\n  schema \"users\" do\n",
      scanned "lib/old/user.ex" "defmodule User do\n  schema \"people\" do\n"]
    let pages := [
      scanned "shop/page_controller.ex"
        "defmodule Page do\n  def show(conn, _) do\n    render(conn, :show, top: 1)\n  end\nend\n",
      scanned "old/page_controller.ex"
        "defmodule Page do\n  def show(conn, _) do\n    render(conn, :show, top: 2)\n  end\nend\n"]
    ((readAll cores).findComponent? "Core" "badge").map (·.moduleName) = some "Shop.Core" ∧
      ((readAll cores.reverse).findComponent? "Core" "badge").map (·.moduleName) =
        some "Admin.Core" ∧
      ((readAll users).schemaFor? "User").map (·.tableName) = some (some "users") ∧
      ((readAll users.reverse).schemaFor? "User").map (·.tableName) = some (some "people") ∧
      (readAll pages).assignsOf "PageHTML" "show" = [⟨"top", some "1"⟩] ∧
      (readAll pages.reverse).assignsOf "PageHTML" "show" = [⟨"top", some "2"⟩] := by
  intro cores users pages
  have hDistinct : Path.Distinct (pages.map (·.path)) := by decide
  have hReverse : Path.Distinct (pages.reverse.map (·.path)) := by decide
  have hRenders : pages.map (·.rendersOf "PageHTML" "show") =
      [[⟨some "show", "show", [⟨"top", some "1"⟩], 3, none⟩],
        [⟨some "show", "show", [⟨"top", some "2"⟩], 3, none⟩]] := by decide +kernel
  refine ⟨?_, ?_, ?_, ?_, ?_, ?_⟩
  case refine_5 =>
    rw [assignsOf, rendersOf_readAll hDistinct, List.flatMap_def (l := pages), hRenders,
      sortBy_of_pairwise _ (by decide)]
    decide
  case refine_6 =>
    rw [assignsOf, rendersOf_readAll hReverse, List.flatMap_def (l := pages.reverse),
      List.map_reverse, hRenders, sortBy_of_pairwise _ (by decide)]
    decide
  all_goals decide +kernel

end Index

end PhoenixLens
