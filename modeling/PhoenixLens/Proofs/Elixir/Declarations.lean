import PhoenixLens.Elixir.Scan
import PhoenixLens.Proofs.Elixir.Passages
import PhoenixLens.Proofs.Model.Clauses

/-!
# Lines of declarations

Every entity that a scanner finds in a source stands at the number of the logical line that declares
it, which is the number of the first physical line of that one.
-/

namespace PhoenixLens

namespace Elixir

/-! ### What a line declares -/

/-- The line begins a function component of the name. -/
def DeclaresComponent (line : LogicalLine) (component : Component) : Prop :=
  component.line = line.line ∧ ∃ head, definitionHead? (Text.trim line.text) = some head ∧
    takesAssigns head = true ∧ component.name = String.ofList head.name

def RouterLine.routes (context : RouterContext) (file : Path) (n : Nat) : RouterLine → List Route
  | .declares routes => routes
  | .expands resources _ => resources.routes context file n
  | _ => []

/-- The macro that the line calls declares the route. -/
def DeclaresRoute (file : Path) (line : LogicalLine) (route : Route) : Prop :=
  route.line = line.line ∧ ∃ context,
    route ∈ (readRouterLine context file line.line (Text.trim line.text)).routes context file
      line.line

/-- The line begins a callback for the event. -/
def DeclaresEvent (line : LogicalLine) (event : Event) : Prop :=
  event.line = line.line ∧ ∃ head,
    readEventLine (Text.trim line.text) = .handles event.kind (some head) ∧
    event.name = String.ofList head.name

/-- The line opens the block of a schema, of an embedded one or of an association. -/
def DeclaresSchema (line : LogicalLine) (schema : SchemaInfo) : Prop :=
  schema.line = line.line ∧ opensDoBlock (Text.trim line.text) = true ∧
    ((callArguments? (Text.trim line.text) "schema").isSome = true ∨
      Text.startsWith "embedded_schema" (Text.trim line.text) = true ∨
      ∃ type, AssociationType.ofTag? (String.ofList
        ((Text.trim line.text).takeWhile fun c => c != ' ' && c != '(')) = some type)

/-- The line takes in template files, begins a function, or begins the module with a template
beside it. -/
def DeclaresTemplate (line : LogicalLine) (template : TemplateInfo) : Prop :=
  template.line = line.line ∧
    match template.kind with
    | .embedded => (callArguments? (Text.trim line.text) "embed_templates").isSome = true
    | .function => (templateFunction? (Text.trim line.text)).map String.ofList = some template.name
    | .colocated => (moduleOpening? line.text).isSome = true

/-- The line begins the module, and the actions and the renders stand at their own lines. -/
def DeclaresController (lines : List LogicalLine) (line : LogicalLine)
    (controller : ControllerInfo) : Prop :=
  controller.line = line.line ∧ (moduleOpening? line.text).isSome = true ∧
    (∀ action ∈ controller.actions, ∃ own ∈ lines, action.line = own.line ∧
      (actionName? (Text.trim own.text)).map String.ofList = some action.name) ∧
    ∀ render ∈ controller.renders, ∃ own ∈ lines, render.line = own.line ∧
      render.template ∈ (renderCalls (Text.trim own.text)).map fun call => String.ofList call.1

end Elixir

/-- Among the lines is one that declares the entity and has its number. -/
def EntityKind.IsDeclaredIn (file : Path) (lines : List Elixir.LogicalLine) :
    (kind : EntityKind) → kind.Entity → Prop
  | .components, component => ∃ line ∈ lines, Elixir.DeclaresComponent line component
  | .routes, route => ∃ line ∈ lines, Elixir.DeclaresRoute file line route
  | .events, event => ∃ line ∈ lines, Elixir.DeclaresEvent line event
  | .schemas, schema => ∃ line ∈ lines, Elixir.DeclaresSchema line schema
  | .templates, template => ∃ line ∈ lines, Elixir.DeclaresTemplate line template
  | .controllers, controller => ∃ line ∈ lines, Elixir.DeclaresController lines line controller

namespace Elixir

variable {file : Path} {lines : List LogicalLine} {line : LogicalLine}

/-! ### Components -/

theorem DeclaresComponent.mergeClause {component : Component} (h : DeclaresComponent line component)
    (other : Component) : DeclaresComponent line (component.mergeClause other) := h

theorem forall_addClause {p : Component → Prop} {found : List Component} {component : Component}
    (hFound : ∀ c ∈ found, p c) (hMerge : ∀ c other, p c → p (c.mergeClause other))
    (hComponent : p component) : ∀ c ∈ addClause found component, p c := by
  induction found with
  | nil => exact List.forall_mem_singleton.mpr hComponent
  | cons first rest ih =>
    obtain ⟨hFirst, hRest⟩ := List.forall_mem_cons.mp hFound
    rw [addClause]
    split
    · exact List.forall_mem_cons.mpr ⟨hMerge first component hFirst, hRest⟩
    · exact List.forall_mem_cons.mpr ⟨hFirst, ih hRest⟩

theorem readComponentLine_defines {name : List Char} {isComponent : Bool}
    (h : readComponentLine line = .defines name isComponent) :
    ∃ head, definitionHead? (Text.trim line.text) = some head ∧ takesAssigns head = isComponent ∧
      name = head.name := by
  rw [readComponentLine] at h
  split at h
  · cases h
  · cases h
  · rename_i head _ _ hHead
    cases h
    exact ⟨head, hHead, rfl, rfl⟩
  · cases h

namespace ComponentState

variable {state : ComponentState}

theorem declared_apply (hLine : line ∈ lines)
    (h : ∀ c ∈ state.found, EntityKind.components.IsDeclaredIn file lines c) :
    ∀ c ∈ (state.apply file line.line (readComponentLine line)).found,
      EntityKind.components.IsDeclaredIn file lines c := by
  rcases state.found_apply file line.line (readComponentLine line) with
    hKept | ⟨name, clause, hRead, hName, hNumber, hAdded⟩
  · rwa [hKept]
  · obtain ⟨head, hHead, hTakes, rfl⟩ := readComponentLine_defines hRead
    rw [hAdded]
    refine forall_addClause h ?_ ⟨line, hLine, hNumber, head, hHead, hTakes, hName⟩
    rintro c other ⟨own, hMem, hDeclares⟩
    exact ⟨own, hMem, hDeclares.mergeClause other⟩

theorem declared_takeLine (hLine : line ∈ lines)
    (h : ∀ c ∈ state.found, EntityKind.components.IsDeclaredIn file lines c) :
    ∀ c ∈ (state.takeLine file line).found, EntityKind.components.IsDeclaredIn file lines c := by
  rw [takeLine]
  split
  · exact h
  · rw [found_closeSlot]
    exact declared_apply hLine h

end ComponentState

theorem declared_components (file : Path) (source : List Char) :
    ∀ c ∈ componentsOf file source,
      EntityKind.components.IsDeclaredIn file (logicalLines source) c :=
  List.foldlRecOn (motive := fun state : ComponentState => ∀ c ∈ state.found,
      EntityKind.components.IsDeclaredIn file (logicalLines source) c) _ _ (List.forall_mem_nil _)
    fun _ h _ hLine => ComponentState.declared_takeLine hLine h

/-! ### Routes -/

section

variable {context : RouterContext} {n : Nat} {text : List Char} {route : Route}

theorem line_of_verbRoute? {verb : List Char} {arguments : Arguments}
    (h : verbRoute? context file n verb arguments = some route) : route.line = n := by
  obtain ⟨own, -, rfl⟩ := Option.map_eq_some_iff.mp h
  rfl

theorem line_of_mem_matchRoutes {arguments : List (List Char)}
    (h : route ∈ matchRoutes context file n arguments) : route.line = n := by
  rw [matchRoutes.eq_def] at h
  split at h
  · cases h
  · obtain ⟨verb, -, hVerb⟩ := List.mem_filterMap.mp h
    exact line_of_verbRoute? hVerb

theorem line_of_mem_resources {resources : Resources}
    (h : route ∈ resources.routes context file n) : route.line = n := by
  obtain ⟨action, -, rfl⟩ := List.mem_map.mp h
  rfl

theorem line_of_mem_routes
    (h : route ∈ (readRouterLine context file n text).routes context file n) : route.line = n := by
  rw [readRouterLine] at h
  split at h
  · cases h
  · dsimp only at h
    split at h
    · cases h
    · split at h
      case h_1 | h_2 | h_3 => split at h <;> cases h
      case h_4 => cases h
      case h_5 =>
        split at h
        · exact line_of_mem_resources h
        · cases h
      case h_6 =>
        obtain ⟨own, -, rfl⟩ := Option.map_eq_some_iff.mp (Option.mem_toList.mp h)
        rfl
      case h_7 =>
        obtain ⟨own, -, rfl⟩ := Option.map_eq_some_iff.mp (Option.mem_toList.mp h)
        rfl
      case h_8 => exact line_of_mem_matchRoutes h
      case h_9 =>
        split at h
        · exact line_of_verbRoute? (Option.mem_toList.mp h)
        · cases h

end

theorem declared_takeLine_router (state : RouterState) (file : Path) (line : LogicalLine) :
    ∀ route ∈ (state.takeLine file line).2, DeclaresRoute file line route := by
  have hApply (action : RouterLine) : (state.apply file line.line action).2 =
      action.routes state.context file line.line := by cases action <;> rfl
  intro route hRoute
  change route ∈ (state.apply file line.line _).2 at hRoute
  rw [hApply] at hRoute
  split at hRoute
  · cases hRoute
  · exact ⟨line_of_mem_routes hRoute, state.context, hRoute⟩

theorem declared_routesOfLines (file : Path) (state : RouterState) (lines : List LogicalLine) :
    ∀ route ∈ routesOfLines file state lines, EntityKind.routes.IsDeclaredIn file lines route := by
  induction lines generalizing state with
  | nil => exact List.forall_mem_nil _
  | cons line lines ih =>
    rw [routesOfLines, List.forall_mem_append]
    constructor
    · intro route hRoute
      exact ⟨line, List.mem_cons_self, declared_takeLine_router state file line route hRoute⟩
    · intro route hRoute
      obtain ⟨own, hMem, hDeclares⟩ := ih _ route hRoute
      exact ⟨own, List.mem_cons_of_mem _ hMem, hDeclares⟩

/-! ### Events -/

namespace EventState

variable {state : EventState}

theorem declared_apply (hLine : line ∈ lines)
    (h : ∀ e ∈ state.found, EntityKind.events.IsDeclaredIn file lines e) :
    ∀ e ∈ (state.apply file line.line (readEventLine (Text.trim line.text))).found,
      EntityKind.events.IsDeclaredIn file lines e := by
  cases hRead : readEventLine (Text.trim line.text) with
  | nothing => exact h
  | defines => exact h
  | handles kind head =>
    rw [apply.eq_def]
    dsimp only
    split
    · rename_i head moduleName _
      rw [addNew]
      split
      · exact h
      · rw [List.forall_mem_append, List.forall_mem_singleton]
        exact ⟨h, line, hLine, rfl, head, hRead, rfl⟩
    · exact h

theorem declared_takeLine (hLine : line ∈ lines)
    (h : ∀ e ∈ state.found, EntityKind.events.IsDeclaredIn file lines e) :
    ∀ e ∈ (state.takeLine file line).found, EntityKind.events.IsDeclaredIn file lines e := by
  rw [takeLine]
  simp only
  split
  · exact h
  · exact declared_apply hLine h

end EventState

theorem declared_events (file : Path) (source : List Char) :
    ∀ e ∈ eventsOf file source, EntityKind.events.IsDeclaredIn file (logicalLines source) e :=
  List.foldlRecOn (motive := fun state : EventState => ∀ e ∈ state.found,
      EntityKind.events.IsDeclaredIn file (logicalLines source) e) _ _ (List.forall_mem_nil _)
    fun _ h _ hLine => EventState.declared_takeLine hLine h

/-! ### Schemas -/

/-- Only an association with a block of its own opens a schema. -/
theorem opens_of_embedded {owner text target : List Char} {expand : List Char → List Char}
    {addition : SchemaAddition} (h : schemaAddition? owner expand text = some addition)
    (hTarget : addition.embedded = some target) :
    opensDoBlock text = true ∧ ∃ type, AssociationType.ofTag? (String.ofList
      (text.takeWhile fun c => c != ' ' && c != '(')) = some type := by
  rw [schemaAddition?] at h
  split at h
  · obtain ⟨field, -, rfl⟩ := Option.map_eq_some_iff.mp h
    cases hTarget
  · cases h
    cases hTarget
  · obtain ⟨type, hType, hRest⟩ := Option.bind_eq_some_iff.mp h
    obtain ⟨arguments, -, hAddition⟩ := Option.bind_eq_some_iff.mp hRest
    obtain ⟨name, -, rfl⟩ := Option.map_eq_some_iff.mp hAddition
    refine ⟨?_, type, hType⟩
    by_contra hBlock
    rw [Bool.not_eq_true] at hBlock
    rw [hBlock] at hTarget
    cases hTarget

namespace SchemaState

variable {state : SchemaState}

/-- All schemas found so far are declared, the open ones too. -/
structure IsDeclared (file : Path) (lines : List LogicalLine) (state : SchemaState) : Prop where
  finished : ∀ schema ∈ state.finished, EntityKind.schemas.IsDeclaredIn file lines schema
  opened : ∀ o ∈ state.openSchemas, EntityKind.schemas.IsDeclaredIn file lines o.schema

namespace IsDeclared

theorem openSchema (h : state.IsDeclared file lines) (hLine : line ∈ lines)
    (hBegins : ∀ schema : SchemaInfo, schema.line = line.line → DeclaresSchema line schema)
    (moduleName : List Char) (table : Option (List Char)) :
    (state.openSchema file line.line moduleName table).IsDeclared file lines := by
  refine ⟨h.finished, ?_⟩
  rw [SchemaState.openSchema, List.forall_mem_cons]
  exact ⟨⟨line, hLine, hBegins _ rfl⟩, h.opened⟩

theorem extend (h : state.IsDeclared file lines) (addition : SchemaAddition) :
    (state.extend addition).IsDeclared file lines := by
  rw [SchemaState.extend]
  split
  · exact h
  · rename_i inner outer hOpen
    have hOpened := h.opened
    rw [hOpen, List.forall_mem_cons] at hOpened
    obtain ⟨⟨own, hMem, hDeclares⟩, hOuter⟩ := hOpened
    exact ⟨h.finished, List.forall_mem_cons.mpr ⟨⟨own, hMem, hDeclares⟩, hOuter⟩⟩

theorem takeCode (h : state.IsDeclared file lines) (hLine : line ∈ lines) (moduleName : List Char) :
    (state.takeCode file line.line moduleName (Text.trim line.text)).IsDeclared file lines := by
  rw [SchemaState.takeCode]
  split
  · exact ⟨h.finished, h.opened⟩
  · split
    · rename_i written hWritten
      obtain ⟨hCall, hBlock⟩ := Option.filter_eq_some_iff.mp hWritten
      have hSome : (callArguments? (Text.trim line.text) "schema").isSome = true := by
        rw [hCall]
        rfl
      exact h.openSchema hLine (fun _ hNumber => ⟨hNumber, hBlock, .inl hSome⟩) _ _
    · split
      · rename_i hEmbedded
        rw [Bool.and_eq_true] at hEmbedded
        exact h.openSchema hLine
          (fun _ hNumber => ⟨hNumber, hEmbedded.2, .inr (.inl hEmbedded.1)⟩) _ _
      · split
        · exact h
        · dsimp only
          split
          · exact h
          · split
            · rename_i hTarget
              obtain ⟨hBlock, hType⟩ := opens_of_embedded ‹_› hTarget
              exact (h.extend _).openSchema hLine
                (fun _ hNumber => ⟨hNumber, hBlock, .inr (.inr hType)⟩) _ _
            · exact h.extend _

theorem settle (h : state.IsDeclared file lines) (text : List Char) :
    (state.settle text).IsDeclared file lines := by
  constructor
  · rw [SchemaState.settle, List.forall_mem_append, List.forall_mem_map]
    exact ⟨h.finished, fun o ho => h.opened o (List.takeWhile_subset _ ho)⟩
  · exact fun o ho => h.opened o (List.dropWhile_subset _ ho)

theorem takeLine (h : state.IsDeclared file lines) (hLine : line ∈ lines) :
    (state.takeLine file line).IsDeclared file lines := by
  rw [SchemaState.takeLine]
  split
  · exact (h.takeCode hLine _).settle _
  · exact h.settle _

end IsDeclared

end SchemaState

theorem declared_schemas (file : Path) (source : List Char) :
    ∀ schema ∈ schemasOf file source,
      EntityKind.schemas.IsDeclaredIn file (logicalLines source) schema := by
  have hState : SchemaState.IsDeclared file (logicalLines source)
      ((logicalLines source).foldl (fun state line => state.takeLine file line) {}) :=
    List.foldlRecOn (motive := SchemaState.IsDeclared file (logicalLines source)) _ _
      ⟨List.forall_mem_nil _, List.forall_mem_nil _⟩ fun _ h _ hLine => h.takeLine hLine
  intro schema hSchema
  rw [schemasOf, List.mem_mergeSort, List.mem_append, List.mem_reverse, List.mem_map] at hSchema
  rcases hSchema with hFinished | ⟨o, hOpen, rfl⟩
  · exact hState.finished schema hFinished
  · exact hState.opened o hOpen

/-! ### Templates -/

section

variable {disk : Disk} {template : TemplateInfo}

theorem exists_of_mem_getD {α : Type} {x : α} {found : Option (List α)} (h : x ∈ found.getD []) :
    ∃ xs, found = some xs ∧ x ∈ xs := by
  cases found with
  | none => cases h
  | some xs => exact ⟨xs, rfl, h⟩

theorem declared_embeddedTemplates {moduleName : List Char} {n : Nat} {arguments : List (List Char)}
    (h : template ∈ embeddedTemplates disk file moduleName n arguments) :
    template.line = n ∧ template.kind = .embedded := by
  rw [embeddedTemplates] at h
  dsimp only at h
  obtain ⟨templates, hFound, hTemplate⟩ := exists_of_mem_getD h
  obtain ⟨pattern, -, hFound⟩ := Option.bind_eq_some_iff.mp hFound
  obtain ⟨base, -, hFound⟩ := Option.bind_eq_some_iff.mp hFound
  obtain ⟨glob, -, hFound⟩ := Option.bind_eq_some_iff.mp hFound
  obtain ⟨names, -, hFound⟩ := Option.bind_eq_some_iff.mp hFound
  cases hFound
  obtain ⟨path, -, rfl⟩ := List.mem_map.mp hTemplate
  exact ⟨rfl, rfl⟩

theorem declared_templatesOfLine {tracker : BlockTracker} {moduleName : List Char}
    (h : template ∈ templatesOfLine disk file tracker moduleName line.line (Text.trim line.text)) :
    DeclaresTemplate line template := by
  rw [templatesOfLine] at h
  split at h
  · rename_i written hWritten
    obtain ⟨hNumber, hKind⟩ := declared_embeddedTemplates h
    refine ⟨hNumber, ?_⟩
    rw [hKind, hWritten]
    rfl
  · split at h
    · obtain ⟨name, hName, rfl⟩ := List.mem_map.mp h
      refine ⟨rfl, ?_⟩
      rw [Option.mem_toList.mp hName]
      rfl
    · cases h

/-- The first module of the file stands at its line. -/
def TemplateState.IsDeclared (lines : List LogicalLine) (state : TemplateState) : Prop :=
  ∀ first ∈ state.first, ∃ line ∈ lines,
    first.2 = line.line ∧ (moduleOpening? line.text).isSome = true

theorem TemplateState.IsDeclared.takeLine {state : TemplateState} (h : state.IsDeclared lines)
    (hLine : line ∈ lines) : (state.takeLine disk file line).1.IsDeclared lines := by
  intro first hFirst
  rcases Option.or_eq_some_iff.mp hFirst with hOld | ⟨-, hNew⟩
  · exact h first hOld
  · obtain ⟨name, hOpened, rfl⟩ := Option.map_eq_some_iff.mp hNew
    obtain ⟨own, hOwn, -⟩ := Option.map_eq_some_iff.mp hOpened
    refine ⟨line, hLine, rfl, ?_⟩
    rw [hOwn]
    rfl

theorem TemplateState.IsDeclared.colocated {state : TemplateState} (h : state.IsDeclared lines) :
    ∀ template ∈ state.colocated disk file,
      EntityKind.templates.IsDeclaredIn file lines template := by
  rw [TemplateState.colocated]
  split
  · rename_i path moduleName n _ hFirst
    obtain ⟨own, hMem, hNumber, hOpening⟩ := h _ hFirst
    exact List.forall_mem_singleton.mpr ⟨own, hMem, hNumber, hOpening⟩
  · exact List.forall_mem_nil _

theorem declared_templatesOfLines {state : TemplateState} {rest : List LogicalLine}
    (h : state.IsDeclared lines) (hRest : ∀ line ∈ rest, line ∈ lines) :
    ∀ template ∈ templatesOfLines disk file state rest,
      EntityKind.templates.IsDeclaredIn file lines template := by
  induction rest generalizing state with
  | nil => exact h.colocated
  | cons line rest ih =>
    obtain ⟨hLine, hOthers⟩ := List.forall_mem_cons.mp hRest
    rw [templatesOfLines, List.forall_mem_append]
    refine ⟨fun template hTemplate => ⟨line, hLine, ?_⟩, ih (h.takeLine hLine) hOthers⟩
    rw [TemplateState.takeLine] at hTemplate
    dsimp only at hTemplate
    split at hTemplate
    · exact declared_templatesOfLine hTemplate
    · cases hTemplate

end

theorem declared_templates (disk : Disk) (file : Path) (source : List Char) :
    ∀ template ∈ templatesOf disk file source,
      EntityKind.templates.IsDeclaredIn file (logicalLines source) template := by
  have hStart : TemplateState.IsDeclared (logicalLines source) {} := by rintro _ ⟨⟩
  exact declared_templatesOfLines hStart fun _ hLine => hLine

/-! ### Controllers -/

theorem forall_updateController {p : ControllerInfo → Prop} {moduleName : String}
    {update : ControllerInfo → ControllerInfo} {controllers : List ControllerInfo}
    (h : ∀ c ∈ controllers, p c) (hUpdate : ∀ c, p c → p (update c)) :
    ∀ c ∈ updateController moduleName update controllers, p c := by
  induction controllers with
  | nil => exact List.forall_mem_nil _
  | cons first rest ih =>
    obtain ⟨hFirst, hRest⟩ := List.forall_mem_cons.mp h
    rw [updateController]
    split
    · exact List.forall_mem_cons.mpr ⟨hUpdate first hFirst, hRest⟩
    · exact List.forall_mem_cons.mpr ⟨hFirst, ih hRest⟩

theorem DeclaresController.addAction {begins : LogicalLine} {controller : ControllerInfo}
    {name : List Char} (h : DeclaresController lines begins controller) (hLine : line ∈ lines)
    (hName : actionName? (Text.trim line.text) = some name) :
    DeclaresController lines begins (addAction name line.line controller) := by
  obtain ⟨hNumber, hOpening, hActions, hRenders⟩ := h
  rw [Elixir.addAction]
  dsimp only
  split
  · exact ⟨hNumber, hOpening, hActions, hRenders⟩
  · refine ⟨hNumber, hOpening, ?_, hRenders⟩
    rw [List.forall_mem_append, List.forall_mem_singleton]
    exact ⟨hActions, line, hLine, rfl, by rw [hName]; rfl⟩

theorem DeclaresController.addRenders {begins : LogicalLine} {controller : ControllerInfo}
    (h : DeclaresController lines begins controller) (hLine : line ∈ lines) (action : OpenAction) :
    DeclaresController lines begins
      { controller with
        renders := controller.renders ++ (action.takeLine line.line (Text.trim line.text)).2 } := by
  obtain ⟨hNumber, hOpening, hActions, hRenders⟩ := h
  refine ⟨hNumber, hOpening, hActions, ?_⟩
  rw [List.forall_mem_append, OpenAction.takeLine, List.forall_mem_map]
  exact ⟨hRenders, fun call hCall => ⟨line, hLine, rfl, List.mem_map_of_mem hCall⟩⟩

namespace ControllerState

/-- All controllers found so far are declared. -/
def IsDeclared (file : Path) (lines : List LogicalLine) (state : ControllerState) : Prop :=
  ∀ c ∈ state.controllers, EntityKind.controllers.IsDeclaredIn file lines c

namespace IsDeclared

variable {state : ControllerState}

theorem begin (h : state.IsDeclared file lines) (hLine : line ∈ lines) (moduleName : String)
    {name : List Char} (hName : actionName? (Text.trim line.text) = some name) :
    (state.begin moduleName line.line name).IsDeclared file lines :=
  forall_updateController h fun _ ⟨own, hMem, hDeclares⟩ =>
    ⟨own, hMem, hDeclares.addAction hLine hName⟩

theorem addRenders (h : state.IsDeclared file lines) (hLine : line ∈ lines) (action : OpenAction)
    (moduleName : String) :
    ∀ c ∈ updateController moduleName
        (fun c => { c with
          renders := c.renders ++ (action.takeLine line.line (Text.trim line.text)).2 })
        state.controllers, EntityKind.controllers.IsDeclaredIn file lines c :=
  forall_updateController h fun _ ⟨own, hMem, hDeclares⟩ =>
    ⟨own, hMem, hDeclares.addRenders hLine action⟩

theorem takeCode (h : state.IsDeclared file lines) (hLine : line ∈ lines) (moduleName : String) :
    (state.takeCode moduleName line.line (Text.trim line.text)).IsDeclared file lines := by
  rw [ControllerState.takeCode]
  cases hName : actionName? (Text.trim line.text) with
  | none =>
    dsimp only
    split
    · exact h
    · exact h.addRenders hLine _ moduleName
  | some name => exact (h.begin hLine moduleName hName).addRenders hLine _ moduleName

theorem takeLine (h : state.IsDeclared file lines) (hLine : line ∈ lines) :
    (state.takeLine file line).IsDeclared file lines := by
  rw [ControllerState.takeLine, IsDeclared, List.forall_mem_append]
  constructor
  · intro controller hController
    obtain ⟨name, hOpened, rfl⟩ := List.mem_map.mp hController
    obtain ⟨own, hOwn, -⟩ := Option.map_eq_some_iff.mp (Option.mem_toList.mp hOpened)
    refine ⟨line, hLine, rfl, ?_, List.forall_mem_nil _, List.forall_mem_nil _⟩
    rw [hOwn]
    rfl
  · split
    · split
      · exact h.takeCode hLine _
      · exact h
    · exact h

end IsDeclared

end ControllerState

theorem declared_controllers (file : Path) (source : List Char) :
    ∀ c ∈ controllersOf file source,
      EntityKind.controllers.IsDeclaredIn file (logicalLines source) c := by
  have hState : ControllerState.IsDeclared file (logicalLines source)
      ((logicalLines source).foldl (fun state line => state.takeLine file line) {}) :=
    List.foldlRecOn (motive := ControllerState.IsDeclared file (logicalLines source)) _ _
      (List.forall_mem_nil _) fun _ h _ hLine => h.takeLine hLine
  intro controller hController
  exact hState controller (List.mem_reverse.mp (List.mem_of_mem_filter hController))

/-! ### All scanners -/

theorem declared_scan (disk : Disk) (file : Path) (kind : EntityKind) (source : List Char) :
    ∀ entity ∈ kind.scan disk file source,
      kind.IsDeclaredIn file (logicalLines source) entity := by
  cases kind with
  | components => exact declared_components file source
  | routes => exact declared_routesOfLines file {} (logicalLines source)
  | events => exact declared_events file source
  | schemas => exact declared_schemas file source
  | templates => exact declared_templates disk file source
  | controllers => exact declared_controllers file source

/-- Every source falls apart into passages, which are read as one line each, with the number of its
first physical line: the numbers begin with one, increase and stay within the source. Every entity
stands at the line that declares it. -/
theorem logicalLines_partition (source : List Char) :
    (∃ passages, Passage.Divide (Text.lines source) passages ∧
      logicalLines source = Passage.read 1 passages ∧
      ∀ passage ∈ passages, passage.more.length ≤ maxContinuations ∧
        ∀ line ∈ passage.physical.head?, heredocOpening? line = none →
          needsContinuation line = false → passage = { first := .line line }) ∧
    (logicalLines source).head?.map LogicalLine.line = (Text.lines source).head?.map (fun _ => 1) ∧
    ((logicalLines source).Pairwise fun line later => line.line < later.line) ∧
    (∀ line ∈ logicalLines source, 1 ≤ line.line ∧ line.line ≤ (Text.lines source).length) ∧
    ∀ (disk : Disk) (file : Path) (kind : EntityKind), ∀ entity ∈ kind.scan disk file source,
      kind.IsDeclaredIn file (logicalLines source) entity := by
  obtain ⟨passages, hDivide, hRead⟩ := logicalLines_divide source
  have hHeights : Passage.heights passages = (Text.lines source).length := by
    rw [Passage.heights, hDivide.physical]
  refine ⟨⟨passages, hDivide, hRead, fun passage hPassage => ?_⟩, ?_, ?_, fun line hLine => ?_,
    fun disk file kind => declared_scan disk file kind source⟩
  · have hSound := hDivide.isSound passage hPassage
    exact ⟨hSound.length_more_le, fun line hLine => hSound.eq_line hLine⟩
  · rw [hRead, ← hDivide.physical]
    exact Passage.head?_read 1 passages
  · rw [hRead]
    exact Passage.pairwise_read 1 passages
  · rw [hRead] at hLine
    have hBounds := Passage.line_of_mem_read hLine
    omega

end Elixir

end PhoenixLens
