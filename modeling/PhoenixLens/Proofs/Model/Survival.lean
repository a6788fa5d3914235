import PhoenixLens.Model.EntityKind
import PhoenixLens.Proofs.Json.Records

/-!
# Entities survive being written

Every entity is read back as it was written, with all its fields, if its lines have numbers of 32
bits. Encoders of records have a shape in common: each field survives where it stands.
-/

namespace PhoenixLens

open Json (Survives)

variable {depth : Nat}

theorem uint32_le_uint64 : UInt32.size ≤ UInt64.size := by decide

/-- A number of 32 bits. -/
theorem survives_line {line : Nat} (h : line < UInt32.size) :
    Survives depth (Json.decodeNat UInt32.size) (.nat line) line := .nat uint32_le_uint64 h

/-! ### Components -/

theorem Attribute.survives (declared : Attribute) :
    Survives (depth + 2) decode declared.encode declared :=
  .record (by simp) fun _ =>
    .required (.str _) <| .required (.str _) <| .withDefault (.bool _) <|
    .withDefault (.optionalString _) <|
    .withDefault (.option nofun fun values _ => .strings values) <|
    .withDefault (.optionalString _) .done

theorem Slot.survives (slot : Slot) : Survives (depth + 4) decode slot.encode slot :=
  .record (by simp) fun _ =>
    .required (.str _) <| .withDefault (.bool _) <| .withDefault (.optionalString _) <|
    .withDefault (.list fun declared _ => declared.survives) .done

theorem Component.survives {component : Component} (hLine : component.line < UInt32.size) :
    Survives (depth + 6) decode component.encode component :=
  .record (by simp) fun _ =>
    .required (.str _) <| .required (.str _) <| .withDefault (.path _) <|
    .required (survives_line hLine) <|
    .withDefault (.list fun declared _ => declared.survives) <|
    .withDefault (.list fun slot _ => slot.survives) .done

/-! ### Routes -/

theorem ResourceOptions.survives (options : ResourceOptions) :
    Survives (depth + 2) decode options.encode options :=
  .record (by simp) fun _ =>
    .withDefault (.option nofun fun names _ => .strings names) <|
    .withDefault (.option nofun fun names _ => .strings names) <|
    .withDefault (.bool _) <| .withDefault (.optionalString _) <|
    .withDefault (.optionalString _) .done

theorem Route.survives {route : Route} (hLine : route.line < UInt32.size) :
    Survives (depth + 3) decode route.encode route :=
  .record (by simp) fun _ =>
    .required (.str _) <| .required (.str _) <| .withDefault (.path _) <|
    .required (survives_line hLine) <| .withDefault (.optionalString _) <|
    .withDefault (.optionalString _) <| .required (.str _) <| .withDefault (.strings _) <|
    .withDefault (.bool _) <| .withDefault (.optionalString _) <|
    .withDefault (.optionalString _) <| .withDefault (.optionalString _) <|
    .withDefault (.option nofun fun options _ => options.survives) <|
    .withDefault (.strings _) <| .withDefault (.optionalString _) .done

/-! ### Events -/

theorem EventKind.ofTag?_tag (kind : EventKind) : ofTag? kind.tag = some kind := by
  cases kind <;> rfl

theorem NameKind.ofTag?_tag (kind : NameKind) : ofTag? kind.tag = some kind := by
  cases kind <;> rfl

theorem Event.survives {event : Event} (hLine : event.line < UInt32.size) :
    Survives (depth + 1) decode event.encode event :=
  .record (by simp) fun _ =>
    .required (.str _) <| .withDefault (.path _) <| .required (.str _) <|
    .required (survives_line hLine) <| .withDefault (.str _) <|
    .required (.tag event.kind.ofTag?_tag) <| .withDefault (.optionalString _) <|
    .required (.tag event.nameKind.ofTag?_tag) .done

/-! ### Schemas -/

theorem SchemaField.survives (field : SchemaField) :
    Survives (depth + 1) decode field.encode field :=
  .record (by simp) fun _ =>
    .required (.str _) <| .required (.str _) <| .withDefault (.optionalString _) .done

theorem Association.survives (association : Association) :
    Survives (depth + 1) decode association.encode association :=
  .record (by simp) fun _ =>
    .required (.str _) <| .required (.str _) <|
    .required (.tag association.type.ofTag?_tag) .done

theorem SchemaInfo.survives {schema : SchemaInfo} (hLine : schema.line < UInt32.size) :
    Survives (depth + 3) decode schema.encode schema :=
  .record (by simp) fun _ =>
    .required (.str _) <| .withDefault (.optionalString _) <| .withDefault (.path _) <|
    .withDefault (survives_line hLine) <|
    .withDefault (.list fun field _ => field.survives) <|
    .withDefault (.list fun association _ => association.survives) .done

/-! ### Templates -/

theorem TemplateKind.ofTag?_tag (kind : TemplateKind) : ofTag? kind.tag = some kind := by
  cases kind <;> rfl

theorem TemplateInfo.survives {template : TemplateInfo} (hLine : template.line < UInt32.size) :
    Survives (depth + 1) decode template.encode template :=
  .record (by simp) fun _ =>
    .required (.str _) <| .required (.str _) <| .required (.path _) <| .withDefault (.path _) <|
    .withDefault (survives_line hLine) <| .required (.tag template.kind.ofTag?_tag) <|
    .withDefault (.str _) .done

/-! ### Controllers -/

theorem ControllerAction.survives {action : ControllerAction} (hLine : action.line < UInt32.size) :
    Survives (depth + 1) decode action.encode action :=
  .record (by simp) fun _ => .required (.str _) <| .required (survives_line hLine) .done

/-- An assign is written as an object, never as its name alone. -/
theorem RenderAssign.survives (assign : RenderAssign) :
    Survives (depth + 1) decode assign.encode assign := by
  have hRecord : Survives (depth + 1) (Json.decodeRecord do
      return {
        name := ← Json.required "name" Json.decodeString
        value := ← Json.optional "value" Json.decodeString }) assign.encode assign :=
    .record (by simp) fun _ =>
      .required (.str _) <| .withDefault (.optionalString _) .done
  refine ⟨hRecord.written, ?_⟩
  have hReadable := hRecord.written.isReadable_ordered
  have hDecoded := hRecord.decoded
  obtain ⟨members, hMembers⟩ : ∃ members, assign.encode.ordered = .obj members := ⟨_, rfl⟩
  rw [hMembers] at hReadable hDecoded ⊢
  change (if !(Json.obj members).isReadable then none else _) = _
  rw [hReadable]
  exact hDecoded

theorem RenderInfo.survives {render : RenderInfo} (hLine : render.line < UInt32.size) :
    Survives (depth + 3) decode render.encode render :=
  .record (by simp) fun _ =>
    .withDefault (.optionalString _) <| .required (.str _) <|
    .withDefault (.list fun assign _ => assign.survives) <|
    .required (survives_line hLine) <| .withDefault (.optionalString _) .done

theorem ControllerInfo.survives {controller : ControllerInfo}
    (hLine : controller.line < UInt32.size)
    (hActions : ∀ action ∈ controller.actions, action.line < UInt32.size)
    (hRenders : ∀ render ∈ controller.renders, render.line < UInt32.size) :
    Survives (depth + 5) decode controller.encode controller :=
  .record (by simp) fun _ =>
    .required (.str _) <| .withDefault (.path _) <| .withDefault (survives_line hLine) <|
    .withDefault (.list fun action hAction => ControllerAction.survives (hActions action hAction)) <|
    .withDefault (.list fun render hRender => RenderInfo.survives (hRenders render hRender)) .done

/-! ### Kinds -/

/-- The lines of an entity have numbers of 32 bits. -/
def EntityKind.FitsLines : (kind : EntityKind) → kind.Entity → Prop
  | .components, (component : Component) => component.line < UInt32.size
  | .routes, (route : Route) => route.line < UInt32.size
  | .events, (event : Event) => event.line < UInt32.size
  | .schemas, (schema : SchemaInfo) => schema.line < UInt32.size
  | .templates, (template : TemplateInfo) => template.line < UInt32.size
  | .controllers, (controller : ControllerInfo) =>
    controller.line < UInt32.size ∧
      (∀ action ∈ controller.actions, action.line < UInt32.size) ∧
      ∀ render ∈ controller.renders, render.line < UInt32.size

theorem EntityKind.survives {kind : EntityKind} {entity : kind.Entity} (h : kind.FitsLines entity) :
    Survives (depth + 6) kind.decodeEntity (kind.encodeEntity entity) entity := by
  cases kind with
  | components => exact Component.survives h
  | routes => exact Route.survives h
  | events => exact Event.survives h
  | schemas => exact SchemaInfo.survives h
  | templates => exact TemplateInfo.survives h
  | controllers => exact ControllerInfo.survives h.1 h.2.1 h.2.2

end PhoenixLens
