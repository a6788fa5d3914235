import PhoenixLens.Elixir.Scan
import PhoenixLens.Proofs.Elixir.ControllerReading

/-!
# Scanning controllers

What an action has collected after some of its lines is told by these lines alone. So the scan of a
tree adds to the controller of each module the actions in it and their renders, and is back where it
was behind the tree.
-/

namespace PhoenixLens.Elixir

/-! ### Names that are taken once -/

/-- Adds one after the other what has a name that is not taken yet. -/
def addNamed {α : Type} (name : α → String) (known more : List α) : List α :=
  more.foldl (fun known a => if known.any (name · == name a) then known else known ++ [a]) known

section

variable {α : Type} (name : α → String)

theorem addNamed_cons (known more : List α) (a : α) :
    addNamed name known (a :: more) =
      addNamed name (if known.any (name · == name a) then known else known ++ [a]) more := rfl

theorem addNamed_append (known more others : List α) :
    addNamed name known (more ++ others) = addNamed name (addNamed name known more) others :=
  List.foldl_append

theorem addAssigns_eq (assigns more : List RenderAssign) :
    addAssigns assigns more = addNamed RenderAssign.name assigns more := rfl

/-- Under each name stands what was added first. -/
theorem find?_addNamed (known more : List α) (wanted : String) :
    (addNamed name known more).find? (name · == wanted) =
      (known ++ more).find? (name · == wanted) := by
  induction more generalizing known with
  | nil => rw [List.append_nil]; rfl
  | cons a more ih =>
    rw [addNamed_cons, ih]
    cases hKnown : known.any (name · == name a) with
    | false =>
      rw [if_neg Bool.false_ne_true, List.append_assoc]
      rfl
    | true =>
      rw [if_pos rfl, List.find?_append, List.find?_append, List.find?_cons]
      cases hName : name a == wanted with
      | false => rfl
      | true =>
        have hFound : (known.find? (name · == wanted)).isSome = true := by
          rw [List.find?_isSome, ← eq_of_beq hName, ← List.any_eq_true]
          exact hKnown
        obtain ⟨b, hb⟩ := Option.isSome_iff_exists.mp hFound
        rw [hb]
        rfl

/-- What was known stays as it was, and nothing else has its names or a name twice. -/
theorem exists_addNamed (known more : List α) :
    ∃ others, addNamed name known more = known ++ others ∧ (others.map name).Nodup ∧
      ∀ a ∈ known, name a ∉ others.map name := by
  induction more generalizing known with
  | nil => exact ⟨[], (List.append_nil _).symm, .nil, fun _ _ => List.not_mem_nil⟩
  | cons a more ih =>
    rw [addNamed_cons]
    cases hKnown : known.any (name · == name a) with
    | true =>
      rw [if_pos rfl]
      exact ih known
    | false =>
      obtain ⟨others, hOthers, hOnce, hApart⟩ := ih (known ++ [a])
      have hNew : ∀ b ∈ known, name b ≠ name a := by
        intro b hb hSame
        rw [List.any_eq_false] at hKnown
        exact hKnown b hb (beq_iff_eq.mpr hSame)
      rw [List.forall_mem_append, List.forall_mem_singleton] at hApart
      rw [if_neg Bool.false_ne_true]
      refine ⟨a :: others, ?_, ?_, fun b hb => ?_⟩
      · rw [hOthers, List.append_assoc]
        rfl
      · exact List.nodup_cons.mpr ⟨hApart.2, hOnce⟩
      · rw [List.map_cons, List.mem_cons, not_or]
        exact ⟨hNew b hb, hApart.1 b hb⟩

theorem nodup_addNamed (more : List α) : ((addNamed name [] more).map name).Nodup := by
  obtain ⟨others, hOthers, hOnce, -⟩ := exists_addNamed name [] more
  rw [hOthers]
  exact hOnce

theorem isEmpty_addNamed (more : List α) : (addNamed name [] more).isEmpty = more.isEmpty := by
  cases more with
  | nil => rfl
  | cons a more =>
    obtain ⟨others, hOthers, -⟩ := exists_addNamed name [a] more
    have hFirst : addNamed name [] (a :: more) = a :: others := hOthers
    rw [hFirst]
    rfl

theorem mem_map_iff_find? {items : List α} {wanted : String} :
    wanted ∈ items.map name ↔ (items.find? (name · == wanted)).isSome = true := by
  simp only [List.find?_isSome, List.mem_map, beq_iff_eq]

end

/-! ### Lines of an action -/

/-- The expressions that variables are bound to behind some lines, the latest line first. -/
def bindingsOf : List LineContent → List (List Char × List Char)
  | [] => []
  | line :: earlier =>
    (line.binding?.map fun (name, value) => (name, valueOf earlier value)).toList ++
      bindingsOf earlier

/-- An action behind some lines, the latest line first. -/
def actionAfter (name : List Char) (outerDepth : Nat) (lines : List LineContent) : OpenAction :=
  { name
    outerDepth
    assigns := addAssigns [] (assignsOf lines)
    bindings := bindingsOf lines
    view := lines.findSome? LineContent.view? }

theorem lookup_bindingsOf (lines : List LineContent) (value : List Char) :
    ((bindingsOf lines).lookup value).getD value = valueOf lines value := by
  induction lines generalizing value with
  | nil => rfl
  | cons line earlier ih =>
    rw [bindingsOf, valueOf]
    cases line.binding? with
    | none => exact ih value
    | some binding =>
      obtain ⟨name, bound⟩ := binding
      by_cases hName : name = value
      · subst hName
        simp
      · have hNot : (value == name) = false := by simpa using Ne.symm hName
        simp only [Option.map_some, Option.toList_some, List.cons_append, List.nil_append,
          List.lookup_cons, hNot, if_neg hName]
        exact ih value

/-- The expressions in a line have no blanks around them. -/
structure LineContent.IsTrimmed (content : LineContent) : Prop where
  binding : ∀ binding ∈ content.binding?, Text.trim binding.2 = binding.2
  assigns : ∀ given ∈ content.assigns, Text.trim given.2 = given.2
  render : ∀ render ∈ content.render?, ∀ keyword ∈ render.2, Text.trim keyword.2 = keyword.2

theorem KeywordList.trim_keywords {keywords : KeywordList}
    (h : ∀ value ∈ keywords.values, IsSegment false value) :
    ∀ keyword ∈ keywords.keywords, Text.trim keyword.2 = keyword.2 :=
  List.forall_mem_map.mpr fun _ hEntry => (h _ (List.mem_map_of_mem hEntry)).trimmed.trim_eq

theorem LineContent.isTrimmed_empty : ({} : LineContent).IsTrimmed := ⟨nofun, nofun, nofun⟩

theorem ActionCall.IsPlain.isTrimmed {call : ActionCall} (h : call.IsPlain) :
    call.call.content.IsTrimmed := by
  have hValues := h.values
  cases hCall : call.call <;> rw [hCall] at hValues
  case assign name value =>
    refine ⟨nofun, List.forall_mem_singleton.mpr ?_, nofun⟩
    exact (hValues value (List.mem_singleton.mpr rfl)).trimmed.trim_eq
  case assigns keywords => exact ⟨nofun, KeywordList.trim_keywords hValues, nofun⟩
  case putView view => exact ⟨nofun, nofun, nofun⟩
  case putViews views => exact ⟨nofun, nofun, nofun⟩
  case render template keywords =>
    refine ⟨nofun, nofun, ?_⟩
    rintro render ⟨⟩
    exact KeywordList.trim_keywords hValues

theorem ActionLine.IsPlain.isTrimmed {line : ActionLine} (h : line.IsPlain) :
    line.content.IsTrimmed := by
  cases line with
  | blank => exact LineContent.isTrimmed_empty
  | binding target value =>
    refine ⟨?_, nofun, nofun⟩
    rintro binding ⟨⟩
    exact h.1.trimmed.trim_eq
  | call target? call =>
    have hContent := h.1.isTrimmed
    refine ⟨?_, hContent.assigns, hContent.render⟩
    cases target? with
    | none => nofun
    | some target =>
      rintro binding ⟨⟩
      exact h.1.isExpression.trimmed.trim_eq
  | other text => exact LineContent.isTrimmed_empty

def Rendering.info (rendering : Rendering) : RenderInfo :=
  { action := String.ofList rendering.action
    template := String.ofList rendering.template
    assigns := addAssigns rendering.own (addAssigns [] rendering.assigned)
    line := rendering.line
    viewModule := (rendering.lines.findSome? LineContent.view?).map String.ofList }

theorem Rendering.isRecorded_info (rendering : Rendering) : rendering.IsRecorded rendering.info := by
  have hValues (name : String) : rendering.info.assigns.find? (·.name == name) =
      (rendering.own ++ rendering.assigned).find? (·.name == name) := by
    rw [info, addAssigns_eq, find?_addNamed, List.find?_append, addAssigns_eq, find?_addNamed,
      List.nil_append, ← List.find?_append]
  obtain ⟨others, hOthers, hOnce, hApart⟩ :=
    exists_addNamed RenderAssign.name rendering.own (addAssigns [] rendering.assigned)
  refine ⟨rfl, rfl, rfl, fun name => ?_, hValues, ⟨others, hOthers, hOnce, hApart⟩, ?_, rfl⟩
  · rw [RenderInfo.assignNames, mem_map_iff_find?, hValues, ← mem_map_iff_find?, List.mem_map]
  · intro hOwn
    have hNames : rendering.info.assignNames =
        rendering.own.map RenderAssign.name ++ others.map RenderAssign.name := by
      rw [RenderInfo.assignNames, info, addAssigns_eq, hOthers, List.map_append]
    rw [hNames, List.nodup_append]
    exact ⟨hOwn, hOnce, List.forall_mem_map.mpr fun given hGiven other hOther hSame =>
      hApart given hGiven (hSame ▸ hOther)⟩

/-! #### Steps -/

theorem renderingsOf_cons (name : List Char) (n : Nat) (earlier : List LineContent)
    (content : LineContent) (contents : List LineContent) :
    renderingsOf name n earlier (content :: contents) =
      renderingsOf name n earlier [content] ++
        renderingsOf name (n + 1) (content :: earlier) contents := by
  rw [renderingsOf, renderingsOf, renderingsOf, List.append_nil]

section

variable {content : LineContent} {text name : List Char} {outerDepth n : Nat}
  {earlier : List LineContent}

theorem expand_eq_valueOf {action : OpenAction} {lines : List LineContent}
    (h : action.bindings = bindingsOf lines) {value : List Char} (hValue : Text.trim value = value) :
    action.expand value = valueOf lines value := by
  rw [OpenAction.expand, h, hValue]
  exact lookup_bindingsOf lines value

theorem assign_eq_assignOf {action : OpenAction} {lines : List LineContent}
    (h : action.bindings = bindingsOf lines) (name : List Char) {value : List Char}
    (hValue : Text.trim value = value) :
    action.assign name (some value) = assignOf name (valueOf lines value) := by
  rw [OpenAction.assign, Option.map_some, expand_eq_valueOf h hValue]
  rfl

theorem bind_actionAfter (h : Reads text content) (hTrimmed : content.IsTrimmed) :
    (actionAfter name outerDepth earlier).bind text =
      { actionAfter name outerDepth earlier with bindings := bindingsOf (content :: earlier) } := by
  have hOwn : (actionAfter name outerDepth earlier).bindings = bindingsOf earlier := rfl
  rw [OpenAction.bind, h.binding, bindingsOf]
  cases hBinding : content.binding? with
  | none => rfl
  | some binding =>
    simp only [expand_eq_valueOf hOwn (hTrimmed.binding binding hBinding)]
    rfl

theorem assigns_eq {bound : OpenAction} (h : Reads text content) (hTrimmed : content.IsTrimmed)
    (hBound : bound.bindings = bindingsOf (content :: earlier)) :
    (assignCalls text).map (fun (name, value) => bound.assign name value) =
      content.assigns.map fun (name, value) => assignOf name (valueOf (content :: earlier) value) := by
  rw [h.assigns, List.map_map]
  exact List.map_congr_left fun given hMem =>
    assign_eq_assignOf hBound given.1 (hTrimmed.assigns given hMem)

theorem renders_actionAfter (h : Reads text content) (hTrimmed : content.IsTrimmed) (n : Nat) :
    (renderCalls text).map (fun (template, keywords) =>
      (actionAfter name outerDepth (content :: earlier)).render n template keywords) =
        (renderingsOf name n earlier [content]).map Rendering.info := by
  rw [h.renders, renderingsOf, renderingsOf, List.append_nil]
  cases hRender : content.render? with
  | none => rfl
  | some render =>
    obtain ⟨template, keywords⟩ := render
    have hOwn : (actionAfter name outerDepth (content :: earlier)).bindings =
        bindingsOf (content :: earlier) := rfl
    have hKeywords : keywords.map (fun (key, value) =>
          (actionAfter name outerDepth (content :: earlier)).assign key (some value)) =
        keywords.map fun (key, value) => assignOf key (valueOf (content :: earlier) value) :=
      List.map_congr_left fun keyword hMem =>
        assign_eq_assignOf hOwn keyword.1 (hTrimmed.render _ hRender keyword hMem)
    simp only [Option.toList_some, List.map_cons, List.map_nil, Option.map_some, OpenAction.render,
      hKeywords]
    rfl

/-- A line of an action binds, assigns, chooses and renders what it says. -/
theorem takeLine_actionAfter (h : Reads text content) (hTrimmed : content.IsTrimmed) (name : List Char)
    (outerDepth n : Nat) (earlier : List LineContent) :
    (actionAfter name outerDepth earlier).takeLine n text =
      (actionAfter name outerDepth (content :: earlier),
        (renderingsOf name n earlier [content]).map Rendering.info) := by
  let bound : OpenAction :=
    { actionAfter name outerDepth earlier with bindings := bindingsOf (content :: earlier) }
  have hBound : bound.bindings = bindingsOf (content :: earlier) := rfl
  have hCollect : bound.collect text =
      { bound with assigns := addAssigns [] (assignsOf (content :: earlier)) } := by
    rw [OpenAction.collect, assigns_eq h hTrimmed hBound, assignsOf]
    exact congrArg (fun assigns => { bound with assigns })
      (addNamed_append RenderAssign.name [] (assignsOf earlier) _).symm
  have hChoose : (bound.collect text).choose text = actionAfter name outerDepth (content :: earlier) := by
    rw [hCollect, OpenAction.choose, h.view, actionAfter, List.findSome?_cons]
    cases content.view? <;> rfl
  rw [OpenAction.takeLine, bind_actionAfter h hTrimmed]
  change ((bound.collect text).choose text, _) = _
  rw [hChoose]
  exact congrArg (Prod.mk _) (renders_actionAfter h hTrimmed n)

end

/-! #### Written lines -/

/-- A written line that begins no action and no module and leaves the blocks as they are. -/
structure IsInnerLine (text : List Char) : Prop where
  noAction : actionName? (Text.trim text) = none
  noModule : moduleOpening? text = none
  level : IsLevelLine text

/-- A written line of an action. -/
structure IsBodyLine (text : List Char) (content : LineContent) : Prop extends IsInnerLine text where
  reads : Reads (Text.trim text) content
  isTrimmed : content.IsTrimmed

theorem isInnerLine_blank : IsInnerLine [] := ⟨rfl, rfl, rfl⟩

theorem isBodyLine_blank : IsBodyLine [] {} := by
  have hNone : OpensNoCall [] := by decide
  exact ⟨isInnerLine_blank, .of_opensNoCall hNone, LineContent.isTrimmed_empty⟩

theorem IsExpression.isInnerLine {text : List Char} (h : IsExpression true text)
    (hLevel : IsLevelLine text) (hDefinition : definitionHead? text = none)
    (hModule : moduleOpening? text = none) (width : Nat) :
    IsInnerLine (List.replicate width ' ' ++ text) := by
  have hBlanks := Text.isBlank_indentation width
  refine ⟨?_, (moduleOpening?_behind_blanks hBlanks text).trans hModule, ?_⟩
  · rw [h.trimmed.trim_append hBlanks, actionName?, hDefinition]
    rfl
  · rw [IsLevelLine, (h.isOwnLine width).blocks]
    exact hLevel

theorem IsActionLine.isBodyLine {text : List Char} {content : LineContent} (h : IsActionLine text content)
    (hTrimmed : content.IsTrimmed) (width : Nat) :
    IsBodyLine (List.replicate width ' ' ++ text) content := by
  have hTrim : Text.trim (List.replicate width ' ' ++ text) = text :=
    h.isExpression.trimmed.trim_indented _
  refine ⟨h.isExpression.isInnerLine h.level h.noDefinition h.noModule width, ?_, hTrimmed⟩
  rw [hTrim]
  exact h.reads

theorem ActionLine.IsPlain.exists_written {line : ActionLine} (h : line.IsPlain) (width depth : Nat) :
    ∃ text, line.written width depth = .line text ∧ IsBodyLine text line.content := by
  cases line with
  | blank => exact ⟨[], rfl, isBodyLine_blank⟩
  | _ => exact ⟨_, rfl, (h.isActionLine nofun).isBodyLine h.isTrimmed _⟩

/-! #### Written functions -/

section

variable {function : ControllerFunction} {rest text : List Char} {content : LineContent}

/-- A line that the function begins in. -/
structure IsHeadLine (function : ControllerFunction) (rest : List Char) (content : LineContent) :
    Prop where
  trimmed : Text.IsTrimmed (function.clause.head ++ rest)
  reads : Reads (function.clause.head ++ rest) content
  isTrimmed : content.IsTrimmed

theorem isHeadLine_do (h : function.IsPlain) : IsHeadLine function " do".toList {} :=
  ⟨FunctionClause.isTrimmed_do h.arguments, ControllerFunction.reads_do h, LineContent.isTrimmed_empty⟩

/-- An expression behind `do:` with what it does. -/
inductive IsInline (function : ControllerFunction) : List Char → LineContent → Prop where
  | call {made : ActionCall} (h : made.IsPlain) (hLevel : IsLevelLine made.text)
      (hBody : function.body = .call made) : IsInline function made.text made.call.content
  | other {text : List Char} (h : IsExpression true text) (hCalls : OpensNoCall text)
      (hLevel : IsLevelLine text) (hBody : function.body = .other text) : IsInline function text {}

namespace IsInline

theorem isExpression (h : IsInline function text content) : IsExpression true text := by
  cases h with
  | call h => exact h.isExpression
  | other h => exact h

theorem isHeadLine (h : IsInline function text content) (hPlain : function.IsPlain) :
    IsHeadLine function (", do: ".toList ++ text) content := by
  have hArguments : ∀ argument ∈ function.clause.arguments, IsArgument argument := hPlain.arguments
  have hLine := (FunctionClause.isExpression_line hArguments h.isExpression).1
  cases h with
  | call h => exact ⟨hLine.trimmed, ControllerFunction.reads_inline_call hPlain h, h.isTrimmed⟩
  | other _ hCalls =>
    exact ⟨hLine.trimmed, ControllerFunction.reads_inline_other hPlain hCalls,
      LineContent.isTrimmed_empty⟩

theorem level (h : IsInline function text content) : IsLevelLine text := by
  cases h <;> assumption

theorem lines (h : IsInline function text content) (width depth : Nat) :
    function.lines width depth =
      [indented width depth (function.clause.head ++ (", do: ".toList ++ text))] := by
  cases h <;> rw [ControllerFunction.lines, ‹function.body = _›]

theorem contents (h : IsInline function text content) : function.contents = [content] := by
  cases h <;> rw [ControllerFunction.contents, ‹function.body = _›]

end IsInline

theorem ControllerFunction.IsPlain.cases (h : function.IsPlain) :
    (∃ text content, IsInline function text content) ∨
      ∃ lines, function.body = .block lines ∧ ∀ line ∈ lines, line.IsPlain := by
  have hBody := h.body
  cases hCase : function.body with
  | block lines =>
    rw [hCase] at hBody
    exact .inr ⟨lines, rfl, hBody⟩
  | call made =>
    rw [hCase] at hBody
    exact .inl ⟨_, _, .call hBody.1 hBody.2 hCase⟩
  | other text =>
    rw [hCase] at hBody
    exact .inl ⟨_, _, .other hBody.1 hBody.2.1 hBody.2.2 hCase⟩

end

/-! ### Controllers -/

section

variable {moduleName other : String} {first second : ControllerInfo → ControllerInfo}
  {controllers more : List ControllerInfo}

theorem updateController_cons_self {info : ControllerInfo} (h : info.moduleName = moduleName)
    (update : ControllerInfo → ControllerInfo) (controllers : List ControllerInfo) :
    updateController moduleName update (info :: controllers) = update info :: controllers := by
  rw [updateController, if_pos (beq_iff_eq.mpr h)]

/-- The controllers of other modules stay as they are. -/
theorem updateController_append (h : ∀ info ∈ controllers, info.moduleName ≠ moduleName)
    (update : ControllerInfo → ControllerInfo) (more : List ControllerInfo) :
    updateController moduleName update (controllers ++ more) =
      controllers ++ updateController moduleName update more := by
  induction controllers with
  | nil => rfl
  | cons info controllers ih =>
    obtain ⟨hFirst, hRest⟩ := List.forall_mem_cons.mp h
    rw [List.cons_append, updateController, if_neg (by simpa using hFirst), ih hRest, List.cons_append]

theorem updateController_updateController (h : ∀ info, (first info).moduleName = info.moduleName) :
    updateController moduleName second (updateController moduleName first controllers) =
      updateController moduleName (second ∘ first) controllers := by
  induction controllers with
  | nil => rfl
  | cons info controllers ih =>
    cases hName : info.moduleName == moduleName with
    | true =>
      simp only [updateController, hName, if_pos, h, Function.comp_apply]
    | false =>
      simp only [updateController, hName, if_neg Bool.false_ne_true, ih]

theorem updateController_id (controllers : List ControllerInfo) :
    updateController moduleName id controllers = controllers := by
  induction controllers with
  | nil => rfl
  | cons info controllers ih =>
    rw [updateController, ih]
    split <;> rfl

theorem any_updateController (h : ∀ info, (first info).moduleName = info.moduleName) :
    (updateController moduleName first controllers).any (·.moduleName == other) =
      controllers.any (·.moduleName == other) := by
  induction controllers with
  | nil => rfl
  | cons info controllers ih =>
    rw [updateController]
    split
    · rw [List.any_cons, List.any_cons, h]
    · rw [List.any_cons, List.any_cons, ih]

end

/-- Adds actions whose names are not taken yet, and renders. -/
def ControllerInfo.addCode (actions : List ControllerAction) (renderings : List Rendering)
    (info : ControllerInfo) : ControllerInfo :=
  { info with
    actions := addNamed ControllerAction.name info.actions actions
    renders := info.renders ++ renderings.map Rendering.info }

section

variable {actions more : List ControllerAction} {renderings others : List Rendering}

theorem addCode_nil : ControllerInfo.addCode [] [] = id := by
  funext info
  rw [ControllerInfo.addCode, List.map_nil, List.append_nil]
  rfl

theorem addCode_comp :
    ControllerInfo.addCode more others ∘ ControllerInfo.addCode actions renderings =
      ControllerInfo.addCode (actions ++ more) (renderings ++ others) := by
  funext info
  simp only [Function.comp_apply, ControllerInfo.addCode, addNamed_append, List.map_append,
    List.append_assoc]

theorem addAction_eq (name : List Char) (n : Nat) :
    addAction name n = ControllerInfo.addCode [⟨String.ofList name, n⟩] [] := by
  funext info
  rw [addAction, ControllerInfo.addCode, addNamed_cons, List.map_nil, List.append_nil]
  split <;> rfl

end

def updateIn (module? : Option (List Char)) (update : ControllerInfo → ControllerInfo)
    (controllers : List ControllerInfo) : List ControllerInfo :=
  match module? with
  | some name => updateController (String.ofList name) update controllers
  | none => controllers

/-- The controller of the module is known, if there is a module. -/
def Knows (controllers : List ControllerInfo) (module? : Option (List Char)) : Prop :=
  ∀ name ∈ module?, controllers.any (·.moduleName == String.ofList name) = true

section

variable {module? outer? : Option (List Char)} {controllers front : List ControllerInfo}
  {actions more : List ControllerAction} {renderings others : List Rendering}

theorem updateIn_nil : updateIn module? (ControllerInfo.addCode [] []) controllers = controllers := by
  cases module? with
  | none => rfl
  | some name =>
    rw [addCode_nil]
    exact updateController_id controllers

theorem updateIn_addCode :
    updateIn module? (ControllerInfo.addCode more others)
        (updateIn module? (ControllerInfo.addCode actions renderings) controllers) =
      updateIn module? (ControllerInfo.addCode (actions ++ more) (renderings ++ others))
        controllers := by
  cases module? with
  | none => rfl
  | some name =>
    rw [← addCode_comp]
    exact updateController_updateController fun _ => rfl

theorem updateIn_append (h : ∀ name ∈ module?, ∀ info ∈ front, info.moduleName ≠ String.ofList name)
    (update : ControllerInfo → ControllerInfo) :
    updateIn module? update (front ++ controllers) = front ++ updateIn module? update controllers := by
  cases module? with
  | none => rfl
  | some name => exact updateController_append (h name rfl) update controllers

theorem Knows.updateIn (h : Knows controllers outer?) :
    Knows (updateIn module? (ControllerInfo.addCode actions renderings) controllers) outer? := by
  have hSame : ∀ info, (ControllerInfo.addCode actions renderings info).moduleName = info.moduleName :=
    fun _ => rfl
  intro name hName
  cases module? with
  | none => exact h name hName
  | some inner => exact (any_updateController hSame).trans (h name hName)

theorem Knows.append (h : Knows controllers outer?) (front : List ControllerInfo) :
    Knows (front ++ controllers) outer? := by
  intro name hName
  rw [List.any_append, h name hName, Bool.or_true]

end

def PlacedModule.info (file : Path) (placed : PlacedModule) : ControllerInfo :=
  ControllerInfo.addCode placed.actions placed.renderings
    { moduleName := String.ofList placed.name, filePath := file, line := placed.line }

theorem PlacedModule.isRecorded_info (file : Path) (placed : PlacedModule) :
    placed.IsRecorded file (placed.info file) := by
  refine ⟨rfl, rfl, rfl, ⟨?_, fun name => ?_⟩, ?_⟩
  · exact nodup_addNamed ControllerAction.name placed.actions
  · exact find?_addNamed ControllerAction.name [] placed.actions name
  · rw [info, ControllerInfo.addCode, List.nil_append, List.forall₂_map_right_iff, List.forall₂_same]
    exact fun rendering _ => rendering.isRecorded_info

theorem knows_cons {info : ControllerInfo} {controllers : List ControllerInfo} {name : List Char}
    (h : info.moduleName = String.ofList name) : Knows (info :: controllers) (some name) := by
  rintro _ ⟨⟩
  rw [List.any_cons, h, beq_self_eq_true, Bool.true_or]

theorem updateIn_modules {module? : Option (List Char)} {placed : List PlacedModule} {file : Path}
    {controllers : List ControllerInfo}
    (h : ∀ outer ∈ module?, ∀ p ∈ placed, outer.length < p.name.length)
    (update : ControllerInfo → ControllerInfo) :
    updateIn module? update ((placed.map (PlacedModule.info file)).reverse ++ controllers) =
      (placed.map (PlacedModule.info file)).reverse ++ updateIn module? update controllers := by
  refine updateIn_append (fun outer hOuter => ?_) update
  intro info hInfo hSame
  rw [List.mem_reverse, List.mem_map] at hInfo
  obtain ⟨p, hMem, rfl⟩ := hInfo
  have hName : p.name = outer := String.ofList_injective hSame
  exact absurd (h outer hOuter p hMem) (by rw [hName]; exact Nat.lt_irrefl _)

namespace ControllerState

/-! ### Steps -/

section

variable {tracker other : BlockTracker} {controllers : List ControllerInfo} {file : Path}
  {n width depth outerDepth : Nat} {name text moduleName : List Char} {content : LineContent}
  {earlier : List LineContent} {action? : Option OpenAction}

/-- Outside of actions, a line that begins none adds the modules that begin in it. -/
theorem takeLine_outside (h : tracker.currentModule? = none ∨ actionName? (Text.trim text) = none) :
    takeLine { tracker, controllers } file { line := n, text } =
      { tracker := tracker.advance text
        controllers := (tracker.opened? text).toList.map
          (fun name => { moduleName := String.ofList name, filePath := file, line := n }) ++
            controllers } := by
  rw [takeLine]
  cases hCurrent : tracker.currentModule? with
  | none => rfl
  | some moduleName =>
    have hName := h.resolve_left (by simp [hCurrent])
    simp only [Option.map_some, takeCode, hName, ite_self]
    rfl

/-- Nor does a line that begins no module add anything. -/
theorem takeLine_idle (h : tracker.currentModule? = none ∨ actionName? (Text.trim text) = none)
    (hModule : moduleOpening? text = none) (hBlocks : tracker.advance text = other) :
    takeLine { tracker, controllers } file { line := n, text } = { tracker := other, controllers } := by
  rw [takeLine_outside h, hBlocks, BlockTracker.opened?, hModule]
  rfl

/-- A line in an action of a module. -/
theorem takeLine_action (hCurrent : tracker.currentModule? = some moduleName)
    (hKnown : Knows controllers (some moduleName)) (hName : actionName? (Text.trim text) = none)
    (hModule : moduleOpening? text = none) (hReads : Reads (Text.trim text) content)
    (hTrimmed : content.IsTrimmed) (hBlocks : tracker.advance text = other) :
    takeLine { tracker, controllers, action := some (actionAfter name outerDepth earlier) } file
        { line := n, text } =
      { tracker := other
        controllers := updateIn (some moduleName)
          (ControllerInfo.addCode [] (renderingsOf name n earlier [content])) controllers
        action := if outerDepth < other.depth then
          some (actionAfter name outerDepth (content :: earlier)) else none } := by
  have hOpened : tracker.opened? text = none := by rw [BlockTracker.opened?, hModule]; rfl
  have hSome := hKnown moduleName rfl
  rw [takeLine]
  simp only [hCurrent, Option.map_some, hSome, if_true, takeCode, hName,
    takeLine_actionAfter hReads hTrimmed, hOpened, hBlocks]
  rw [Option.filter_some]
  simp only [decide_eq_true_eq]
  rfl

/-- The line that an action begins in belongs to it. -/
theorem takeLine_begins (hCurrent : tracker.currentModule? = some moduleName)
    (hKnown : Knows controllers (some moduleName)) (hName : actionName? (Text.trim text) = some name)
    (hModule : moduleOpening? text = none) (hReads : Reads (Text.trim text) content)
    (hTrimmed : content.IsTrimmed) (hBlocks : tracker.advance text = other) :
    takeLine { tracker, controllers } file { line := n, text } =
      { tracker := other
        controllers := updateIn (some moduleName)
          (ControllerInfo.addCode [⟨String.ofList name, n⟩] (renderingsOf name n [] [content]))
          controllers
        action := if tracker.depth < other.depth then
          some (actionAfter name tracker.depth [content]) else none } := by
  have hOpened : tracker.opened? text = none := by rw [BlockTracker.opened?, hModule]; rfl
  have hSome := hKnown moduleName rfl
  have hBegin : begin { tracker, controllers } (String.ofList moduleName) n name =
      { tracker
        controllers := updateIn (some moduleName)
          (ControllerInfo.addCode [⟨String.ofList name, n⟩] []) controllers
        action := some (actionAfter name tracker.depth []) } := by
    rw [begin, addAction_eq]
    rfl
  have hBoth : updateIn (some moduleName)
        (ControllerInfo.addCode [] (renderingsOf name n [] [content]))
        (updateIn (some moduleName) (ControllerInfo.addCode [⟨String.ofList name, n⟩] [])
          controllers) =
      updateIn (some moduleName) (ControllerInfo.addCode [⟨String.ofList name, n⟩]
        (renderingsOf name n [] [content])) controllers := updateIn_addCode
  rw [takeLine]
  simp only [hCurrent, Option.map_some, hSome, if_true, takeCode, hName, hBegin,
    takeLine_actionAfter hReads hTrimmed, hOpened, hBlocks, ← hBoth]
  rw [Option.filter_some]
  simp only [decide_eq_true_eq]
  rfl

theorem noDefinition_moduleCall (name : ModuleAlias) : definitionHead? (moduleCall name).text = none := by
  rw [moduleCall_text]
  rfl

/-- The record of a module is begun in the line of the module. -/
theorem takeLine_module (name : ModuleAlias) (hStacked : tracker.IsStacked) :
    takeLine { tracker, controllers } file
        ((indented width depth (moduleCall name).text).logical n) =
      { tracker := tracker.inside name.1
        controllers :=
          { moduleName := String.ofList (tracker.fullName name.1), filePath := file, line := n } ::
            controllers } := by
  have hBlanks := Text.isBlank_indentation (width * depth)
  have hTrim : Text.trim (List.replicate (width * depth) ' ' ++ (moduleCall name).text) =
      (moduleCall name).text := (moduleCall_wellFormed name).isTrimmed.trim_append hBlanks
  have hOpened : tracker.opened? (List.replicate (width * depth) ' ' ++ (moduleCall name).text) =
      some (tracker.fullName name.1) := by
    rw [BlockTracker.opened?, moduleOpening?_moduleCall name hBlanks]
    rfl
  have hName : actionName? (Text.trim (List.replicate (width * depth) ' ' ++ (moduleCall name).text)) =
      none := by
    rw [hTrim, actionName?, noDefinition_moduleCall]
    rfl
  have hLine : takeLine { tracker, controllers } file
      { line := n, text := List.replicate (width * depth) ' ' ++ (moduleCall name).text } = _ :=
    takeLine_outside (.inr hName)
  simp only [hOpened, BlockTracker.advance_module name hStacked] at hLine
  exact hLine

theorem takeLine_inner (h : IsInnerLine text) (hStacked : tracker.IsStacked) :
    takeLine { tracker, controllers } file { line := n, text } = { tracker, controllers } :=
  takeLine_idle (.inr h.noAction) h.noModule (BlockTracker.advance_level h.noModule h.level hStacked)

theorem actionName?_end (width : Nat) :
    actionName? (Text.trim (List.replicate width ' ' ++ "end".toList)) = none := by
  rw [trim_end]
  rfl

theorem takeLine_end (hBlocks : tracker.advance (List.replicate (width * depth) ' ' ++ "end".toList) =
    other) :
    takeLine { tracker, controllers } file ((indented width depth "end".toList).logical n) =
      { tracker := other, controllers } :=
  takeLine_idle (.inr (actionName?_end _)) (BlockTracker.moduleOpening?_end _) hBlocks

/-- The end of an action adds nothing to it. -/
theorem takeLine_actionEnd (hCurrent : tracker.currentModule? = some moduleName)
    (hKnown : Knows controllers (some moduleName))
    (hBlocks : tracker.advance (List.replicate (width * depth) ' ' ++ "end".toList) = other) :
    takeLine { tracker, controllers, action := some (actionAfter name outerDepth earlier) } file
        ((indented width depth "end".toList).logical n) =
      { tracker := other
        controllers
        action := if outerDepth < other.depth then
          some (actionAfter name outerDepth ({} :: earlier)) else none } := by
  have hCalls : OpensNoCall "end".toList := .of_not_mem (by decide)
  have hReads : Reads (Text.trim (List.replicate (width * depth) ' ' ++ "end".toList)) {} := by
    rw [trim_end]
    exact .of_opensNoCall hCalls
  refine (takeLine_action hCurrent hKnown (actionName?_end _) (BlockTracker.moduleOpening?_end _) hReads
    LineContent.isTrimmed_empty hBlocks).trans ?_
  exact congrArg (ControllerState.mk other · _) updateIn_nil

end

/-! ### Runs -/

/-- The state after lines, the first of them numbered `n`. -/
def scanned (file : Path) (state : ControllerState) (n : Nat) (lines : List SourceLine) :
    ControllerState :=
  SourceLine.run (fun state line => takeLine state file line) state n lines

section

variable {tracker : BlockTracker} {controllers : List ControllerInfo} {file : Path}
  {n width depth : Nat} {name moduleName : List Char} {earlier : List LineContent}

theorem scanned_append (state : ControllerState) (n : Nat) (lines more : List SourceLine) :
    scanned file state n (lines ++ more) =
      scanned file (scanned file state n lines) (n + SourceLine.heights lines) more :=
  SourceLine.run_append _ state n lines more

theorem scanned_cons (state : ControllerState) (n : Nat) (written : SourceLine)
    (lines : List SourceLine) :
    scanned file state n (written :: lines) =
      scanned file (state.takeLine file (written.logical n)) (n + written.height) lines := rfl

theorem scanned_idle {lines : List ActionLine} (h : ∀ line ∈ lines, line.IsPlain)
    (hStacked : tracker.IsStacked) :
    scanned file { tracker, controllers } n (lines.map (ActionLine.written width depth)) =
      { tracker, controllers } := by
  induction lines generalizing n with
  | nil => rfl
  | cons line lines ih =>
    obtain ⟨hFirst, hRest⟩ := List.forall_mem_cons.mp h
    obtain ⟨text, hText, hLine⟩ := hFirst.exists_written width depth
    rw [List.map_cons, scanned_cons, hText, SourceLine.logical,
      takeLine_inner hLine.toIsInnerLine hStacked, ih hRest]

/-- Each line of an action adds its renders, behind the lines before. -/
theorem scanned_body {lines : List ActionLine} (h : ∀ line ∈ lines, line.IsPlain)
    (hStacked : tracker.IsStacked) (hCurrent : tracker.currentModule? = some moduleName)
    (hKnown : Knows controllers (some moduleName)) :
    scanned file
        { tracker := tracker.within
          controllers
          action := some (actionAfter name tracker.depth earlier) }
        n (lines.map (ActionLine.written width depth)) =
      { tracker := tracker.within
        controllers := updateIn (some moduleName)
          (ControllerInfo.addCode [] (renderingsOf name n earlier (lines.map ActionLine.content)))
          controllers
        action := some
          (actionAfter name tracker.depth ((lines.map ActionLine.content).reverse ++ earlier)) } := by
  induction lines generalizing n controllers earlier with
  | nil =>
    rw [List.map_nil, List.map_nil, renderingsOf, updateIn_nil]
    rfl
  | cons line lines ih =>
    obtain ⟨hFirst, hRest⟩ := List.forall_mem_cons.mp h
    obtain ⟨text, hText, hLine⟩ := hFirst.exists_written width depth
    have hBlocks := BlockTracker.advance_level hLine.noModule hLine.level hStacked.within
    have hOpen : tracker.depth < tracker.within.depth := Nat.lt_succ_self _
    have hWithin : tracker.within.currentModule? = some moduleName := hCurrent
    rw [List.map_cons, scanned_cons, hText, SourceLine.logical,
      takeLine_action hWithin hKnown hLine.noAction hLine.noModule hLine.reads hLine.isTrimmed hBlocks,
      if_pos hOpen, ih hRest hKnown.updateIn, updateIn_addCode, List.map_cons, List.reverse_cons,
      List.append_assoc, renderingsOf_cons name n earlier line.content (lines.map ActionLine.content)]
    rfl

end

section

variable {tracker other : BlockTracker} {controllers : List ControllerInfo} {file : Path}
  {n width depth : Nat} {function : ControllerFunction} {rest : List Char} {content : LineContent}

theorem takeLine_head (h : function.IsPlain) (hLine : IsHeadLine function rest content)
    (hKnown : Knows controllers tracker.currentModule?)
    (hBlocks : tracker.advance (List.replicate (width * depth) ' ' ++ (function.clause.head ++ rest)) =
      other) :
    takeLine { tracker, controllers } file
        ((indented width depth (function.clause.head ++ rest)).logical n) =
      { tracker := other
        controllers := updateIn tracker.currentModule?
          (ControllerInfo.addCode (function.actions n)
            (if function.isAction then renderingsOf function.name.text n [] [content] else []))
          controllers
        action := if (tracker.currentModule?.isSome ∧ function.isAction) ∧ tracker.depth < other.depth then
          some (actionAfter function.name.text tracker.depth [content]) else none } := by
  have hBlanks := Text.isBlank_indentation (width * depth)
  have hModule := function.clause.moduleOpening?_head hBlanks rest
  have hTrim := hLine.trimmed.trim_append hBlanks
  have hName := (congrArg actionName? hTrim).trans (ControllerFunction.actionName?_head h.arguments rest)
  rw [ControllerFunction.actions]
  cases hAction : function.isAction with
  | false =>
    rw [hAction] at hName
    refine (takeLine_idle (.inr hName) hModule hBlocks).trans ?_
    simp [updateIn_nil]
  | true =>
    rw [hAction] at hName
    cases hCurrent : tracker.currentModule? with
    | none =>
      refine (takeLine_idle (.inl hCurrent) hModule hBlocks).trans ?_
      simp [updateIn]
    | some moduleName =>
      rw [hCurrent] at hKnown
      have hReads : Reads (Text.trim (List.replicate (width * depth) ' ' ++
          (function.clause.head ++ rest))) content := by
        rw [hTrim]
        exact hLine.reads
      refine (takeLine_begins hCurrent hKnown hName hModule hReads hLine.isTrimmed hBlocks).trans ?_
      simp

theorem heights_body (width depth : Nat) (lines : List ActionLine) :
    SourceLine.heights (lines.map (ActionLine.written width depth)) = lines.length := by
  induction lines with
  | nil => rfl
  | cons line lines ih =>
    have hOne : (line.written width depth).height = 1 := by cases line <;> rfl
    rw [List.map_cons, SourceLine.heights_cons, ih, hOne, List.length_cons, Nat.add_comm]

theorem heights_function (width depth : Nat) (function : ControllerFunction) :
    SourceLine.heights (function.lines width depth) = function.height := by
  rw [ControllerFunction.lines, ControllerFunction.height]
  cases function.body with
  | block lines =>
    rw [SourceLine.heights_cons, SourceLine.heights_append, heights_body]
    rfl
  | call made => rfl
  | other text => rfl

theorem scanned_inline {text : List Char} (h : IsInline function text content)
    (hPlain : function.IsPlain) (hStacked : tracker.IsStacked)
    (hKnown : Knows controllers tracker.currentModule?) :
    scanned file { tracker, controllers } n (function.lines width depth) =
      { tracker
        controllers := updateIn tracker.currentModule?
          (ControllerInfo.addCode (function.actions n) (function.renderings n)) controllers } := by
  have hBlanks := Text.isBlank_indentation (width * depth)
  have hArguments : ∀ argument ∈ function.clause.arguments, IsArgument argument := hPlain.arguments
  obtain ⟨hLine, hDelta⟩ := FunctionClause.isExpression_line hArguments h.isExpression
  have hLevel := h.level
  have hBlocks := BlockTracker.advance_level
    (function.clause.moduleOpening?_head hBlanks (", do: ".toList ++ text))
    (by rw [(hLine.isOwnLine (width * depth)).blocks, hDelta, hLevel]) hStacked
  rw [h.lines]
  refine (takeLine_head hPlain (h.isHeadLine hPlain) hKnown hBlocks).trans ?_
  have hNot : ¬((tracker.currentModule?.isSome ∧ function.isAction) ∧ tracker.depth < tracker.depth) :=
    fun hBoth => Nat.lt_irrefl _ hBoth.2
  rw [ControllerFunction.renderings, h.contents, if_neg hNot]

theorem scanned_block {lines : List ActionLine} (hBody : function.body = .block lines)
    (h : ∀ line ∈ lines, line.IsPlain)
    (hPlain : function.IsPlain) (hStacked : tracker.IsStacked)
    (hKnown : Knows controllers tracker.currentModule?) :
    scanned file { tracker, controllers } n (function.lines width depth) =
      { tracker
        controllers := updateIn tracker.currentModule?
          (ControllerInfo.addCode (function.actions n) (function.renderings n)) controllers } := by
  have hBlanks := Text.isBlank_indentation (width * depth)
  have hArguments : ∀ argument ∈ function.clause.arguments, IsArgument argument := hPlain.arguments
  have hDelta := (FunctionClause.isOwnLine_do hArguments (width * depth)).blocks
  have hBlocks := BlockTracker.advance_within (function.clause.moduleOpening?_head hBlanks " do".toList)
    (by rw [hDelta]) hStacked
  have hEnd := BlockTracker.advance_end hStacked (width * depth)
  have hOpen : tracker.depth < tracker.within.depth := Nat.lt_succ_self _
  have hLines : function.lines width depth =
      indented width depth (function.clause.head ++ " do".toList) ::
        (lines.map (ActionLine.written width (depth + 1)) ++ [indented width depth "end".toList]) := by
    rw [ControllerFunction.lines, hBody]
  have hNone (action : List Char) (n : Nat) (earlier : List LineContent) :
      renderingsOf action n earlier [{}] = [] := rfl
  rw [hLines, scanned_cons, takeLine_head hPlain (isHeadLine_do hPlain) hKnown hBlocks, scanned_append,
    hNone, ite_self]
  by_cases hIn : tracker.currentModule?.isSome ∧ function.isAction
  · obtain ⟨hSome, hAction⟩ := hIn
    obtain ⟨moduleName, hCurrent⟩ := Option.isSome_iff_exists.mp hSome
    have hWithin : tracker.within.currentModule? = some moduleName := hCurrent
    have hRenderings : function.renderings n =
        renderingsOf function.name.text (n + 1) [{}] (lines.map ActionLine.content) := by
      rw [ControllerFunction.renderings, hAction, if_pos rfl, ControllerFunction.contents, hBody]
      rw [renderingsOf_cons, hNone, List.nil_append]
    rw [hCurrent] at hKnown
    rw [if_pos ⟨⟨hSome, hAction⟩, hOpen⟩, hCurrent, height_indented,
      scanned_body h hStacked hCurrent hKnown.updateIn, updateIn_addCode, hRenderings]
    refine (takeLine_actionEnd hWithin hKnown.updateIn hEnd).trans ?_
    rw [if_neg (Nat.lt_irrefl _), List.append_nil, List.nil_append]
  · rw [if_neg fun hBoth => hIn hBoth.1, scanned_idle h hStacked.within]
    refine (takeLine_end hEnd).trans ?_
    cases hCurrent : tracker.currentModule? with
    | none => rfl
    | some moduleName =>
      have hAction : function.isAction = false := by simpa [hCurrent] using hIn
      rw [ControllerFunction.renderings, hAction, if_neg Bool.false_ne_true]

theorem scanned_function (h : function.IsPlain) (hStacked : tracker.IsStacked)
    (hKnown : Knows controllers tracker.currentModule?) :
    scanned file { tracker, controllers } n (function.lines width depth) =
      { tracker
        controllers := updateIn tracker.currentModule?
          (ControllerInfo.addCode (function.actions n) (function.renderings n)) controllers } := by
  rcases h.cases with ⟨text, content, hInline⟩ | ⟨lines, hBody, hLines⟩
  · exact scanned_inline hInline h hStacked hKnown
  · exact scanned_block hBody hLines h hStacked hKnown

end

section

variable {tracker : BlockTracker} {controllers : List ControllerInfo} {file : Path} {n width depth : Nat}

theorem heights_tree (width depth : Nat) (tree : ControllerTree) :
    SourceLine.heights (tree.lines width depth) = tree.height := by
  induction tree generalizing depth with
  | done => rfl
  | blank next ih | other text next ih =>
    rw [ControllerTree.lines, SourceLine.heights_cons, ih]
    rfl
  | function defined next ih =>
    rw [ControllerTree.lines, SourceLine.heights_append, heights_function, ih]
    rfl
  | module name body next ihBody ihNext =>
    rw [ControllerTree.lines, SourceLine.heights_cons, SourceLine.heights_append, ihBody,
      SourceLine.heights_cons, ihNext]
    rfl

theorem length_lt_nameWithin {outer? : Option (List Char)} {outer : List Char} (h : outer ∈ outer?)
    (name : List Char) : outer.length < (nameWithin outer? name).length := by
  cases h
  simp [nameWithin]

theorem length_lt_of_mem_modules {tree : ControllerTree} {outer : List Char} {placed : PlacedModule}
    (h : placed ∈ tree.modules (some outer) n) : outer.length < placed.name.length := by
  induction tree generalizing outer n with
  | done => cases h
  | blank next ih | other text next ih => exact ih h
  | function defined next ih => exact ih h
  | module name body next ihBody ihNext =>
    have hFull := length_lt_nameWithin (Option.mem_some_self outer) name.1
    rw [ControllerTree.modules, List.mem_append, List.mem_cons] at h
    rcases h with (rfl | hBody) | hNext
    · exact hFull
    · exact hFull.trans (ihBody hBody)
    · exact ihNext hNext

/-- The scan of a tree adds the modules in it, and to the controller around it what its functions do. -/
theorem scanned_tree {tree : ControllerTree} (h : tree.IsPlain) (hStacked : tracker.IsStacked)
    (hKnown : Knows controllers tracker.currentModule?) :
    scanned file { tracker, controllers } n (tree.lines width depth) =
      { tracker
        controllers :=
          ((tree.modules tracker.currentModule? n).map (PlacedModule.info file)).reverse ++
            updateIn tracker.currentModule?
              (ControllerInfo.addCode (tree.actions n) (tree.renderings n)) controllers } := by
  induction tree generalizing tracker controllers n depth with
  | done =>
    rw [ControllerTree.actions, ControllerTree.renderings, updateIn_nil]
    rfl
  | blank next ih =>
    rw [ControllerTree.lines, scanned_cons, SourceLine.logical, takeLine_inner isInnerLine_blank hStacked]
    exact ih h hStacked hKnown
  | other text next ih =>
    obtain ⟨hText, hNext⟩ := h
    have hInner := hText.isExpression.isInnerLine hText.level hText.noDefinition hText.noModule
      (width * depth)
    rw [ControllerTree.lines, scanned_cons, indented, SourceLine.logical, takeLine_inner hInner hStacked]
    exact ih hNext hStacked hKnown
  | function defined next ih =>
    obtain ⟨hDefined, hNext⟩ := h
    rw [ControllerTree.lines, scanned_append, scanned_function hDefined hStacked hKnown,
      ih hNext hStacked hKnown.updateIn, heights_function, updateIn_addCode, ControllerTree.modules,
      ControllerTree.actions, ControllerTree.renderings]
  | module name body next ihBody ihNext =>
    obtain ⟨hBody, hNext⟩ := h
    let full := nameWithin tracker.currentModule? name.1
    let inner : List PlacedModule := ⟨full, n, body⟩ :: body.modules (some full) (n + 1)
    have hLonger : ∀ outer ∈ tracker.currentModule?, ∀ placed ∈ inner,
        outer.length < placed.name.length := by
      intro outer hOuter
      have hFull : outer.length < full.length := length_lt_nameWithin hOuter name.1
      exact List.forall_mem_cons.mpr
        ⟨hFull, fun placed hPlaced => hFull.trans (length_lt_of_mem_modules hPlaced)⟩
    have hOpened : Knows
        ({ moduleName := String.ofList full, filePath := file, line := n } :: controllers)
        (tracker.inside name.1).currentModule? := knows_cons rfl
    have hRun : scanned file
        { tracker := tracker.inside name.1
          controllers :=
            { moduleName := String.ofList full, filePath := file, line := n } :: controllers }
        (n + 1) (body.lines width (depth + 1)) =
          { tracker := tracker.inside name.1
            controllers := (inner.map (PlacedModule.info file)).reverse ++ controllers } := by
      rw [ihBody hBody (hStacked.inside name.1) hOpened, BlockTracker.currentModule?_inside]
      simp only [inner, List.map_cons, List.reverse_cons, List.append_assoc]
      exact congrArg (fun opened => ControllerState.mk _ (_ ++ opened) none)
        (updateController_cons_self rfl _ controllers)
    rw [ControllerTree.lines, scanned_cons, takeLine_module name hStacked, scanned_append,
      height_indented, show tracker.fullName name.1 = full from rfl, hRun, scanned_cons,
      takeLine_end (BlockTracker.advance_end_inside hStacked name.1 _), heights_tree, height_indented,
      ihNext hNext hStacked (hKnown.append _), updateIn_modules hLonger, ControllerTree.modules,
      ControllerTree.actions, ControllerTree.renderings]
    simp only [Nat.add_assoc, List.map_append, List.reverse_append, List.append_assoc]
    rfl

end

end ControllerState

/-! ### Sources -/

namespace ControllerTree

variable {tree : ControllerTree} {function : ControllerFunction} {line : ActionLine}

theorem isSound_line (h : line.IsPlain) (width depth : Nat) : (line.written width depth).IsSound := by
  cases line with
  | blank => exact isSound_blank
  | _ => exact .line ⟨_, (h.isActionLine nofun).isExpression.isOwnLine _⟩

theorem isSound_function (h : function.IsPlain) (width depth : Nat) :
    ∀ written ∈ function.lines width depth, written.IsSound := by
  have hArguments : ∀ argument ∈ function.clause.arguments, IsArgument argument := h.arguments
  rcases h.cases with ⟨text, content, hInline⟩ | ⟨lines, hBody, hLines⟩
  · rw [hInline.lines, List.forall_mem_singleton]
    exact .line ⟨_, (FunctionClause.isExpression_line hArguments hInline.isExpression).1.isOwnLine _⟩
  · rw [ControllerFunction.lines, hBody]
    simp only [List.forall_mem_cons, List.forall_mem_append, List.forall_mem_map]
    exact ⟨.line ⟨_, FunctionClause.isOwnLine_do hArguments _⟩,
      fun line hMem => isSound_line (hLines line hMem) width _, isSound_end _ _, List.forall_mem_nil _⟩

theorem isSound_lines (h : tree.IsPlain) (width depth : Nat) :
    ∀ written ∈ tree.lines width depth, written.IsSound := by
  induction tree generalizing depth with
  | done => exact List.forall_mem_nil _
  | blank next ih =>
    rw [lines, List.forall_mem_cons]
    exact ⟨isSound_blank, ih h depth⟩
  | other text next ih =>
    rw [lines, List.forall_mem_cons]
    exact ⟨.line ⟨_, h.1.isExpression.isOwnLine _⟩, ih h.2 depth⟩
  | function defined next ih =>
    rw [lines, List.forall_mem_append]
    exact ⟨isSound_function h.1 width depth, ih h.2 depth⟩
  | module name body next ihBody ihNext =>
    rw [lines, List.forall_mem_cons, List.forall_mem_append, List.forall_mem_cons]
    exact ⟨isSound_call (moduleCall_wellFormed name) _ _, ihBody h.1 _, isSound_end _ _,
      ihNext h.2 depth⟩

theorem renderings_eq_nil {n : Nat} (h : tree.actions n = []) : tree.renderings n = [] := by
  induction tree generalizing n with
  | done => rfl
  | blank next ih | other text next ih => exact ih h
  | function defined next ih =>
    rw [actions, List.append_eq_nil_iff] at h
    rw [renderings, ih h.2, List.append_nil, ControllerFunction.renderings]
    cases hAction : defined.isAction with
    | false => rfl
    | true => simp [ControllerFunction.actions, hAction] at h
  | module name body next ihBody ihNext => exact ihNext h

/-- A controller is listed if it has actions; without these it has no renders either. -/
theorem isListed_info (file : Path) (placed : PlacedModule) :
    (!(placed.info file).actions.isEmpty || !(placed.info file).renders.isEmpty) =
      !placed.actions.isEmpty := by
  have hActions : (placed.info file).actions.isEmpty = placed.actions.isEmpty :=
    isEmpty_addNamed ControllerAction.name placed.actions
  have hRenders : (placed.info file).renders = placed.renderings.map Rendering.info := List.nil_append _
  rw [hActions, hRenders, List.isEmpty_map]
  cases hNone : placed.actions.isEmpty with
  | false => rfl
  | true =>
    rw [PlacedModule.renderings, renderings_eq_nil (List.isEmpty_iff.mp hNone)]
    rfl

/-- The controllers of a source are the modules in its tree that have actions. Each of them has the
renders of its actions, and each render passes on its own keywords and, behind them, the names that
have been assigned before, with their first values. -/
theorem scan_controllers_source (disk : Disk) (file : Path) (width : Nat) (tree : ControllerTree)
    (h : tree.IsPlain) :
    List.Forall₂ (PlacedModule.IsRecorded file)
      ((tree.modules none 1).filter fun placed => !placed.actions.isEmpty)
      (EntityKind.controllers.scan disk file (tree.source width)) := by
  have hLines := logicalLines_sourceText (isSound_lines h width 0)
  have hRun : ControllerState.scanned file {} 1 (tree.lines width 0) =
      { controllers := ((tree.modules none 1).map (PlacedModule.info file)).reverse ++ [] } :=
    ControllerState.scanned_tree h BlockTracker.isStacked_nil nofun
  have hScan : EntityKind.controllers.scan disk file (tree.source width) =
      ((tree.modules none 1).filter fun placed => !placed.actions.isEmpty).map
        (PlacedModule.info file) := by
    rw [EntityKind.scan, controllersOf, source, hLines]
    have hControllers := congrArg (fun state => state.controllers.reverse) hRun
    simp only [List.append_nil, List.reverse_reverse] at hControllers
    refine (congrArg (List.filter _) hControllers).trans ?_
    rw [List.filter_map]
    exact congrArg _ (List.filter_congr fun placed _ => isListed_info file placed)
  rw [hScan, List.forall₂_map_right_iff, List.forall₂_same]
  exact fun placed _ => placed.isRecorded_info file

/-- A module with an action that counts twice before it renders. -/
def shop : ControllerTree :=
  let count : AtomLiteral := ⟨.atom ⟨"count".toList, .inl (by decide)⟩, rfl⟩
  let piped := fun call => ActionLine.call none { form := .piped false, call }
  .module ⟨"Shop".toList, .part ⟨⟨'S', "hop".toList, rfl, rfl⟩, by decide⟩, by decide⟩
    (.function
      { isPrivate := false
        name :=
          { stem := ⟨"index".toList, ⟨'i', "ndex".toList, rfl, rfl⟩, by decide⟩
            mark := ⟨[], Markup.isMark_nil⟩
            isIdle := by decide }
        arguments := ["conn".toList, "_params".toList]
        body := .block
          [.binding ⟨"name".toList, ⟨'n', "ame".toList, rfl, rfl⟩, by decide⟩ "load()".toList,
            .other "conn".toList,
            piped (.assign count "1".toList),
            piped (.assign count "2".toList),
            piped (.putView ⟨"ShopHTML".toList, .part ⟨⟨'S', "hopHTML".toList, rfl, rfl⟩, by decide⟩⟩),
            piped (.render ⟨.atom ⟨"index".toList, .inl (by decide)⟩, rfl⟩
              { entries := [(⟨"name".toList, by decide⟩, "name".toList)] })] }
      .done)
    .done

theorem scan_controllers_source_shop :
    shop.IsPlain ∧ List.Forall₂ (PlacedModule.IsRecorded ⟨"/app/shop.ex"⟩)
      ((shop.modules none 1).filter fun placed => !placed.actions.isEmpty)
      (EntityKind.controllers.scan {} ⟨"/app/shop.ex"⟩ (shop.source 2)) := by
  have hPlain : shop.IsPlain := by
    refine ⟨⟨⟨by decide, by decide, ?_⟩, trivial⟩, trivial⟩
    have hPiped {call : ControllerCall} (hValues : ∀ value ∈ call.values, IsSegment false value)
        (hCalls : ∀ argument ∈ call.arguments, OpensNoCall argument)
        (hFirst : ∀ first ∈ call.arguments.head?, mentionsConn first = true → (parseAtom? first).isSome)
        (hLevel : IsLevelLine (ActionCall.mk (.piped false) call).text) :
        (ActionLine.call none { form := .piped false, call }).IsPlain :=
      ⟨⟨hValues, hCalls, hFirst⟩, hLevel⟩
    simp only [FunctionBody.IsPlain, List.forall_mem_cons]
    refine ⟨⟨by decide, by decide, by decide⟩, ⟨⟨by decide, by decide, by decide, rfl, rfl⟩, rfl⟩,
      hPiped ?_ ?_ ?_ ?_, hPiped ?_ ?_ ?_ ?_, hPiped ?_ ?_ ?_ ?_, hPiped ?_ ?_ ?_ ?_,
      List.forall_mem_nil _⟩
    all_goals decide
  exact ⟨hPlain, scan_controllers_source {} ⟨"/app/shop.ex"⟩ 2 shop hPlain⟩

/-- Of two assigns of a name the first one is recorded, though the template gets the last one. -/
theorem first_assign_prevails :
    EntityKind.controllers.scan {} ⟨"/app/shop.ex"⟩ (shop.source 2) =
        [{ moduleName := "Shop"
           filePath := ⟨"/app/shop.ex"⟩
           line := 1
           actions := [⟨"index", 2⟩]
           renders := [
            { action := some "index"
              template := "index"
              assigns := [⟨"name", some "load()"⟩, ⟨"count", some "1"⟩]
              line := 8
              viewModule := some "ShopHTML" }] }] ∧
      ((shop.modules none 1).flatMap PlacedModule.renderings).map
          (fun rendering => rendering.assigned.reverse.find? (·.name == "count")) =
        [some ⟨"count", some "2"⟩] := by
  constructor
  all_goals decide

end ControllerTree

end PhoenixLens.Elixir
