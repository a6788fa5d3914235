import PhoenixLens.Proofs.Elixir.RouterTree

/-!
# Reading the lines of a router

Each line of a written tree is read as the declaration that it was written for, with the routes
that the declaration has at its place.
-/

namespace PhoenixLens.Elixir

/-! ### Lines are well-formed -/

theorem RouterNames.value_wellFormed (names : RouterNames) : names.value.WellFormed := by
  cases names with
  | one name => exact name.2
  | list names =>
    intro name hName
    obtain ⟨own, _, rfl⟩ := List.mem_map.mp hName
    exact own.2

theorem RouterNames.names_value (names : RouterNames) : names.value.names = names.names := by
  cases names <;> rfl

theorem RouterNames.parseNames_value (names : RouterNames) :
    parseNames names.value.text = names.names := by
  rw [RouterValue.parseNames_text names.value_wellFormed, names.names_value]

theorem ResourceOption.keyword_wellFormed (option : ResourceOption) :
    option.keyword.1 ∈ routerKeys ∧ option.keyword.2.WellFormed := by
  cases option with
  | only names => exact ⟨show "only" ∈ routerKeys by decide, names.value_wellFormed⟩
  | except names => exact ⟨show "except" ∈ routerKeys by decide, names.value_wellFormed⟩
  | singleton value => exact ⟨show "singleton" ∈ routerKeys by decide, trivial⟩
  | param text => exact ⟨show "param" ∈ routerKeys by decide, text.2⟩
  | as name => exact ⟨show "as" ∈ routerKeys by decide, name.2⟩

theorem asKeyword_wellFormed {as? : Option AtomName} {keyword : String × RouterValue}
    (h : keyword ∈ asKeyword as?) : keyword.1 ∈ routerKeys ∧ keyword.2.WellFormed := by
  cases as? with
  | none => cases h
  | some name =>
    rw [List.mem_singleton.mp h]
    exact ⟨show "as" ∈ routerKeys by decide, name.2⟩

theorem isMacro_of_routeVerb (verb : RouteVerb) : verb.1 ∈ routerMacros :=
  List.mem_append_right _ verb.2

theorem RouterResources.line_wellFormed (resources : RouterResources) (opens : Bool) :
    (resources.line opens).WellFormed := by
  refine ⟨show "resources" ∈ routerMacros by decide, List.cons_ne_nil _ _, ?_, ?_⟩
  · intro value hValue
    simp only [line, List.mem_cons, List.not_mem_nil, or_false] at hValue
    rcases hValue with rfl | rfl
    · exact resources.path.2
    · exact resources.controller.2
  · intro keyword hKeyword
    obtain ⟨option, _, rfl⟩ := List.mem_map.mp hKeyword
    exact option.keyword_wellFormed

theorem RouterLeaf.line_wellFormed (leaf : RouterLeaf) : leaf.line.WellFormed := by
  cases leaf with
  | verb name path controller action as? =>
    refine ⟨isMacro_of_routeVerb name, List.cons_ne_nil _ _, ?_, fun _ => asKeyword_wellFormed⟩
    intro value hValue
    simp only [line, List.mem_cons, List.not_mem_nil, or_false] at hValue
    rcases hValue with rfl | rfl | rfl
    · exact path.2
    · exact controller.2
    · exact action.2
  | «match» verbs path controller action as? =>
    refine ⟨show "match" ∈ routerMacros by decide, List.cons_ne_nil _ _, ?_,
      fun _ => asKeyword_wellFormed⟩
    intro value hValue
    simp only [line, List.mem_cons, List.not_mem_nil, or_false] at hValue
    rcases hValue with rfl | rfl | rfl | rfl
    · exact verbs.value_wellFormed
    · exact path.2
    · exact controller.2
    · exact action.2
  | live path view action? as? =>
    refine ⟨show "live" ∈ routerMacros by decide, List.cons_ne_nil _ _, ?_,
      fun _ => asKeyword_wellFormed⟩
    intro value hValue
    simp only [line, List.cons_append, List.nil_append, List.mem_cons] at hValue
    rcases hValue with rfl | rfl | hAction
    · exact path.2
    · exact view.2
    · obtain ⟨action, _, rfl⟩ := Option.map_eq_some_iff.mp (Option.mem_toList.mp hAction)
      exact action.2
  | forward path plug =>
    refine ⟨show "forward" ∈ routerMacros by decide, List.cons_ne_nil _ _, ?_, nofun⟩
    intro value hValue
    simp only [line, List.mem_cons, List.not_mem_nil, or_false] at hValue
    rcases hValue with rfl | rfl
    · exact path.2
    · exact plug.2
  | resources declared => exact declared.line_wellFormed false

theorem RouterOpening.line_wellFormed (opening : RouterOpening) : opening.line.WellFormed := by
  cases opening with
  | scope path alias? as? =>
    refine ⟨show "scope" ∈ routerMacros by decide, List.cons_ne_nil _ _, ?_,
      fun _ => asKeyword_wellFormed⟩
    intro value hValue
    rcases List.mem_cons.mp hValue with rfl | hAlias
    · exact path.2
    · obtain ⟨module, _, rfl⟩ := Option.map_eq_some_iff.mp (Option.mem_toList.mp hAlias)
      exact module.2
  | liveSession name =>
    refine ⟨show "live_session" ∈ routerMacros by decide, List.cons_ne_nil _ _, ?_, nofun⟩
    intro value hValue
    rw [List.mem_singleton.mp hValue]
    exact name.2
  | pipeline name =>
    refine ⟨show "pipeline" ∈ routerMacros by decide, List.cons_ne_nil _ _, ?_, nofun⟩
    intro value hValue
    rw [List.mem_singleton.mp hValue]
    exact name.2
  | resources declared => exact declared.line_wellFormed true

theorem RouterNames.line_wellFormed (names : RouterNames) : names.line.WellFormed := by
  refine ⟨show "pipe_through" ∈ routerMacros by decide, List.cons_ne_nil _ _, ?_, nofun⟩
  intro value hValue
  rw [List.mem_singleton.mp hValue]
  exact names.value_wellFormed

/-! ### Places -/

/-- What the open blocks add to a declaration. -/
def RouterContext.place (context : RouterContext) : RouterPlace where
  outerPath := context.outerPath
  scopePath := context.scopePath?
  aliases := context.frames.filterMap RouterFrame.aliasName?
  helpers := context.frames.filterMap RouterFrame.helperName?
  pipelines := context.pipelines

/-! ### Options -/

/-- What is found under a key of some options, if the values under that key are read by `read`. -/
theorem keyword?_options {α : Type} (options : List ResourceOption) (positional : List (List Char))
    (key : String) (read : List Char → Option α) (field : ResourceOption → Option α)
    (hSame : ∀ option, option.keyword.1 = key →
      ∃ a, read option.keyword.2.text = some a ∧ field option = some a)
    (hOther : ∀ option, option.keyword.1 ≠ key → field option = none) :
    (Arguments.keyword? ⟨positional, options.map fun o => (o.keyword.1.toList, o.keyword.2.text)⟩
      key).bind read = options.findSome? field := by
  simp only [Arguments.keyword?, keyword?]
  induction options with
  | nil => rfl
  | cons option options ih =>
    rw [List.map_cons, List.lookup_cons, List.findSome?_cons]
    by_cases hKey : option.keyword.1 = key
    · obtain ⟨a, hRead, hField⟩ := hSame option hKey
      simp [hKey, hRead, hField]
    · have hDiffers : (key.toList == option.keyword.1.toList) = false := by
        simpa [String.toList_inj] using Ne.symm hKey
      rw [hDiffers, hOther option hKey]
      exact ih

/-! ### Arguments -/

section

variable (values : List (List Char)) (keywords : List (List Char × List Char))

theorem parseString?_path (path : PathText) :
    parseString? (RouterValue.string path.1).text = some path.1 :=
  RouterValue.parseString?_text (show (RouterValue.string path.1).WellFormed from path.2)

theorem isModuleName_name (module : ModuleName) :
    isModuleName (RouterValue.module module.1).text = true :=
  isModuleName_module module.2

theorem trim_name (module : ModuleName) :
    Text.trim (RouterValue.module module.1).text = module.1 := module.2.isTrimmed.trim_eq

theorem parseAtom?_name (module : ModuleName) :
    parseAtom? (RouterValue.module module.1).text = none :=
  RouterValue.parseAtom?_text (show (RouterValue.module module.1).WellFormed from module.2)

theorem parseAtom?_action (action : AtomName) :
    parseAtom? (RouterValue.atom action.1).text = some action.1 := parseAtom?_atom action.2

theorem parseName?_name (name : AtomName) :
    parseName? (RouterValue.atom name.1).text = some name.1 :=
  RouterValue.parseName?_text (show (RouterValue.atom name.1).WellFormed from name.2)

theorem path?_cons (path : PathText) :
    Arguments.path? ⟨(RouterValue.string path.1).text :: values, keywords⟩ = some path.1 :=
  parseString?_path path

theorem moduleAt?_one (first : List Char) (module : ModuleName) :
    Arguments.moduleAt? ⟨first :: (RouterValue.module module.1).text :: values, keywords⟩ 1 =
      some module.1 := by
  simp [Arguments.moduleAt?, isModuleName_name, trim_name]

theorem helper?_asKeyword (as? : Option AtomName) :
    Arguments.helper? ⟨values, (asKeyword as?).map fun k => (k.1.toList, k.2.text)⟩ =
      as?.map (·.1) := by
  cases as? with
  | none => rfl
  | some name => simp [Arguments.helper?, Arguments.keyword?, keyword?, asKeyword, parseName?_name]

end

theorem ownHelper_eq (as? : Option AtomName) (path module : List Char) (ending : String) :
    (((as?.map (·.1)).or (fixedHelper? path)).or (some (moduleHelper module ending))).getD [] =
      ownHelper as? path module ending := by
  cases as? with
  | none =>
    rw [ownHelper]
    cases fixedHelper? path <;> rfl
  | some name => rfl

/-! ### Leaves -/

theorem readRouterLine_forward (context : RouterContext) (file : Path) (n : Nat) (path : PathText)
    (plug : ModuleName) :
    readRouterLine context file n (RouterLeaf.forward path plug).line.text =
      .declares ((RouterLeaf.forward path plug).routes file context.place n) := by
  have h := (RouterLeaf.forward path plug).line_wellFormed
  simp only [readRouterLine, h.reading, String.ofList_toList]
  simp only [RouterLeaf.line, List.map_cons, List.map_nil, forwardRoute?, path?_cons, moduleAt?_one]
  rfl

theorem readRouterLine_live (context : RouterContext) (file : Path) (n : Nat) (path : PathText)
    (view : ModuleName) (action? as? : Option AtomName) :
    readRouterLine context file n (RouterLeaf.live path view action? as?).line.text =
      .declares ((RouterLeaf.live path view action? as?).routes file context.place n) := by
  have h := (RouterLeaf.live path view action? as?).line_wellFormed
  simp only [readRouterLine, h.reading, String.ofList_toList]
  simp only [RouterLeaf.line, List.cons_append, List.nil_append, List.map_cons, liveRoute?,
    path?_cons, moduleAt?_one, helper?_asKeyword, Option.map_some, ownHelper_eq]
  have hAction : (((RouterValue.string path.1).text :: (RouterValue.module view.1).text ::
      (action?.map fun a => RouterValue.atom a.1).toList.map RouterValue.text)[2]? >>= parseAtom?) =
      action?.map (·.1) := by
    cases action? with
    | none => rfl
    | some action => exact parseAtom?_action action
  rw [hAction, Option.map_map]
  rfl

theorem verbRoute?_eq (context : RouterContext) (file : Path) (n : Nat) (verb : List Char)
    (path : PathText) (controller : ModuleName) (action : AtomName) (as? : Option AtomName) :
    verbRoute? context file n (Text.asciiUppercase verb)
        ⟨[(RouterValue.string path.1).text, (RouterValue.module controller.1).text,
            (RouterValue.atom action.1).text],
          (asKeyword as?).map fun k => (k.1.toList, k.2.text)⟩ =
      some (verbRoute file context.place n verb path controller action as?) := by
  simp only [verbRoute?, path?_cons, Option.map_some, helper?_asKeyword, List.tail_cons,
    List.find?_cons, isModuleName_name, trim_name, ownHelper_eq, List.findSome?_cons,
    parseAtom?_name, parseAtom?_action]
  rfl

theorem readRouterLine_verb (context : RouterContext) (file : Path) (n : Nat) (name : RouteVerb)
    (path : PathText) (controller : ModuleName) (action : AtomName) (as? : Option AtomName) :
    readRouterLine context file n (RouterLeaf.verb name path controller action as?).line.text =
      .declares
        ((RouterLeaf.verb name path controller action as?).routes file context.place n) := by
  have h := (RouterLeaf.verb name path controller action as?).line_wellFormed
  simp only [readRouterLine, h.reading, String.ofList_toList]
  simp only [RouterLeaf.line, List.map_cons, List.map_nil, verbRoute?_eq]
  obtain ⟨verb, hVerb⟩ := name
  have hKnown : routeVerbs.contains verb = true := by simpa using hVerb
  simp only [routeVerbs, List.mem_cons, List.not_mem_nil, or_false] at hVerb
  rcases hVerb with rfl | rfl | rfl | rfl | rfl | rfl | rfl | rfl | rfl
  all_goals rfl

theorem readRouterLine_match (context : RouterContext) (file : Path) (n : Nat) (verbs : RouterNames)
    (path : PathText) (controller : ModuleName) (action : AtomName) (as? : Option AtomName) :
    readRouterLine context file n (RouterLeaf.match verbs path controller action as?).line.text =
      .declares
        ((RouterLeaf.match verbs path controller action as?).routes file context.place n) := by
  have h := (RouterLeaf.match verbs path controller action as?).line_wellFormed
  -- The arguments after the verbs are those of a declaration for one verb.
  let one := RouterLeaf.verb ⟨"get", by decide⟩ path controller action as?
  have hRest := one.line_wellFormed.ofList_arguments
  have hArguments : (RouterLeaf.match verbs path controller action as?).line.arguments.map (·.1) =
      verbs.value.text :: one.line.arguments.map (·.1) := rfl
  have hRoutes : matchRoutes context file n
      ((RouterLeaf.match verbs path controller action as?).line.arguments.map (·.1)) =
        (RouterLeaf.match verbs path controller action as?).routes file context.place n := by
    rw [hArguments, matchRoutes, verbs.parseNames_value, hRest]
    simp only [one, RouterLeaf.line, List.map_cons, List.map_nil, verbRoute?_eq]
    exact congrFun List.filterMap_eq_map _
  simp only [readRouterLine, h.reading, String.ofList_toList, hRoutes]
  rfl

/-! ### Resources -/

namespace RouterResources

def declared (resources : RouterResources) : Resources where
  path := resources.path.1
  controller := some resources.controller.1
  only := resources.only?
  except := resources.except?
  singleton := resources.singleton
  param? := resources.param?
  helper? := resources.as?

def arguments (resources : RouterResources) : Arguments where
  positional :=
    [(RouterValue.string resources.path.1).text, (RouterValue.module resources.controller.1).text]
  keywords := resources.options.map fun o => (o.keyword.1.toList, o.keyword.2.text)

variable (resources : RouterResources)

theorem keyword?_only : (resources.arguments.keyword? "only").map parseNames = resources.only? := by
  rw [Option.map_eq_bind]
  refine keyword?_options _ _ _ _ _ ?_ ?_
  · intro option hKey
    cases option with
    | only names => exact ⟨names.names, congrArg some names.parseNames_value, rfl⟩
    | _ => simp [ResourceOption.keyword] at hKey
  · intro option hKey
    cases option with
    | only names => exact absurd rfl hKey
    | _ => rfl

theorem keyword?_except :
    (resources.arguments.keyword? "except").map parseNames = resources.except? := by
  rw [Option.map_eq_bind]
  refine keyword?_options _ _ _ _ _ ?_ ?_
  · intro option hKey
    cases option with
    | except names => exact ⟨names.names, congrArg some names.parseNames_value, rfl⟩
    | _ => simp [ResourceOption.keyword] at hKey
  · intro option hKey
    cases option with
    | except names => exact absurd rfl hKey
    | _ => rfl

theorem keyword?_singleton :
    (resources.arguments.keyword? "singleton" == some "true".toList) = resources.singleton := by
  have hSingleton : resources.singleton = ((resources.arguments.keyword? "singleton").bind
      fun text => some (text == "true".toList)).getD false := by
    refine congrArg (·.getD false) (keyword?_options _ _ _ _ _ ?_ ?_).symm
    · intro option hKey
      cases option with
      | singleton value => exact ⟨value, by cases value <;> rfl, rfl⟩
      | _ => simp [ResourceOption.keyword] at hKey
    · intro option hKey
      cases option with
      | singleton value => exact absurd rfl hKey
      | _ => rfl
  rw [hSingleton]
  cases resources.arguments.keyword? "singleton" <;> rfl

theorem keyword?_param :
    resources.arguments.keyword? "param" >>= parseString? = resources.param? := by
  refine keyword?_options _ _ _ _ _ ?_ ?_
  · intro option hKey
    cases option with
    | param text => exact ⟨text.1, parseString?_path text, rfl⟩
    | _ => simp [ResourceOption.keyword] at hKey
  · intro option hKey
    cases option with
    | param text => exact absurd rfl hKey
    | _ => rfl

theorem keyword?_as : resources.arguments.helper? = resources.as? := by
  refine keyword?_options _ _ _ _ _ ?_ ?_
  · intro option hKey
    cases option with
    | as name => exact ⟨name.1, parseName?_name name, rfl⟩
    | _ => simp [ResourceOption.keyword] at hKey
  · intro option hKey
    cases option with
    | as name => exact absurd rfl hKey
    | _ => rfl

theorem ofArguments?_eq : Resources.ofArguments? resources.arguments = some resources.declared := by
  have hPath : resources.arguments.path? = some resources.path.1 := path?_cons _ _ _
  have hModule : resources.arguments.moduleAt? 1 = some resources.controller.1 :=
    moduleAt?_one _ _ _ _
  rw [Resources.ofArguments?, hPath, Option.map_some, hModule, keyword?_only, keyword?_except,
    keyword?_singleton, keyword?_param, keyword?_as]
  rfl

theorem frame_declared :
    resources.declared.frame = .resources resources.memberPath resources.helper := by
  rw [Resources.frame, memberPath]
  cases h : resources.singleton with
  | false =>
    simp [declared, h, Resources.base, Resources.itemName, Resources.param, Resources.helper, base,
      itemName, param, helper]
  | true => simp [declared, h, Resources.helper, Resources.itemName, helper, itemName]

theorem actions_declared :
    (resources.declared.allActions.filter fun a => resources.declared.allows a.action).map
        (fun a => (a.action, a.verb, a.ending)) =
      resources.actions.filter (resources.keeps ·.1) := by
  have hAllows : ∀ action, (resources.singleton && action == "index") = false →
      resources.declared.allows action = resources.keeps action := by
    intro action hAction
    rw [Resources.allows, keeps, hAction]
    simp only [declared]
    cases resources.only? <;> cases resources.except? <;> simp
  have hFilter : ∀ actions : List ResourceAction,
      (∀ a ∈ actions, (resources.singleton && a.action == "index") = false) →
      (actions.filter fun a => resources.declared.allows a.action) =
        actions.filter fun a => resources.keeps a.action :=
    fun actions h => List.filter_congr fun a ha => hAllows a.action (h a ha)
  cases hSingleton : resources.singleton with
  | false =>
    rw [hFilter _ fun a _ => by rw [hSingleton]; rfl]
    have hAll : resources.declared.allActions.map (fun a => (a.action, a.verb, a.ending)) =
        resources.actions := by
      simp [Resources.allActions, actions, declared, hSingleton, Resources.param, param]
    rw [← hAll, List.filter_map]
    rfl
  | true =>
    have hIndex : resources.keeps "index" = false := by
      rw [keeps, hSingleton]
      rfl
    have hOthers : ∀ a ∈ resources.declared.allActions, (a.action == "index") = false := by
      simp only [Resources.allActions, declared, hSingleton, if_true, List.nil_append]
      decide
    rw [hFilter _ fun a ha => by rw [hOthers a ha, Bool.and_false]]
    have hAll : ("index", "GET", []) :: resources.declared.allActions.map
        (fun a => (a.action, a.verb, a.ending)) = resources.actions := by
      simp [Resources.allActions, actions, declared, hSingleton]
    rw [← hAll, List.filter_cons_of_neg (by simp [hIndex]), List.filter_map]
    rfl

theorem routes_declared (context : RouterContext) (file : Path) (n : Nat) :
    resources.declared.routes context file n = resources.routes file context.place n := by
  rw [Resources.routes, routes, ← actions_declared, List.map_map]
  rfl

end RouterResources

theorem readRouterLine_resources (context : RouterContext) (file : Path) (n : Nat)
    (resources : RouterResources) (opens : Bool) :
    readRouterLine context file n (resources.line opens).text =
      .expands resources.declared opens := by
  have h := resources.line_wellFormed opens
  have hArguments : resources.arguments =
      ⟨(resources.line opens).positional.map RouterValue.text,
        (resources.line opens).keywords.map fun k => (k.1.toList, k.2.text)⟩ := by
    simp only [RouterResources.arguments, RouterResources.line, List.map_map]
    rfl
  simp only [readRouterLine, h.reading, String.ofList_toList, ← hArguments,
    resources.ofArguments?_eq]
  rfl

/-! ### Blocks and pipelines -/

/-- What an opening line adds to the routes in its block. -/
def RouterOpening.frame : RouterOpening → RouterFrame
  | scope path alias? as? => .scope path.1 (alias?.map (·.1)) (as?.map (·.1)) []
  | liveSession _ => .liveSession
  | pipeline _ => .pipeline
  | resources declared => .resources declared.memberPath declared.helper

theorem scopeFrame_eq (path : PathText) (alias? : Option ModuleName) (as? : Option AtomName) :
    scopeFrame
        ⟨(RouterValue.string path.1).text ::
            (alias?.map fun m => RouterValue.module m.1).toList.map RouterValue.text,
          (asKeyword as?).map fun k => (k.1.toList, k.2.text)⟩ =
      (RouterOpening.scope path alias? as?).frame := by
  have hPath : isModuleName (RouterValue.string path.1).text = false :=
    RouterValue.isModuleName_text (show (RouterValue.string path.1).WellFormed from path.2)
  have hAlias : keyword? ((asKeyword as?).map fun k => (k.1.toList, k.2.text)) "alias" = none := by
    cases as? with
    | none => rfl
    | some name => simp [keyword?, asKeyword]
  simp only [scopeFrame, helper?_asKeyword, List.findSome?_cons, parseString?_path,
    List.find?_cons, hPath, Arguments.keyword?, hAlias]
  cases alias? with
  | none => rfl
  | some module => simp [isModuleName_name, trim_name, RouterOpening.frame]

theorem readRouterLine_scope (context : RouterContext) (file : Path) (n : Nat) (path : PathText)
    (alias? : Option ModuleName) (as? : Option AtomName) :
    readRouterLine context file n (RouterOpening.scope path alias? as?).line.text =
      .opens (RouterOpening.scope path alias? as?).frame := by
  have h := (RouterOpening.scope path alias? as?).line_wellFormed
  simp only [readRouterLine, h.reading, String.ofList_toList]
  simp only [RouterOpening.line, List.map_cons, scopeFrame_eq]
  rfl

theorem readRouterLine_liveSession (context : RouterContext) (file : Path) (n : Nat)
    (name : AtomName) :
    readRouterLine context file n (RouterOpening.liveSession name).line.text =
      .opens .liveSession := by
  have h := (RouterOpening.liveSession name).line_wellFormed
  simp only [readRouterLine, h.reading, String.ofList_toList]
  rfl

theorem readRouterLine_pipeline (context : RouterContext) (file : Path) (n : Nat)
    (name : AtomName) :
    readRouterLine context file n (RouterOpening.pipeline name).line.text = .opens .pipeline := by
  have h := (RouterOpening.pipeline name).line_wellFormed
  simp only [readRouterLine, h.reading, String.ofList_toList]
  rfl

theorem readRouterLine_pipeThrough (context : RouterContext) (file : Path) (n : Nat)
    (names : RouterNames) :
    readRouterLine context file n names.line.text = .pipesThrough names.names := by
  have h := names.line_wellFormed
  have hBody : names.line.body = names.value.text := Text.join_singleton _ _
  simp only [readRouterLine, h.reading, String.ofList_toList, hBody, names.parseNames_value]
  rfl

theorem moduleLine_wellFormed (module : ModuleName) : (moduleLine module).WellFormed := by
  refine ⟨show "defmodule" ∈ routerMacros by decide, List.cons_ne_nil _ _, ?_, nofun⟩
  intro value hValue
  rw [List.mem_singleton.mp hValue]
  exact module.2

theorem readRouterLine_module (context : RouterContext) (file : Path) (n : Nat)
    (module : ModuleName) :
    readRouterLine context file n (moduleLine module).text = .nothing := by
  have h := moduleLine_wellFormed module
  simp only [readRouterLine, h.reading, String.ofList_toList]
  rfl

theorem readRouterLine_end (context : RouterContext) (file : Path) (n : Nat) :
    readRouterLine context file n "end".toList = .nothing := rfl

/-! ### What the lines do -/

theorem apply_leaf (state : RouterState) (file : Path) (n : Nat) (leaf : RouterLeaf) :
    state.apply file n (readRouterLine state.context file n leaf.line.text) =
      (state, leaf.routes file state.context.place n) := by
  cases leaf with
  | verb name path controller action as? => rw [readRouterLine_verb]; rfl
  | «match» verbs path controller action as? => rw [readRouterLine_match]; rfl
  | live path view action? as? => rw [readRouterLine_live]; rfl
  | forward path plug => rw [readRouterLine_forward]; rfl
  | resources declared =>
    rw [RouterLeaf.line, readRouterLine_resources, RouterState.apply, declared.routes_declared]
    rfl

theorem apply_opening (state : RouterState) (file : Path) (n : Nat) (opening : RouterOpening) :
    state.apply file n (readRouterLine state.context file n opening.line.text) =
      (state.push opening.frame, opening.routes file state.context.place n) := by
  cases opening with
  | scope path alias? as? => rw [readRouterLine_scope]; rfl
  | liveSession name => rw [readRouterLine_liveSession]; rfl
  | pipeline name => rw [readRouterLine_pipeline]; rfl
  | resources declared =>
    rw [RouterOpening.line, readRouterLine_resources, RouterState.apply, declared.routes_declared,
      declared.frame_declared]
    rfl

theorem apply_pipeThrough (state : RouterState) (file : Path) (n : Nat) (names : RouterNames) :
    state.apply file n (readRouterLine state.context file n names.line.text) =
      (state.pipeThrough names.names, []) := by
  rw [readRouterLine_pipeThrough]
  rfl

end PhoenixLens.Elixir
