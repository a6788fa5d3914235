import PhoenixLens.Elixir.Scan
import PhoenixLens.Proofs.Elixir.Piece
import PhoenixLens.Proofs.Elixir.RemarkReading

/-!
# Scanning lines with a comment behind them

A comment behind a line that completes a logical line changes nothing of what a scanner finds, as
long as the scanner reads no arguments up to the end of the line.
-/

namespace PhoenixLens

namespace Elixir

section Lines

variable {p : Char → Prop} {text other : List Char}

/-! ### Routers -/

def routerArgumentMacros : List String :=
  ["scope", "pipe_through", "resources", "live", "forward", "match"] ++ routeVerbs

/-- The block that a macro opens whatever its arguments are. -/
def plainFrame? : String → Option RouterFrame
  | "pipeline" => some .pipeline
  | "live_session" => some .liveSession
  | _ => none

/-- A name alone in a line opens no block, unless it ends like `do`. -/
theorem not_opensDoBlock_of_name {name : List Char} (hName : ∀ d ∈ name, continuesWord d = true)
    (hNe : name ≠ []) (hLast : name.getLast hNe ≠ 'o') {blanks : List Char}
    (hBlanks : ∀ d ∈ blanks, Text.isBlank d = true) : opensDoBlock (blanks ++ name) = false := by
  have hPlain : ∀ d ∈ blanks ++ name, isPlain d = true := by
    intro d hd
    rcases List.mem_append.mp hd with hd | hd
    · exact isPlain_of_isBlank (hBlanks d hd)
    · exact isPlain_of_continuesWord (hName d hd)
  have hCode : codeOf (blanks ++ name) = blanks ++ name := by
    have hAll := codeOf_go_append hPlain []
    rwa [List.append_nil, codeOf.go, List.append_nil] at hAll
  have hBlank := not_isBlank_of_continuesWord (hName _ (List.getLast_mem hNe))
  have hForm := (List.dropLast_concat_getLast hNe).symm
  have hTrim : Text.trimEnd (blanks ++ name) = blanks ++ name := by
    rw [hForm, ← List.append_assoc]
    exact Text.dropEndWhile_concat_of_neg hBlank _
  rw [← Bool.not_eq_true, opensDoBlock_iff, hCode, hTrim]
  exact not_endsInDo_of_last hForm hLast blanks

theorem readRouterLine_of_not_read {context : RouterContext} {file : Path} {line : Nat}
    {name : List Char} (hMacro : macroName? text = some name)
    (hRead : String.ofList name ∉ routerArgumentMacros) :
    readRouterLine context file line text =
      if (callArguments? text (String.ofList name)).isSome && opensDoBlock text then
        ((plainFrame? (String.ofList name)).map .opens).getD .nothing
      else .nothing := by
  rw [readRouterLine, hMacro]
  simp only
  generalize String.ofList name = macroName at hRead
  cases hCall : callArguments? text macroName with
  | none => rfl
  | some written =>
    have hVerb : routeVerbs.contains macroName = false := by
      rw [← Bool.not_eq_true, List.contains_iff_mem]
      exact fun hMem => hRead (List.mem_append_right _ hMem)
    simp only [Option.isSome_some, Bool.true_and, hVerb]
    split
    case h_2 => rfl
    case h_3 => rfl
    case h_9 hPipeline hSession _ _ _ _ _ =>
      have hFrame : plainFrame? macroName = none := plainFrame?.eq_3 _ hPipeline hSession
      rw [if_neg Bool.false_ne_true, hFrame]
      split <;> rfl
    all_goals exact absurd (by decide) hRead

theorem Remarked.readRouterLine_eq (h : Remarked p text other) (hWhole : IsWhole text)
    (hBare : ∀ name ∈ routerArgumentMacros, callsBare name text = false) (context : RouterContext)
    (file : Path) (line : Nat) :
    readRouterLine context file line other = readRouterLine context file line text := by
  cases hMacro : macroName? text with
  | none => rw [readRouterLine, readRouterLine, h.macroName?_eq, hMacro]
  | some name =>
    have hName : ∀ c ∈ (String.ofList name).toList, continuesWord c = true := by
      rw [String.toList_ofList]
      exact continuesWord_of_macroName? hMacro
    by_cases hRead : String.ofList name ∈ routerArgumentMacros
    · rw [readRouterLine, readRouterLine, h.macroName?_eq, hMacro]
      simp only
      rw [h.callArguments?_eq hWhole hName (hBare _ hRead), h.opensDoBlock_eq hWhole.endsInCode]
    · rw [readRouterLine_of_not_read (h.macroName?_eq.trans hMacro) hRead,
        readRouterLine_of_not_read hMacro hRead, h.opensDoBlock_eq hWhole.endsInCode]
      by_cases hAlone : Text.stripPrefix? (String.ofList name) (Text.trimStart text) = some []
      · have hText : text = text.takeWhile Text.isBlank ++ name := by
          have hOwn := List.isPrefixOf?_eq_some_iff_append_eq.mp hAlone
          rw [String.toList_ofList, List.append_nil] at hOwn
          rw [hOwn, Text.trimStart, List.takeWhile_append_dropWhile]
        have hBlanks : ∀ c ∈ text.takeWhile Text.isBlank, Text.isBlank c = true :=
          List.all_eq_true.mp List.all_takeWhile
        have hNotOpening : ∀ macroName ∈ ["pipeline", "live_session"],
            String.ofList name = macroName → opensDoBlock text = false := by
          intro macroName hMem hOwn
          rw [hText, ← String.toList_ofList (l := name), hOwn]
          simp only [List.mem_cons, List.not_mem_nil, or_false] at hMem
          rcases hMem with rfl | rfl
          all_goals exact not_opensDoBlock_of_name (by decide) (by decide) (by decide) hBlanks
        cases hOpens : opensDoBlock text with
        | false => simp
        | true =>
          rw [hOpens] at hNotOpening
          have hFrame : plainFrame? (String.ofList name) = none := by
            refine plainFrame?.eq_3 _ (fun hOwn => ?_) (fun hOwn => ?_)
            · cases hNotOpening _ List.mem_cons_self hOwn
            · cases hNotOpening _ (List.mem_cons_of_mem _ List.mem_cons_self) hOwn
          rw [hFrame]
          simp
      · rw [h.isSome_callArguments?_eq hName hAlone]

theorem Remarked.takeLine_router {line : LogicalLine} (hp : ∀ c, p c → c ≠ '\n')
    (h : Remarked p line.text other) (hWhole : IsWhole line.text)
    (hBare : ∀ name ∈ routerArgumentMacros, callsBare name (Text.trim line.text) = false)
    (state : RouterState) (file : Path) :
    state.takeLine file { line with text := other } = state.takeLine file line := by
  simp only [RouterState.takeLine, RouterState.settle, h.trim.readRouterLine_eq hWhole.trim hBare,
    h.advance_eq hp hWhole.endsInCode]

/-! ### Components -/

def componentMacros : List String := ["attr", "slot"]

theorem Remarked.readComponentLine_eq {line : LogicalLine} (h : Remarked p line.text other)
    (hWhole : IsWhole line.text)
    (hBare : ∀ name ∈ componentMacros, callsBare name (Text.trim line.text) = false) :
    readComponentLine { line with text := other } = readComponentLine line := by
  have hTrim := h.trim
  have hTrimWhole := hWhole.trim
  have hAttribute := hTrim.callArguments?_eq hTrimWhole (by decide) (hBare "attr" (by decide))
  have hSlot := hTrim.callArguments?_eq hTrimWhole (by decide) (hBare "slot" (by decide))
  have hHead := hTrim.rel_definitionHead?
  simp only [readComponentLine, hAttribute, hSlot, hTrim.opensDoBlock_eq hTrimWhole.endsInCode]
  cases hOwn : definitionHead? (Text.trim line.text) with
  | none =>
    rw [hOwn] at hHead
    rw [eq_none_of_rel hHead]
  | some head =>
    rw [hOwn] at hHead
    obtain ⟨headOther, hOther, hRel⟩ := exists_of_rel hHead
    have hAssigns : takesAssigns headOther = takesAssigns head := by
      rw [takesAssigns, takesAssigns, hRel.arguments?_eq hTrimWhole]
    rw [hOther]
    cases callArguments? (Text.trim line.text) "attr" with
    | some arguments => rfl
    | none =>
      cases callArguments? (Text.trim line.text) "slot" with
      | some arguments => rfl
      | none => simp only [hRel.2.1, hAssigns]

theorem Remarked.isSome_docOf?_eq {line : LogicalLine} (h : Remarked p line.text other) :
    (docOf? { line with text := other }).isSome = (docOf? line).isSome := by
  have hDoc : IsSolid fun c => "@doc".toList.contains c := isSolid_of_list (by decide)
  rw [docOf?, docOf?, Option.isSome_map, Option.isSome_map]
  exact isSome_eq_of_rel (h.trimStart.stripPrefix? hDoc)

theorem Remarked.takeLine_component {line : LogicalLine} (hp : ∀ c, p c → c ≠ '\n')
    (h : Remarked p line.text other) (hWhole : IsWhole line.text)
    (hBare : ∀ name ∈ componentMacros, callsBare name (Text.trim line.text) = false)
    (state : ComponentState) (file : Path) :
    state.takeLine file { line with text := other } = state.takeLine file line := by
  simp only [ComponentState.takeLine, h.isSome_docOf?_eq, h.readComponentLine_eq hWhole hBare,
    ComponentState.settle, h.advance_eq hp hWhole.endsInCode]

/-! ### Events -/

/-- The documentation in the line, if there is any, is its heredoc. -/
def DocumentsByHeredoc (line : LogicalLine) : Prop :=
  ∀ doc, docOf? line = some doc → line.heredoc.isSome = true ∧ doc = line.heredoc

theorem Remarked.docOf?_eq {line : LogicalLine} (h : Remarked p line.text other)
    (hDoc : DocumentsByHeredoc line) : docOf? { line with text := other } = docOf? line := by
  have hStart : IsSolid fun c => "@doc".toList.contains c := isSolid_of_list (by decide)
  have hRel := h.trimStart.stripPrefix? hStart
  cases hOwn : Text.stripPrefix? "@doc" (Text.trimStart line.text) with
  | none =>
    rw [hOwn] at hRel
    rw [docOf?, docOf?, hOwn, eq_none_of_rel hRel]
  | some rest =>
    rw [hOwn] at hRel
    obtain ⟨restOther, hOther, hRest⟩ := exists_of_rel hRel
    obtain ⟨remark, ⟨blanks, comment, -, -, rfl⟩, hTrim⟩ := hRest.trim
    obtain ⟨hHeredoc, hSame⟩ := hDoc _ (by rw [docOf?, hOwn, Option.map_some])
    obtain ⟨body, hBody⟩ := Option.isSome_iff_exists.mp hHeredoc
    have hNotFalse : (Text.trim restOther == "false".toList) = false := by
      rw [beq_eq_false_iff_ne, hTrim]
      intro hFalse
      have hHash : '#' ∈ "false".toList := hFalse ▸ by simp
      revert hHash
      decide
    rw [docOf?, docOf?, hOwn, hOther, Option.map_some, Option.map_some, hSame, hNotFalse, hBody]
    rfl

theorem isPrefixOf_concat (front : List Char) (c : Char) (cs : List Char) :
    (front ++ [c]).isPrefixOf cs = (front.isPrefixOf? cs).any fun rest => rest.head? == some c := by
  induction front generalizing cs with
  | nil => cases cs <;> simp [List.isPrefixOf, List.isPrefixOf?, eq_comm]
  | cons d front ih =>
    cases cs with
    | nil => rfl
    | cons e cs =>
      rw [List.cons_append, List.isPrefixOf, List.isPrefixOf?, ih]
      cases d == e <;> rfl

theorem Remarked.startsWith_eq (h : Remarked p text other) (word : String)
    (hWord : ∀ c ∈ word.toList, continuesWord c = true) (hNe : text ≠ word.toList) :
    Text.startsWith (word ++ " ") other = Text.startsWith (word ++ " ") text := by
  have hIff : ∀ cs : List Char, Text.startsWith (word ++ " ") cs =
      (Text.stripPrefix? word cs).any fun rest => rest.head? == some ' ' := by
    intro cs
    rw [Text.startsWith, String.toList_append]
    exact isPrefixOf_concat word.toList ' ' cs
  have hRel := h.stripPrefix? (isMild_name hWord).isSolid
  rw [hIff, hIff]
  cases hOwn : Text.stripPrefix? word text with
  | none =>
    rw [hOwn] at hRel
    rw [eq_none_of_rel hRel]
  | some rest =>
    rw [hOwn] at hRel
    obtain ⟨_, hOther, remark, -, rfl⟩ := exists_of_rel hRel
    rw [hOther]
    cases rest with
    | nil =>
      have hText := List.isPrefixOf?_eq_some_iff_append_eq.mp hOwn
      rw [List.append_nil] at hText
      exact absurd hText.symm hNe
    | cons c rest => rfl

theorem Remarked.readEventLine_eq (h : Remarked p text other) (hWhole : IsWhole text)
    (hDef : text ≠ "def".toList) (hDefp : text ≠ "defp".toList) :
    readEventLine other = readEventLine text := by
  have hStart : Text.startsWith "def " other = Text.startsWith "def " text :=
    h.startsWith_eq "def" (by decide) hDef
  have hStartp : Text.startsWith "defp " other = Text.startsWith "defp " text :=
    h.startsWith_eq "defp" (by decide) hDefp
  have hHead := h.rel_definitionHead?
  rw [readEventLine, readEventLine, hStart, hStartp, handlerHead?, handlerHead?]
  cases hOwn : definitionHead? text with
  | none =>
    rw [hOwn] at hHead
    rw [eq_none_of_rel hHead]
  | some head =>
    rw [hOwn] at hHead
    obtain ⟨headOther, hOther, hRel⟩ := exists_of_rel hHead
    rw [hOther]
    simp only [Option.bind_eq_bind, Option.bind_some, hRel.1, hRel.2.1]
    cases head.isPrivate with
    | true => rfl
    | false =>
      cases EventKind.ofTag? (String.ofList head.name) with
      | none => rfl
      | some kind => 
        simp [hRel.arguments?_eq hWhole]

theorem Remarked.takeLine_event {line : LogicalLine} (hp : ∀ c, p c → c ≠ '\n')
    (h : Remarked p line.text other) (hWhole : IsWhole line.text) (hDoc : DocumentsByHeredoc line)
    (hDef : Text.trim line.text ≠ "def".toList) (hDefp : Text.trim line.text ≠ "defp".toList)
    (state : EventState) (file : Path) :
    state.takeLine file { line with text := other } = state.takeLine file line := by
  simp only [EventState.takeLine, PendingDoc.observe?, h.docOf?_eq hDoc,
    h.trim.readEventLine_eq hWhole.trim hDef hDefp, h.advance_eq hp hWhole.endsInCode]

/-! ### Schemas -/

/-- The macros inside a schema whose arguments are read. -/
def fieldMacros : List String :=
  ["field", "timestamps", "belongs_to", "has_one", "has_many", "many_to_many", "embeds_one",
    "embeds_many"]

def schemaMacros : List String := ["alias", "schema"] ++ fieldMacros

/-- A character of the name that a line inside a schema begins with. -/
def isMacroChar (c : Char) : Bool := c != ' ' && c != '('

theorem schemaAddition?_eq_none {owner : List Char} {expand : List Char → List Char}
    (h : String.ofList (text.takeWhile isMacroChar) ∉ fieldMacros) :
    schemaAddition? owner expand text = none := by
  change String.ofList (text.takeWhile fun c => c != ' ' && c != '(') ∉ fieldMacros at h
  rw [schemaAddition?]
  generalize String.ofList (text.takeWhile fun c => c != ' ' && c != '(') = macroName at h
  have hNot : ∀ name ∈ fieldMacros, macroName ≠ name := by
    rintro name hName rfl
    exact h hName
  have hTag : AssociationType.ofTag? macroName = none := by
    rw [AssociationType.ofTag?]
    all_goals exact hNot _ (by decide)
  split
  · exact absurd rfl (hNot "field" (by decide))
  · exact absurd rfl (hNot "timestamps" (by decide))
  · rw [hTag]
    rfl

theorem Remarked.schemaAddition?_eq (h : Remarked p text other) (hWhole : IsWhole text)
    (hBare : ∀ name ∈ fieldMacros, callsBare name text = false) (owner : List Char)
    (expand : List Char → List Char) :
    schemaAddition? owner expand other = schemaAddition? owner expand text := by
  have hWord : ∀ name ∈ fieldMacros, ∀ c ∈ name.toList, continuesWord c = true := by decide
  by_cases hName : other.takeWhile isMacroChar = text.takeWhile isMacroChar
  · by_cases hRead : String.ofList (text.takeWhile isMacroChar) ∈ fieldMacros
    · change other.takeWhile (fun c => c != ' ' && c != '(') =
        text.takeWhile fun c => c != ' ' && c != '(' at hName
      change String.ofList (text.takeWhile fun c => c != ' ' && c != '(') ∈ fieldMacros at hRead
      rw [schemaAddition?, schemaAddition?, hName]
      rw [h.callArguments?_eq hWhole (hWord _ hRead) (hBare _ hRead),
        h.opensDoBlock_eq hWhole.endsInCode]
    · rw [schemaAddition?_eq_none hRead, schemaAddition?_eq_none (hName ▸ hRead)]
  · -- The name is the whole line, so its call would be bare, and the comment follows it at once.
    obtain ⟨remark, hRemark, rfl⟩ := h
    rw [List.takeWhile_append] at hName
    split at hName
    · rename_i hAll
      have hText : text.takeWhile isMacroChar = text := (List.takeWhile_prefix _).eq_of_length hAll
      rw [hText] at hName
      rw [schemaAddition?_eq_none, schemaAddition?_eq_none]
      · rw [hText]
        intro hRead
        have hCall : ∀ name ∈ fieldMacros, callsBare name name.toList = true := by decide
        have hOwn := hCall _ hRead
        rw [String.toList_ofList, hBare _ hRead] at hOwn
        cases hOwn
      · rw [List.takeWhile_append, if_pos hAll]
        intro hRead
        obtain ⟨c, rest, rfl, hc⟩ := hRemark.exists_cons
        cases hMacro : isMacroChar c with
        | false =>
          rw [List.takeWhile_cons_of_neg (by simp [hMacro]), List.append_nil] at hName
          exact hName rfl
        | true =>
          rw [List.takeWhile_cons_of_pos hMacro] at hRead
          have hc' := hWord _ hRead c (by simp)
          rcases hc with hBlank | rfl
          · rw [continuesWord_of_isBlank hBlank] at hc'
            cases hc'
          · revert hc'
            decide
    · exact absurd rfl hName

theorem Remarked.takeCode_schema (h : Remarked p text other) (hWhole : IsWhole text)
    (hBare : ∀ name ∈ schemaMacros, callsBare name text = false) (state : SchemaState)
    (file : Path) (line : Nat) (moduleName : List Char) :
    state.takeCode file line moduleName other = state.takeCode file line moduleName text := by
  have hAlias := h.callArguments?_eq hWhole (by decide) (hBare "alias" (by decide))
  have hSchema := h.callArguments?_eq hWhole (by decide) (hBare "schema" (by decide))
  have hEmbedded : Text.startsWith "embedded_schema" other =
      Text.startsWith "embedded_schema" text := by
    have hName : IsSolid fun c => "embedded_schema".toList.contains c :=
      isSolid_of_list (by decide)
    have hRel := h.stripPrefix? hName
    rw [Text.startsWith, Text.startsWith, ← List.isSome_isPrefixOf?_eq_isPrefixOf,
      ← List.isSome_isPrefixOf?_eq_isPrefixOf]
    exact isSome_eq_of_rel hRel
  have hAddition := h.schemaAddition?_eq hWhole fun name hName =>
    hBare name (List.mem_append_right _ hName)
  simp only [SchemaState.takeCode, hAlias, hSchema, hEmbedded, hAddition,
    h.opensDoBlock_eq hWhole.endsInCode]

theorem Remarked.takeLine_schema {line : LogicalLine} (hp : ∀ c, p c → c ≠ '\n')
    (h : Remarked p line.text other) (hWhole : IsWhole line.text)
    (hBare : ∀ name ∈ schemaMacros, callsBare name (Text.trim line.text) = false)
    (state : SchemaState) (file : Path) :
    state.takeLine file { line with text := other } = state.takeLine file line := by
  simp only [SchemaState.takeLine, SchemaState.settle, h.trim.takeCode_schema hWhole.trim hBare,
    h.advance_eq hp hWhole.endsInCode]

/-! ### Controllers -/

/-- The line binds a variable to what follows up to its end. -/
def bindsVariable (text : List Char) : Bool :=
  (identifier? text).any fun name =>
    (Text.stripPrefix? "=" (Text.trimStart (text.drop name.length))).any fun value =>
      value.head? != some '='

theorem Remarked.binding?_eq_none (h : Remarked p text other)
    (hText : bindsVariable text = false) : binding? other = none ∧ binding? text = none := by
  rw [binding?, binding?, h.identifier?_eq]
  rw [bindsVariable] at hText
  cases hName : identifier? text with
  | none => exact ⟨rfl, rfl⟩
  | some name =>
    obtain ⟨-, rest, rfl⟩ := identifier?_eq_some hName
    obtain ⟨remark, hRemark, rfl⟩ := h
    have hRest : Remarked p rest (rest ++ remark) := ⟨remark, hRemark, rfl⟩
    have hEquals : IsSolid fun c => "=".toList.contains c := isSolid_of_list (by decide)
    have hRel := hRest.trimStart.stripPrefix? hEquals
    rw [hName, Option.any_some, List.drop_left] at hText
    simp only [Option.bind_eq_bind, Option.bind_some, List.append_assoc, List.drop_left]
    cases hValue : Text.stripPrefix? "=" (Text.trimStart rest) with
    | none =>
      rw [hValue] at hRel
      rw [eq_none_of_rel hRel]
      exact ⟨rfl, rfl⟩
    | some value =>
      rw [hValue] at hRel hText
      obtain ⟨_, hOther, more, -, rfl⟩ := exists_of_rel hRel
      have hHead : value.head? = some '=' := by simpa using hText
      obtain ⟨tail, rfl⟩ : ∃ tail, value = '=' :: tail := List.head?_eq_some_iff.mp hHead
      rw [hOther]
      exact ⟨rfl, rfl⟩

theorem Remarked.actionName?_eq (h : Remarked p text other) (hWhole : IsWhole text) :
    actionName? other = actionName? text := by
  have hHead := h.rel_definitionHead?
  rw [actionName?, actionName?]
  cases hOwn : definitionHead? text with
  | none =>
    rw [hOwn] at hHead
    rw [eq_none_of_rel hHead]
  | some head =>
    rw [hOwn] at hHead
    obtain ⟨headOther, hOther, hRel⟩ := exists_of_rel hHead
    rw [hOther]
    simp only [Option.bind_eq_bind, Option.bind_some, hRel.1, hRel.2.1, hRel.arguments?_eq hWhole]

theorem Remarked.takeLine_action (hp : ∀ c, p c → isClosing c = false)
    (h : Remarked p text other) (hBinds : bindsVariable text = false) (action : OpenAction)
    (line : Nat) : action.takeLine line other = action.takeLine line text := by
  obtain ⟨hOther, hOwn⟩ := h.binding?_eq_none hBinds
  simp only [OpenAction.takeLine, OpenAction.bind, hOther, hOwn, OpenAction.collect,
    OpenAction.choose, assignCalls, chosenView?, renderCalls]
  rw [h.callsOf_eq hp (by decide), h.callsOf_eq hp (by decide), h.callsOf_eq hp (by decide)]

theorem Remarked.takeLine_controller {line : LogicalLine}
    (hp : ∀ c, p c → c ≠ '\n' ∧ isClosing c = false) (h : Remarked p line.text other)
    (hWhole : IsWhole line.text) (hBinds : bindsVariable (Text.trim line.text) = false)
    (state : ControllerState) (file : Path) :
    state.takeLine file { line with text := other } = state.takeLine file line := by
  have hTrim := h.trim
  have hCode : ∀ (state : ControllerState) (moduleName : String),
      state.takeCode moduleName line.line (Text.trim other) =
        state.takeCode moduleName line.line (Text.trim line.text) := by
    intro state moduleName
    simp only [ControllerState.takeCode, hTrim.actionName?_eq hWhole.trim,
      hTrim.takeLine_action (fun c hc => (hp c hc).2) hBinds]
  have hBreak : ∀ c, p c → c ≠ '\n' := fun c hc => (hp c hc).1
  simp only [ControllerState.takeLine, hCode, BlockTracker.opened?,
    h.moduleOpening?_eq hBreak hWhole.endsInCode, h.advance_eq hBreak hWhole.endsInCode]

end Lines

end Elixir

end PhoenixLens
