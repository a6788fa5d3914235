import PhoenixLens.Elixir.FunctionComponents
import PhoenixLens.Proofs.Elixir.ComponentTree
import PhoenixLens.Proofs.Markup.Names

/-!
# Lines of function components

Every line that declares or defines something stands for itself, opens the blocks that it says and
declares or defines what it is written for.
-/

namespace PhoenixLens.Elixir

/-! ### Options -/

theorem isArgument_flagText (value : Bool) : IsArgument (flagText value) := by
  cases value <;> decide

theorem isArgument_docText (text? : Option StringLiteral) : IsArgument (docText text?) := by
  cases text? with
  | none => exact isArgument_flagText false
  | some text => exact text.isArgument

theorem DeclarationOption.isKeyed (option : DeclarationOption) :
    IsKey option.keyword.1 ∧ IsArgument option.keyword.2 := by
  cases option with
  | required value => exact ⟨show IsKey "required".toList by decide, isArgument_flagText value⟩
  | doc text? => exact ⟨show IsKey "doc".toList by decide, isArgument_docText text?⟩

theorem AttributeOption.IsPlain.isKeyed {option : AttributeOption} (h : option.IsPlain) :
    IsKey option.keyword.1 ∧ IsArgument option.keyword.2 := by
  cases option with
  | common option => exact option.isKeyed
  | default value => exact ⟨show IsKey "default".toList by decide, h⟩
  | values names => exact ⟨show IsKey "values".toList by decide, h⟩

section

variable {keywords : List (List Char × List Char)} {options : List DeclarationOption}

theorem requiredAmong_eq (h : keyword? keywords "required" =
    (options.findSome? DeclarationOption.required?).map flagText) :
    requiredAmong keywords = requiredOf options := by
  rw [requiredAmong, requiredOf, h]
  cases options.findSome? DeclarationOption.required? with
  | none => rfl
  | some value => cases value <;> rfl

theorem docAmong?_eq (h : keyword? keywords "doc" =
    (options.findSome? DeclarationOption.doc?).map docText) :
    docAmong? keywords none = docOf options := by
  rw [docAmong?, docOf, h]
  cases options.findSome? DeclarationOption.doc? with
  | none => rfl
  | some text? =>
    cases text? with
    | none => rfl
    | some text =>
      have hText : docText (some text) = text.written := rfl
      simp [hText, text.parseString?_written]

end

theorem DeclarationOption.keyword_required (option : DeclarationOption) :
    (if "required".toList == option.keyword.1 then some option.keyword.2 else none) =
      option.required?.map flagText := by
  cases option <;> rfl

theorem DeclarationOption.keyword_doc (option : DeclarationOption) :
    (if "doc".toList == option.keyword.1 then some option.keyword.2 else none) =
      option.doc?.map docText := by
  cases option <;> rfl

/-- A field that only the common options have is read off these. -/
theorem findSome?_common {β : Type} (field : DeclarationOption → Option β)
    (options : List AttributeOption) :
    options.findSome? (fun option => option.common?.bind field) =
      (options.filterMap AttributeOption.common?).findSome? field := by
  rw [← List.head?_filterMap, ← List.head?_filterMap, List.filterMap_filterMap]

theorem AttributeOption.keyword_common {β : Type} {key : String}
    {field : DeclarationOption → Option β} {write : β → List Char}
    (h : ∀ option : DeclarationOption,
      (if key.toList == option.keyword.1 then some option.keyword.2 else none) =
        (field option).map write)
    (hDefault : key ≠ "default") (hValues : key ≠ "values") (option : AttributeOption) :
    (if key.toList == option.keyword.1 then some option.keyword.2 else none) =
      (option.common?.bind field).map write := by
  have hNe {other : String} (hOther : key ≠ other) : (key.toList == other.toList) = false := by
    rw [beq_eq_false_iff_ne]
    exact fun hSame => hOther (String.toList_inj.mp hSame)
  cases option with
  | common option => exact h option
  | default value => exact if_neg fun hSame => Bool.false_ne_true ((hNe hDefault).symm.trans hSame)
  | values names => exact if_neg fun hSame => Bool.false_ne_true ((hNe hValues).symm.trans hSame)

namespace AttributeOption

theorem keyword_default (option : AttributeOption) :
    (if "default".toList == option.keyword.1 then some option.keyword.2 else none) =
      option.default?.map id := by
  cases option with
  | common option => cases option <;> rfl
  | _ => rfl

theorem keyword_values (option : AttributeOption) :
    (if "values".toList == option.keyword.1 then some option.keyword.2 else none) =
      option.values?.map NameList.text := by
  cases option with
  | common option => cases option <;> rfl
  | _ => rfl

end AttributeOption

/-! ### Declarations -/

theorem keywordTexts_isArgument {keywords : List (List Char × List Char)}
    (h : ∀ keyword ∈ keywords, IsKey keyword.1 ∧ IsArgument keyword.2) :
    ∀ t ∈ keywordTexts keywords, IsArgument t :=
  List.forall_mem_map.mpr fun keyword hMem => (h keyword hMem).1.isArgument (h keyword hMem).2

namespace AttributeDeclaration

variable {declared : AttributeDeclaration}

theorem isKeyed (h : declared.IsPlain) :
    ∀ keyword ∈ declared.options.map AttributeOption.keyword,
      IsKey keyword.1 ∧ IsArgument keyword.2 :=
  List.forall_mem_map.mpr fun option hOption => (h option hOption).isKeyed

theorem wellFormed (h : declared.IsPlain) : declared.line.WellFormed := by
  have hWord : IsWordRun "attr".toList ∧ IsIdle "attr".toList := by decide
  refine ⟨hWord.1, hWord.2, ?_, ?_⟩
  · rw [line, List.forall_mem_append, List.forall_mem_cons, List.forall_mem_singleton]
    exact ⟨⟨.atom declared.name.2, declared.type.isArgument⟩, keywordTexts_isArgument (isKeyed h)⟩
  · rintro - t ⟨⟩
    rintro ⟨⟩

theorem attributeType_text (type : Literal) :
    attributeType (some type.text) =
      String.ofList ((type.atom?.or type.module?).getD "any".toList) := by
  have hModule : (if isModuleName type.text then some (Text.trim type.text) else none) =
      type.module? := by
    rw [type.isModuleName_text, type.isArgument.trimmed.trim_eq]
    cases type <;> rfl
  rw [attributeType, Option.bind_some, type.parseAtom?_text, hModule]

theorem attributeOf?_arguments (h : declared.IsPlain) :
    attributeOf? declared.line.arguments none = some declared.declared := by
  have hName : parseAtom? (':' :: declared.name.1) = some declared.name.1 :=
    (Literal.atom declared.name).parseAtom?_text
  have hKeywords : keywordArguments (keywordTexts (declared.options.map AttributeOption.keyword)) =
      declared.options.map AttributeOption.keyword :=
    keywordArguments_append (List.forall_mem_nil _) (isKeyed h)
  have hRequired := requiredAmong_eq ((keyword?_map
    (AttributeOption.keyword_common DeclarationOption.keyword_required (by decide) (by decide))
    declared.options).trans (congrArg _ (findSome?_common _ _)))
  have hDoc := docAmong?_eq ((keyword?_map
    (AttributeOption.keyword_common DeclarationOption.keyword_doc (by decide) (by decide))
    declared.options).trans (congrArg _ (findSome?_common _ _)))
  have hValues : (declared.options.findSome? AttributeOption.values?).map
        ((fun v => (parseNames v).map String.ofList) ∘ NameList.text) =
      (declared.options.findSome? AttributeOption.values?).map fun names =>
        names.names.map String.ofList := by
    refine Option.map_congr fun names hNames => ?_
    obtain ⟨option, hOption, hField⟩ := List.exists_of_findSome?_eq_some hNames
    cases option with
    | values own =>
      cases hField
      exact congrArg (List.map String.ofList) (NameList.parseNames_text (h _ hOption))
    | _ => cases hField
  have hForm : declared.line.arguments = (':' :: declared.name.1) :: declared.type.text ::
      keywordTexts (declared.options.map AttributeOption.keyword) := rfl
  have hType : ((':' :: declared.name.1) :: declared.type.text ::
      keywordTexts (declared.options.map AttributeOption.keyword))[1]? = some declared.type.text := rfl
  rw [attributeOf?, hForm, hType]
  simp only [List.head?_cons, Option.bind_eq_bind, Option.bind_some, hName, Option.map_some,
    List.drop_succ_cons, List.drop_zero, hKeywords, hRequired, hDoc, attributeType_text,
    keyword?_map AttributeOption.keyword_default, keyword?_map AttributeOption.keyword_values,
    Option.map_id, id_eq, Option.map_map, hValues]
  rfl

end AttributeDeclaration

namespace SlotDeclaration

theorem wellFormed (declared : SlotDeclaration) (opens : Bool) : (declared.line opens).WellFormed := by
  have hWord : IsWordRun "slot".toList ∧ IsIdle "slot".toList := by decide
  refine ⟨hWord.1, hWord.2, ?_, ?_⟩
  · rw [line, List.forall_mem_append, List.forall_mem_singleton]
    exact ⟨.atom declared.name.2,
      keywordTexts_isArgument (List.forall_mem_map.mpr fun option _ => option.isKeyed)⟩
  · rintro - t ⟨⟩
    rintro ⟨⟩

theorem slotOf?_arguments (declared : SlotDeclaration) (opens : Bool) :
    slotOf? (declared.line opens).arguments none = some (declared.declared []) := by
  have hName : parseAtom? (':' :: declared.name.1) = some declared.name.1 :=
    (Literal.atom declared.name).parseAtom?_text
  have hKeywords : keywordArguments (keywordTexts (declared.options.map DeclarationOption.keyword)) =
      declared.options.map DeclarationOption.keyword :=
    keywordArguments_append (List.forall_mem_nil _)
      (List.forall_mem_map.mpr fun option _ => option.isKeyed)
  have hRequired := requiredAmong_eq
    (keyword?_map DeclarationOption.keyword_required declared.options)
  have hDoc := docAmong?_eq (keyword?_map DeclarationOption.keyword_doc declared.options)
  have hForm : (declared.line opens).arguments = (':' :: declared.name.1) ::
      keywordTexts (declared.options.map DeclarationOption.keyword) := rfl
  rw [slotOf?, hForm]
  simp only [List.head?_cons, Option.bind_eq_bind, Option.bind_some, hName, Option.map_some,
    List.drop_succ_cons, List.drop_zero, hKeywords, hRequired, hDoc]
  rfl

end SlotDeclaration

/-! ### Definitions -/

theorem FunctionName.isWordRun (name : FunctionName) : IsWordRun name.text := by
  obtain ⟨c, rest, hStem, hFirst⟩ := name.stem.2.first
  have hMark : ∀ mark ∈ [[], ['?'], ['!']], ∀ c ∈ mark, continuesWord c = true := by decide
  refine ⟨⟨c, rest ++ name.mark.1, ?_, ?_⟩, ?_⟩
  · rw [text, hStem, List.cons_append]
  · exact startsWord_of_isAsciiWord (isAsciiWord_of_startsIdentifier hFirst)
  · rw [text, List.forall_mem_append]
    exact ⟨fun d hd => continuesWord_of_isAsciiWord (name.stem.2.all d hd), hMark _ name.mark.2⟩

theorem FunctionName.withMark_eq (name : FunctionName) (rest : List Char) :
    withMark name.stem.1 (name.mark.1 ++ '(' :: rest) = name.text :=
  name.mark.withMark_append name.stem.1 (by simp) (by simp)

namespace FunctionClause

variable {clause : FunctionClause}

def keyword (clause : FunctionClause) : String := if clause.isPrivate then "defp" else "def"

theorem head_eq (clause : FunctionClause) :
    clause.head = clause.keyword.toList ++ ' ' ::
      (clause.name.text ++ ('(' :: Text.join ", ".toList clause.arguments ++ [')'])) := by
  rw [head, keyword]
  cases clause.isPrivate <;> rfl

theorem isWordRun_keyword (clause : FunctionClause) :
    IsWordRun clause.keyword.toList ∧ IsIdle clause.keyword.toList := by
  rw [keyword]
  cases clause.isPrivate <;> decide

theorem isPhrase_head (h : ∀ argument ∈ clause.arguments, IsArgument argument) :
    IsPhrase true clause.head := by
  obtain ⟨hWord, hIdle⟩ := clause.isWordRun_keyword
  have hCall : IsPhrase true
      (clause.name.text ++ ('(' :: Text.join ", ".toList clause.arguments ++ [')'])) :=
    .enclosed (.inr ⟨clause.name.isWordRun, clause.name.isIdle⟩) rfl rfl (isInner_join h)
  rw [head_eq]
  refine hCall.behind (.word hWord) ?_
  rw [codeOf_word hWord]
  exact .word hWord hIdle

theorem definitionHead?_head (clause : FunctionClause) (rest : List Char) :
    definitionHead? (clause.head ++ rest) =
      some
        { isPrivate := clause.isPrivate
          name := clause.name.text
          rest := Text.join ", ".toList clause.arguments ++ ')' :: rest } := by
  let inner := Text.join ", ".toList clause.arguments ++ ')' :: rest
  have hForm : clause.head ++ rest =
      clause.keyword.toList ++ ' ' :: (clause.name.text ++ '(' :: inner) := by
    simp [head_eq, inner]
  have hStem : identifier? (clause.name.text ++ '(' :: inner) = some clause.name.stem.1 := by
    rw [FunctionName.text, List.append_assoc]
    refine Markup.identifier?_append clause.name.stem ?_
    refine clause.name.mark.forall_head (by decide) (by decide) ?_
    rintro c ⟨⟩
    decide
  have hName : withMark clause.name.stem.1
      ((clause.name.text ++ '(' :: inner).drop clause.name.stem.1.length) = clause.name.text := by
    rw [FunctionName.text, List.append_assoc, List.drop_left]
    exact clause.name.withMark_eq inner
  have hOpen : Text.stripPrefix? "("
      ((clause.name.text ++ '(' :: inner).drop clause.name.text.length) = some inner := by
    rw [List.drop_left]
    exact Text.stripPrefix?_append "(" inner
  have hBehind : afterBlanks? (' ' :: (clause.name.text ++ '(' :: inner)) =
      some (clause.name.text ++ '(' :: inner) := by
    rw [afterBlanks?, if_pos (by decide)]
    exact congrArg some (clause.name.isWordRun.trimStart_append (List.forall_mem_nil _) _)
  have hStart := clause.isWordRun_keyword.1.trimStart_append (List.forall_mem_nil _)
    (' ' :: (clause.name.text ++ '(' :: inner))
  rw [List.nil_append] at hStart
  rw [definitionHead?, hForm, hStart, keyword]
  cases clause.isPrivate with
  | false =>
    have hDef : Text.stripPrefix? "def" ("def".toList ++ ' ' :: (clause.name.text ++ '(' :: inner)) =
        some (' ' :: (clause.name.text ++ '(' :: inner)) := Text.stripPrefix?_append "def" _
    have hHead : (some ' ' == some 'p') = false := rfl
    simp only [if_neg Bool.false_ne_true, hDef, Option.bind_eq_bind, Option.bind_some, List.head?_cons,
      hHead, hBehind, hStem, hName, hOpen]
    rfl
  | true =>
    have hDef : Text.stripPrefix? "def" ("defp".toList ++ ' ' :: (clause.name.text ++ '(' :: inner)) =
        some ('p' :: ' ' :: (clause.name.text ++ '(' :: inner)) := Text.stripPrefix?_append "def" _
    have hHead : (some 'p' == some 'p') = true := rfl
    simp only [if_true, hDef, Option.bind_eq_bind, Option.bind_some, List.head?_cons,
      List.tail_cons, hHead, hBehind, hStem, hName, hOpen]
    rfl

theorem takesAssigns_eq (h : ∀ argument ∈ clause.arguments, IsArgument argument)
    (rest : List Char) :
    takesAssigns
        { isPrivate := clause.isPrivate
          name := clause.name.text
          rest := Text.join ", ".toList clause.arguments ++ ')' :: rest } = clause.isComponent := by
  rw [takesAssigns, DefinitionHead.arguments?, (isInner_join h).balanced.beforeClosing?_eq,
    Option.map_some, splitArguments_join_eq h, isComponent]
  cases clause.arguments with
  | nil => rfl
  | cons argument others => cases others <;> rfl

section

variable {blanks : List Char} (hBlanks : ∀ c ∈ blanks, Text.isBlank c = true)

include hBlanks

/-- The line of a clause begins with its head. -/
theorem readComponentLine_head (h : ∀ argument ∈ clause.arguments, IsArgument argument)
    {rest : List Char} (hTrimmed : Text.IsTrimmed (clause.head ++ rest)) (n : Nat) :
    readComponentLine { line := n, text := blanks ++ (clause.head ++ rest) } =
      .defines clause.name.text clause.isComponent := by
  have hNone {other : String} (hOther : ∀ c ∈ other.toList, continuesWord c = true)
      (hNe : clause.keyword.toList ≠ other.toList) :
      callArguments? (clause.head ++ rest) other = none := by
    rw [head_eq, List.append_assoc]
    refine callArguments?_of_name_ne clause.isWordRun_keyword.1 ?_ hOther hNe
    rintro c ⟨⟩
    exact .inl rfl
  have hKeyword : clause.keyword.toList ≠ "attr".toList ∧ clause.keyword.toList ≠ "slot".toList := by
    rw [keyword]
    cases clause.isPrivate <;> decide
  simp only [readComponentLine, hTrimmed.trim_append hBlanks, hNone (by decide) hKeyword.1,
    hNone (by decide) hKeyword.2, definitionHead?_head, takesAssigns_eq h]

theorem docOf?_head (clause : FunctionClause) (rest : List Char) (n : Nat) :
    docOf? { line := n, text := blanks ++ (clause.head ++ rest) } = none := by
  rw [head_eq, List.append_assoc]
  exact docOf?_eq_none clause.isWordRun_keyword.1 hBlanks n none

theorem moduleOpening?_head (clause : FunctionClause) (rest : List Char) :
    moduleOpening? (blanks ++ (clause.head ++ rest)) = none := by
  have hKeyword : clause.keyword.toList ≠ "defmodule".toList := by
    rw [keyword]
    cases clause.isPrivate <;> decide
  rw [head_eq, List.append_assoc]
  refine moduleOpening?_eq_none clause.isWordRun_keyword.1 ?_ hKeyword hBlanks
  rintro c ⟨⟩
  exact .inl rfl

end

theorem isOwnLine_do (h : ∀ argument ∈ clause.arguments, IsArgument argument) (width : Nat) :
    IsOwnLine (List.replicate width ' ' ++ (clause.head ++ " do".toList)) (1, 0) := by
  rw [← List.append_assoc]
  exact .of_opening ((isPhrase_head h).isPiece.indent width)

theorem isTrimmed_do (h : ∀ argument ∈ clause.arguments, IsArgument argument) :
    Text.IsTrimmed (clause.head ++ " do".toList) := isTrimmed_append_do (isPhrase_head h).trimmed true

/-- What follows `do:` is read as if it stood alone. -/
theorem isExpression_line (h : ∀ argument ∈ clause.arguments, IsArgument argument) {text : List Char}
    (hText : IsExpression true text) :
    IsExpression true (clause.head ++ (", do: ".toList ++ text)) ∧
      blockDelta (clause.head ++ (", do: ".toList ++ text)) = blockDelta text := by
  have hHead := isPhrase_head h
  have hKey : IsBalanced true .code 0 ", do:".toList := by decide
  have hFront : IsSegment true (clause.head ++ ", do:".toList) := by
    refine ⟨hHead.balanced.code_append hKey, ?_, ?_⟩
    · rw [List.mem_append, not_or]
      exact ⟨hHead.unbroken, by decide⟩
    · have hColon : Text.IsTrimmed [':'] := by decide
      have hBoth := hHead.trimmed.append ", do".toList hColon
      rwa [List.append_assoc] at hBoth
  have hCode : codeOf (clause.head ++ ", do:".toList) = codeOf clause.head ++ ", do:".toList :=
    hHead.balanced.codeOf_go_eq _
  have hKeyQuiet : IsQuiet ", do:".toList := by decide
  have hQuiet : IsQuiet (codeOf (clause.head ++ ", do:".toList)) := by
    rw [hCode]
    refine hHead.quiet.append hKeyQuiet ?_
    rintro c ⟨⟩
    decide
  have hForm : clause.head ++ (", do: ".toList ++ text) =
      (clause.head ++ ", do:".toList) ++ ' ' :: text := by simp
  rw [hForm]
  exact ⟨hText.behind hFront, hText.blockDelta_behind (hFront.codeOf_behind text) hQuiet⟩

end FunctionClause

/-! ### Lines -/

section

variable {n width depth : Nat}

theorem readComponentLine_attr {declared : AttributeDeclaration} (h : declared.IsPlain) :
    readComponentLine ((indented width depth declared.line.text).logical n) =
      .declaresAttribute (some declared.declared) := by
  have hWell := AttributeDeclaration.wellFormed h
  have hTrim := hWell.isTrimmed.trim_indented (width * depth)
  have hCall : callArguments? declared.line.text "attr" = some declared.line.body :=
    hWell.callArguments?_text
  simp only [readComponentLine, indented, SourceLine.logical, hTrim, hCall, hWell.splitArguments_body,
    AttributeDeclaration.attributeOf?_arguments h]

theorem readComponentLine_slot (declared : SlotDeclaration) (opens : Bool) :
    readComponentLine ((indented width depth (declared.line opens).text).logical n) =
      .declaresSlot (some (declared.declared [])) opens := by
  have hWell := declared.wellFormed opens
  have hTrim := hWell.isTrimmed.trim_indented (width * depth)
  have hAttr : callArguments? (declared.line opens).text "attr" = none :=
    hWell.callArguments?_other (by decide) (show "slot".toList ≠ "attr".toList by decide)
  have hCall : callArguments? (declared.line opens).text "slot" = some (declared.line opens).body :=
    hWell.callArguments?_text
  have hOpens : opensDoBlock (declared.line opens).text = opens := hWell.opensDoBlock_text
  simp only [readComponentLine, indented, SourceLine.logical, hTrim, hAttr, hCall,
    hWell.splitArguments_body, declared.slotOf?_arguments, hOpens]

/-! #### Lines that declare nothing -/

theorem readComponentLine_nothing {line : LogicalLine}
    (hAttr : callArguments? (Text.trim line.text) "attr" = none)
    (hSlot : callArguments? (Text.trim line.text) "slot" = none)
    (hDefinition : definitionHead? (Text.trim line.text) = none) :
    readComponentLine line = .nothing := by
  simp only [readComponentLine, hAttr, hSlot, hDefinition]

theorem readComponentLine_end :
    readComponentLine ((indented width depth "end".toList).logical n) = .nothing := by
  have hTrim : Text.trim ((indented width depth "end".toList).logical n).text = "end".toList :=
    trim_end _
  apply readComponentLine_nothing
  all_goals
    rw [hTrim]
    decide

theorem docOf?_end : docOf? ((indented width depth "end".toList).logical n) = none := by
  have hWord : IsWordRun "end".toList := by decide
  have hDoc : docOf? { line := n, text := List.replicate (width * depth) ' ' ++ ("end".toList ++ []) } =
      none := docOf?_eq_none hWord (Text.isBlank_indentation _) n none
  rwa [List.append_nil] at hDoc

theorem readComponentLine_module (name : ModuleAlias) :
    readComponentLine ((indented width depth (moduleCall name).text).logical n) = .nothing := by
  have hWell := moduleCall_wellFormed name
  have hTrim : Text.trim ((indented width depth (moduleCall name).text).logical n).text =
      (moduleCall name).text :=
    hWell.isTrimmed.trim_indented _
  apply readComponentLine_nothing
  all_goals rw [hTrim]
  · exact hWell.callArguments?_other (by decide) (show "defmodule".toList ≠ "attr".toList by decide)
  · exact hWell.callArguments?_other (by decide) (show "defmodule".toList ≠ "slot".toList by decide)
  · rw [moduleCall_text]
    rfl

theorem docOf?_module (name : ModuleAlias) :
    docOf? ((indented width depth (moduleCall name).text).logical n) = none :=
  (moduleCall_wellFormed name).docOf?_text (Text.isBlank_indentation _) n none

/-! #### Templates -/

/-- What a template is read as. -/
def templateText (width : Nat) : List Char := List.replicate width ' ' ++ "~H\"\"".toList

theorem isOwnLine_template (width : Nat) : IsOwnLine (templateText width) (0, 0) := by
  have hTemplate : IsPhrase true "~H\"\"".toList := by decide
  have hLine := hTemplate.isOwnLine width
  rwa [hTemplate.blockDelta_eq] at hLine

theorem trimStart_template (width : Nat) : Text.trimStart (templateText width) = "~H\"\"".toList := by
  have hTrimmed : Text.IsTrimmed "~H\"\"".toList := by decide
  exact hTrimmed.trimStart_append (Text.isBlank_indentation _)

theorem readComponentLine_template (heredoc : Option (List Char)) :
    readComponentLine { line := n, text := templateText width, heredoc } = .nothing := by
  have hTrim : Text.trim (templateText width) = "~H\"\"".toList := by
    rw [Text.trim, trimStart_template]
    decide
  apply readComponentLine_nothing
  all_goals
    rw [hTrim]
    decide

theorem docOf?_template (heredoc : Option (List Char)) :
    docOf? { line := n, text := templateText width, heredoc } = none := by
  rw [docOf?, trimStart_template]
  rfl

theorem moduleOpening?_template (width : Nat) : moduleOpening? (templateText width) = none := by
  rw [moduleOpening?, trimStart_template]
  decide

theorem isSound_template {lines : List (List Char)} (h : ∀ line ∈ lines, IsHeredocLine line)
    (width stop : Nat) :
    (SourceLine.heredoc (List.replicate width ' ' ++ "~H".toList) lines stop).IsSound := by
  have hNone {c : Char} (hBlank : c ≠ ' ') (hSigil : c ∉ "~H".toList) :
      c ∉ List.replicate width ' ' ++ "~H".toList := by
    rw [List.mem_append, not_or]
    exact ⟨fun hMem => hBlank (List.eq_of_mem_replicate hMem), hSigil⟩
  refine .heredoc (hNone (by decide) (by decide)) (hNone (by decide) (by decide)) ?_ h
  have hFinished := (isOwnLine_template width).finished
  rwa [templateText, show "~H\"\"".toList = "~H".toList ++ ['"', '"'] by decide,
    ← List.append_assoc] at hFinished

end

end PhoenixLens.Elixir
