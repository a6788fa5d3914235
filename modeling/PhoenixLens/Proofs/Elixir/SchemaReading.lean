import PhoenixLens.Proofs.Elixir.SchemaTree

/-!
# Lines of schemas

Every line of a schema stands for itself, opens the blocks that it says and adds what it is written
for. The aliases of a line are those that are read off it.
-/

namespace PhoenixLens.Elixir

/-! ### Options -/

namespace OptionValue

variable {value : OptionValue}

theorem parseAtom?_text (value : OptionValue) : parseAtom? value.text = value.atom? := by
  cases value with
  | literal value => exact value.parseAtom?_text
  | other text hText => exact hText

theorem IsPlain.isArgument (h : value.IsPlain) : IsArgument value.text := by
  cases value with
  | literal value => exact value.isArgument
  | other text hText => exact h

end OptionValue

namespace SchemaOptions

variable {options : SchemaOptions}

theorem isKeyed (h : options.IsPlain) :
    ∀ keyword ∈ options.keywords, IsKey keyword.1 ∧ IsArgument keyword.2 :=
  List.forall_mem_map.mpr fun option hOption => ⟨option.1.2.1, (h option hOption).isArgument⟩

theorem isArgument_texts (h : options.IsPlain) : ∀ t ∈ options.texts, IsArgument t :=
  List.forall_mem_map.mpr fun keyword hMem =>
    (isKeyed h keyword hMem).1.isArgument (isKeyed h keyword hMem).2

theorem keyword?_keywords (options : SchemaOptions) (key : String) :
    keyword? options.keywords key = (options.value? key).map OptionValue.text := by
  induction options with
  | nil => rfl
  | cons option options ih =>
    rw [keyword?, keywords, List.map_cons, List.lookup_cons, value?, List.find?_cons]
    cases key.toList == option.1.1 with
    | true => rfl
    | false => exact ih

theorem atom_keyword (options : SchemaOptions) (key : String) :
    (keyword? options.keywords key).bind parseAtom? =
      (options.value? key).bind OptionValue.atom? := by
  rw [keyword?_keywords, Option.bind_map]
  exact congrArg _ (funext OptionValue.parseAtom?_text)

/-- The arguments before the options give nothing under a key. -/
theorem keywordArguments_texts (h : options.IsPlain) {positional : List (List Char)}
    (hPositional : ∀ t ∈ positional, parseKeyword? t = none ∧ keywordListBody? t = none) :
    keywordArguments (positional ++ options.texts) = options.keywords :=
  keywordArguments_append hPositional (isKeyed h)

/-- An option is no module and no value without a key. -/
theorem head?_texts (h : options.IsPlain) :
    ∀ t ∈ options.texts.head?, (parseKeyword? t).isNone = false ∧ isModuleName t = false ∧
      Text.startsWith "__MODULE__" t = false := by
  cases options with
  | nil => nofun
  | cons option options =>
    intro t ht
    obtain rfl : keyed option.1.1 option.2.text = t := Option.some.inj ht
    obtain ⟨hKey, hFirst⟩ := option.1.2
    have hValue := (h option List.mem_cons_self).isArgument
    obtain ⟨c, rest, hName, -⟩ := hKey.isWordRun.first
    have hLower : Text.isAsciiLower c = true := by
      rw [hName] at hFirst
      exact hFirst
    have hUpper : Text.isAsciiUpper c = false :=
      Text.not_isAsciiUpper_of_startsIdentifier (by rw [Text.startsIdentifier, hLower, Bool.true_or])
    have hNot {d : Char} (hd : Text.isAsciiLower d = false) : c ≠ d := by
      rintro rfl
      rw [hLower] at hd
      cases hd
    have hTrimmed := (hKey.isArgument hValue).trimmed
    refine ⟨by rw [hKey.parseKeyword?_keyed hValue]; rfl, ?_, ?_⟩
    · rw [keyed, hName] at hTrimmed ⊢
      exact isModuleName_eq_false hTrimmed hUpper (hNot (by decide))
    · have hOther : ('_' == c) = false := by simpa using Ne.symm (hNot (d := '_') (by decide))
      rw [keyed, hName, Text.startsWith]
      exact congrArg (· && _) hOther

end SchemaOptions

/-! ### Fields -/

section

variable {name : List Char} {texts : List (List Char)}

theorem getElem?_second (first second : List Char) :
    (([first] ++ (some second).toList) ++ texts)[1]? = some second := rfl

theorem getElem?_option (first : List Char) :
    (([first] ++ (none : Option (List Char)).toList) ++ texts)[1]? = texts.head? := by
  cases texts <;> rfl

end

namespace FieldDeclaration

variable {declared : FieldDeclaration}

theorem noKeyword (declared : FieldDeclaration) :
    ∀ t ∈ [':' :: declared.name.1] ++ (declared.type?.map Literal.text).toList,
      parseKeyword? t = none ∧ keywordListBody? t = none := by
  rw [List.forall_mem_append, List.forall_mem_singleton]
  refine ⟨(Literal.atom declared.name).noKeyword, ?_⟩
  cases declared.type? with
  | none => exact List.forall_mem_nil _
  | some type => exact List.forall_mem_singleton.mpr type.noKeyword

theorem wellFormed (h : declared.options.IsPlain) : declared.line.WellFormed := by
  have hWord : IsWordRun "field".toList ∧ IsIdle "field".toList := by decide
  refine ⟨hWord.1, hWord.2, ?_, ?_⟩
  · rw [line, List.forall_mem_append, List.forall_mem_append, List.forall_mem_singleton]
    refine ⟨⟨.atom declared.name.2, ?_⟩, SchemaOptions.isArgument_texts h⟩
    cases declared.type? with
    | none => exact List.forall_mem_nil _
    | some type => exact List.forall_mem_singleton.mpr type.isArgument
  · rintro - t ⟨⟩
    rintro ⟨⟩

theorem fieldOf?_arguments (h : declared.options.IsPlain) :
    fieldOf? declared.line.arguments = some declared.declared := by
  have hName : parseAtom? (':' :: declared.name.1) = some declared.name.1 :=
    (Literal.atom declared.name).parseAtom?_text
  have hKeywords := SchemaOptions.keywordArguments_texts h declared.noKeyword
  have hType : (declared.line.arguments[1]?.filter fun a => (parseKeyword? a).isNone).map
      (fun a => (parseAtom? a).getD (Text.trim a)) =
        declared.type?.map fun type => type.atom?.getD type.text := by
    rw [line]
    cases declared.type? with
    | none =>
      rw [Option.map_none, getElem?_option, Option.map_none]
      cases hHead : declared.options.texts.head? with
      | none => rfl
      | some t =>
        obtain ⟨hKeyword, -⟩ := SchemaOptions.head?_texts h t hHead
        rw [Option.filter_some, hKeyword, if_neg Bool.false_ne_true, Option.map_none]
    | some type =>
      rw [Option.map_some, getElem?_second, Option.filter_some, type.noKeyword.1]
      simp [type.parseAtom?_text, type.isArgument.trimmed.trim_eq]
  have hForm : declared.line.arguments = ([':' :: declared.name.1] ++
      (declared.type?.map Literal.text).toList) ++ declared.options.texts := rfl
  have hHead : declared.line.arguments.head? = some (':' :: declared.name.1) := rfl
  rw [fieldOf?, hHead]
  simp only [Option.bind_eq_bind, Option.bind_some, hName, Option.map_some, hType]
  rw [hForm, hKeywords, SchemaOptions.keyword?_keywords, Option.map_map]
  rfl

end FieldDeclaration

/-! ### Associations -/

namespace WrittenTarget

theorem isArgument (written : WrittenTarget) : IsArgument written.text := by
  have hOwn : IsArgument "__MODULE__".toList := .word (by decide) (by decide)
  cases written with
  | module name => exact .module name.2
  | own inner? =>
    cases inner? with
    | none => exact hOwn
    | some name => exact hOwn.dot (IsArgument.module name.2)

theorem text_own (inner? : Option ModuleName) :
    (own inner?).text = "__MODULE__".toList ++ (inner?.map fun name => '.' :: name.1).getD [] := rfl

theorem noKeyword (written : WrittenTarget) :
    parseKeyword? written.text = none ∧ keywordListBody? written.text = none := by
  cases written with
  | module name =>
    rw [show (module name).text = (Literal.module name).text from rfl]
    exact (Literal.module name).noKeyword
  | own inner? =>
    have hColon : ':' ∉ (own inner?).text := by
      rw [text_own, List.mem_append, not_or]
      refine ⟨by decide, ?_⟩
      cases inner? with
      | none => exact List.not_mem_nil
      | some name => simp [name.2.not_mem (show startsWord ':' = false by decide) (by decide)]
    have hBracket : Text.stripPrefix? "[" (own inner?).text = none :=
      Text.stripPrefix?_eq_none rfl (show '[' ≠ '_' by decide)
    refine ⟨parseKeyword?_of_not_mem hColon, ?_⟩
    rw [keywordListBody?, hBracket]
    rfl

/-- What names a module is not mistaken for an option. -/
theorem isTarget (written : WrittenTarget) :
    (isModuleName written.text || Text.startsWith "__MODULE__" written.text) = true := by
  cases written with
  | module name =>
    have hModule : isModuleName (module name).text = true := isModuleName_module name.2
    rw [hModule]
    exact Bool.true_or _
  | own inner? =>
    have hStart : Text.startsWith "__MODULE__" (own inner?).text = true := by
      rw [Text.startsWith, text_own, List.isPrefixOf_iff_prefix]
      exact List.prefix_append _ _
    rw [hStart, Bool.or_true]

theorem expand_text (written : WrittenTarget) (table : AliasTable) (module : List Char) :
    table.expand module written.text = written.expanded table module := by
  cases written with
  | module name => rfl
  | own inner? =>
    have hStrip : Text.stripPrefix? "__MODULE__" (own inner?).text =
        some ((inner?.map fun name => '.' :: name.1).getD []) := Text.stripPrefix?_append "__MODULE__" _
    rw [AliasTable.expand, (own inner?).isArgument.trimmed.trim_eq, hStrip]
    rfl

end WrittenTarget

namespace AssociationDeclaration

variable {declared : AssociationDeclaration}

theorem noKeyword (declared : AssociationDeclaration) :
    ∀ t ∈ [':' :: declared.name.1] ++ (declared.target?.map WrittenTarget.text).toList,
      parseKeyword? t = none ∧ keywordListBody? t = none := by
  rw [List.forall_mem_append, List.forall_mem_singleton]
  refine ⟨(Literal.atom declared.name).noKeyword, ?_⟩
  cases declared.target? with
  | none => exact List.forall_mem_nil _
  | some written => exact List.forall_mem_singleton.mpr written.noKeyword

theorem isWordRun_tag (type : AssociationType) : IsWordRun type.tag.toList ∧ IsIdle type.tag.toList := by
  cases type <;> decide

theorem wellFormed (h : declared.options.IsPlain) (type : AssociationType) (opens : Bool) :
    (declared.line type opens).WellFormed := by
  obtain ⟨hWord, hIdle⟩ := isWordRun_tag type
  refine ⟨hWord, hIdle, ?_, ?_⟩
  · rw [line, List.forall_mem_append, List.forall_mem_append, List.forall_mem_singleton]
    refine ⟨⟨.atom declared.name.2, ?_⟩, SchemaOptions.isArgument_texts h⟩
    cases declared.target? with
    | none => exact List.forall_mem_nil _
    | some written => exact List.forall_mem_singleton.mpr written.isArgument
  · rintro - t ⟨⟩
    rintro ⟨⟩

/-- The module that a line leads to, with or without a block. -/
theorem associationTarget_eq (h : declared.options.IsPlain) (table : AliasTable)
    (module owner : List Char) (type : AssociationType) (opens : Bool) :
    associationTarget owner (table.expand module) opens declared.name.1
        (declared.line type opens).arguments[1]? =
      if opens then declared.blockTarget owner else declared.target table module owner := by
  rw [associationTarget, line, target, blockTarget]
  cases declared.target? with
  | none =>
    have hNone : (declared.options.texts.head?.filter fun a =>
        isModuleName a || Text.startsWith "__MODULE__" a) = none := by
      cases hHead : declared.options.texts.head? with
      | none => rfl
      | some t =>
        obtain ⟨-, hModule, hOwn⟩ := SchemaOptions.head?_texts h t hHead
        rw [Option.filter_some, hModule, hOwn]
        rfl
    rw [Option.map_none, getElem?_option, hNone]
    cases opens <;> rfl
  | some written =>
    rw [Option.map_some, getElem?_second, Option.filter_some, written.isTarget, if_pos rfl]
    simp only [written.isArgument.trimmed.trim_eq, written.expand_text]
    rfl

theorem foreignKeyField_eq (declared : AssociationDeclaration) :
    foreignKeyField declared.name.1 declared.options.keywords = declared.foreignKey := by
  rw [foreignKeyField, foreignKey]
  simp only [Option.bind_eq_bind, SchemaOptions.atom_keyword]

theorem associationAddition?_arguments (h : declared.options.IsPlain) (table : AliasTable)
    (module owner : List Char) (type : AssociationType) (opens : Bool) :
    associationAddition? owner (table.expand module) type opens (declared.line type opens).arguments =
      let target :=
        if opens then declared.blockTarget owner else declared.target table module owner
      some
        { fields := if type = .belongsTo then [declared.foreignKey] else []
          associations := [declared.associationTo type target]
          embedded := if opens then some target else none } := by
  have hName : parseAtom? (':' :: declared.name.1) = some declared.name.1 :=
    (Literal.atom declared.name).parseAtom?_text
  have hKeywords : keywordArguments (declared.line type opens).arguments = declared.options.keywords :=
    SchemaOptions.keywordArguments_texts h declared.noKeyword
  have hHead : (declared.line type opens).arguments.head? = some (':' :: declared.name.1) := rfl
  rw [associationAddition?, hHead]
  simp only [Option.bind_eq_bind, Option.bind_some, hName, Option.map_some,
    associationTarget_eq h, hKeywords, foreignKeyField_eq]
  simp only [beq_iff_eq]
  rfl

end AssociationDeclaration

/-! ### Lines -/

section

variable {owner : List Char} {expand : List Char → List Char}

theorem schemaAddition?_field {declared : FieldDeclaration} (h : declared.options.IsPlain) :
    schemaAddition? owner expand declared.line.text =
      some { fields := [declared.declared] } := by
  have hWell := FieldDeclaration.wellFormed h
  have hName : declared.line.text.takeWhile (fun c => c != ' ' && c != '(') = "field".toList :=
    hWell.takeWhile_text
  have hCall : callArguments? declared.line.text "field" = some declared.line.body :=
    hWell.callArguments?_text
  rw [schemaAddition?, hName, String.ofList_toList]
  simp only [hCall, Option.map_some, hWell.splitArguments_body, Option.bind_eq_bind, Option.bind_some,
    FieldDeclaration.fieldOf?_arguments h]

theorem timestampsLine_wellFormed {options : SchemaOptions} (h : options.IsPlain) (parens : Bool) :
    (timestampsLine options parens).WellFormed := by
  have hWord : IsWordRun "timestamps".toList ∧ IsIdle "timestamps".toList := by decide
  refine ⟨hWord.1, hWord.2, SchemaOptions.isArgument_texts h, ?_⟩
  intro _ t ht
  cases options with
  | nil => cases ht
  | cons option options =>
    obtain rfl : keyed option.1.1 option.2.text = t := Option.some.inj ht
    obtain ⟨c, rest, hKey, hStart⟩ := option.1.2.1.isWordRun.first
    rw [keyed, hKey]
    rintro ⟨⟩
    cases hStart

theorem schemaAddition?_timestamps {options : SchemaOptions} (h : options.IsPlain) (parens : Bool) :
    schemaAddition? owner expand (timestampsLine options parens).text =
      some { fields := timestampsDeclared options } := by
  have hWell := timestampsLine_wellFormed h parens
  have hName : (timestampsLine options parens).text.takeWhile (fun c => c != ' ' && c != '(') =
      "timestamps".toList := hWell.takeWhile_text
  have hCall : callArguments? (timestampsLine options parens).text "timestamps" =
      some (timestampsLine options parens).body := hWell.callArguments?_text
  have hKeywords : keywordArguments (timestampsLine options parens).arguments = options.keywords :=
    SchemaOptions.keywordArguments_texts h (List.forall_mem_nil _)
  rw [schemaAddition?, hName, String.ofList_toList]
  simp only [hCall, Option.map_some, hWell.splitArguments_body, Option.getD_some, timestampFields,
    hKeywords, Option.bind_eq_bind, SchemaOptions.atom_keyword]
  rfl

theorem schemaAddition?_association {declared : AssociationDeclaration}
    (h : declared.options.IsPlain) (table : AliasTable) (module : List Char) (type : AssociationType)
    (opens : Bool) :
    schemaAddition? owner (table.expand module) (declared.line type opens).text =
      let target :=
        if opens then declared.blockTarget owner else declared.target table module owner
      some
        { fields := if type = .belongsTo then [declared.foreignKey] else []
          associations := [declared.associationTo type target]
          embedded := if opens then some target else none } := by
  have hWell := AssociationDeclaration.wellFormed h type opens
  have hName : (declared.line type opens).text.takeWhile (fun c => c != ' ' && c != '(') =
      type.tag.toList := hWell.takeWhile_text
  have hCall : callArguments? (declared.line type opens).text type.tag =
      some (declared.line type opens).body := hWell.callArguments?_text
  have hOpens : opensDoBlock (declared.line type opens).text = opens := hWell.opensDoBlock_text
  have hAddition := AssociationDeclaration.associationAddition?_arguments h table module owner type opens
  have hArguments : (callArguments? (declared.line type opens).text type.tag).map splitArguments =
      some (declared.line type opens).arguments := by
    rw [hCall, Option.map_some, hWell.splitArguments_body]
  rw [schemaAddition?, hName, String.ofList_toList]
  simp only [hArguments, hOpens]
  cases type <;> exact hAddition

end

/-! ### Aliases -/

theorem cutAt?_brace {base : List Char} (h : '{' ∉ base) (rest : List Char) :
    Text.cutAt? ['.', '{'] (base ++ '.' :: '{' :: rest) = some (base, rest) := by
  induction base with
  | nil => rfl
  | cons c base ih =>
    have hHead : ['.', '{'].isPrefixOf? (c :: (base ++ '.' :: '{' :: rest)) = none := by
      have hSecond : (base ++ '.' :: '{' :: rest).head? ≠ some '{' := by
        cases base with
        | nil => simp
        | cons d base =>
          rintro ⟨⟩
          exact h (by simp)
      cases hMore : base ++ '.' :: '{' :: rest with
      | nil => simp [List.isPrefixOf?]
      | cons d more =>
        rw [hMore] at hSecond
        have hBrace : ('{' == d) = false := by
          rw [beq_eq_false_iff_ne]
          rintro rfl
          exact hSecond rfl
        simp [List.isPrefixOf?, hBrace]
    rw [List.cons_append, Text.cutAt?, hHead, ih (List.not_mem_of_not_mem_cons h)]
    rfl

theorem cutAt?_brace_eq_none {text : List Char} (h : '{' ∉ text) :
    Text.cutAt? ['.', '{'] text = none := by
  induction text with
  | nil => rfl
  | cons c text ih =>
    have hHead : ['.', '{'].isPrefixOf? (c :: text) = none := by
      cases text with
      | nil => simp [List.isPrefixOf?]
      | cons d text =>
        have hBrace : ('{' == d) = false := by
          rw [beq_eq_false_iff_ne]
          rintro rfl
          exact h (by simp)
        simp [List.isPrefixOf?, hBrace]
    rw [Text.cutAt?, hHead, ih (List.not_mem_of_not_mem_cons h)]
    rfl

theorem dropEndWhile_of_not_mem {c : Char} {text : List Char} (h : c ∉ text) :
    Text.dropEndWhile (· == c) text = text := by
  induction text using List.reverseRecOn with
  | nil => rfl
  | append_singleton text d _ =>
    refine Text.dropEndWhile_concat_of_neg ?_ text
    rw [beq_eq_false_iff_ne]
    rintro rfl
    exact h (by simp)

theorem IsModule.trim_lastSegment {name : List Char} (h : IsModule name) :
    Text.trim (Text.lastSegment name) = Text.lastSegment name := by
  obtain ⟨before, c, rfl, hWord⟩ := h.last
  have hDot : (c != '.') = true := by
    rw [bne_iff_ne]
    rintro rfl
    cases hWord
  refine (Text.IsTrimmed.of_all ?_ fun d hd => ?_).trim_eq
  · simp [Text.lastSegment, hDot]
  · rw [Text.lastSegment, List.mem_reverse] at hd
    have hNot := List.all_eq_true.mp List.all_takeWhile d hd
    have hMem := List.mem_reverse.mp ((List.takeWhile_prefix _).mem hd)
    rcases h.all d hMem with hOwn | rfl
    · exact not_isBlank_of_continuesWord (continuesWord_of_startsWord hOwn)
    · cases hNot

namespace AliasDeclaration

variable {declared : AliasDeclaration}

theorem isArgument (declared : AliasDeclaration) : ∀ t ∈ declared.arguments, IsArgument t := by
  cases declared with
  | plain target => exact List.forall_mem_singleton.mpr (.module target.2)
  | named target name =>
    have hKey : IsKey "as".toList := by decide
    rw [arguments, List.forall_mem_cons, List.forall_mem_singleton]
    exact ⟨.module target.2, hKey.isArgument (.module name.2)⟩
  | group base names =>
    have hNames : ∀ t ∈ names.map (·.1), IsArgument t :=
      List.forall_mem_map.mpr fun name _ => .module name.2
    have hBase : IsArgument base.1 := .module base.2
    exact List.forall_mem_singleton.mpr (hBase.dot (.enclosed (.inl rfl) rfl rfl (isInner_join hNames)))

theorem wellFormed (declared : AliasDeclaration) (parens : Bool) : (declared.line parens).WellFormed := by
  have hWord : IsWordRun "alias".toList ∧ IsIdle "alias".toList := by decide
  refine ⟨hWord.1, hWord.2, declared.isArgument, ?_⟩
  intro _ t ht
  have hFirst (target : ModuleName) (rest : List Char) : (target.1 ++ rest).head? ≠ some '(' := by
    obtain ⟨c, more, hName, hUpper⟩ := target.2.first
    rw [hName]
    rintro ⟨⟩
    cases hUpper
  cases declared with
  | plain target =>
    cases ht
    have hOwn := hFirst target []
    rwa [List.append_nil] at hOwn
  | named target name =>
    cases ht
    have hOwn := hFirst target []
    rwa [List.append_nil] at hOwn
  | group base names =>
    cases ht
    exact hFirst base _

theorem isModuleName_filter (names : List ModuleName) :
    (names.map (·.1)).filter isModuleName = names.map (·.1) := by
  refine List.filter_eq_self.mpr (List.forall_mem_map.mpr fun name _ => ?_)
  exact isModuleName_module name.2

theorem not_mem_brace (target : ModuleName) : '{' ∉ target.1 :=
  target.2.not_mem (by decide) (by decide)

theorem record_plain (table : AliasTable) (module : List Char) (target : ModuleName)
    (rest : List (List Char)) (written : List Char) (hSplit : splitArguments written = target.1 :: rest) :
    table.record module written =
      table.add module
        (((keyword? (keywordArguments rest) "as").filter isModuleName).getD (Text.lastSegment target.1))
        target.1 := by
  have hModule : isModuleName target.1 = true := isModuleName_module target.2
  have hTrim : Text.trim target.1 = target.1 := by
    have hArgument : IsArgument target.1 := .module target.2
    exact hArgument.trimmed.trim_eq
  rw [AliasTable.record, hSplit]
  simp only [cutAt?_brace_eq_none (not_mem_brace target), hModule, if_true, AliasTable.shortName,
    target.2.trim_lastSegment, hTrim]

/-- The short names that a line adds are those that it gives. -/
theorem record_body (declared : AliasDeclaration) (parens : Bool) (table : AliasTable)
    (module : List Char) :
    table.record module (declared.line parens).body = declared.added module table := by
  have hSplit := (declared.wellFormed parens).splitArguments_body
  cases declared with
  | plain target => exact record_plain table module target [] _ hSplit
  | named target name =>
    have hKey : IsKey "as".toList := by decide
    have hKeyed : ∀ keyword ∈ [("as".toList, name.1)], IsKey keyword.1 ∧ IsArgument keyword.2 :=
      List.forall_mem_singleton.mpr ⟨hKey, .module name.2⟩
    have hKeywords : keywordArguments [keyed "as".toList name.1] = [("as".toList, name.1)] :=
      keywordArguments_append (List.forall_mem_nil _) hKeyed
    have hModule : isModuleName name.1 = true := isModuleName_module name.2
    have hGiven : (keyword? [("as".toList, name.1)] "as").filter isModuleName = some name.1 := by
      rw [show keyword? [("as".toList, name.1)] "as" = some name.1 from rfl, Option.filter_some, hModule]
      rfl
    rw [record_plain table module target _ _ hSplit, hKeywords, hGiven]
    rfl
  | group base names =>
    have hNames : ∀ t ∈ names.map (·.1), IsArgument t :=
      List.forall_mem_map.mpr fun name _ => .module name.2
    have hNone : '}' ∉ Text.join ", ".toList (names.map (·.1)) := by
      intro hMem
      rcases Text.mem_join hMem with hGap | ⟨text, hText, hOwn⟩
      · revert hGap
        decide
      · obtain ⟨name, -, rfl⟩ := List.mem_map.mp hText
        exact name.2.not_mem (by decide) (by decide) hOwn
    have hInner : Text.dropEndWhile (· == '}') (Text.join ", ".toList (names.map (·.1)) ++ ['}']) =
        Text.join ", ".toList (names.map (·.1)) := by
      rw [Text.dropEndWhile_append_of_pos (by decide)]
      exact dropEndWhile_of_not_mem hNone
    have hCut : Text.cutAt? ['.', '{']
        (base.1 ++ '.' :: ('{' :: Text.join ", ".toList (names.map (·.1)) ++ ['}'])) =
          some (base.1, Text.join ", ".toList (names.map (·.1)) ++ ['}']) :=
      cutAt?_brace (not_mem_brace base) _
    have hTable (table : AliasTable) : (names.map (·.1)).foldl
        (fun table name => table.add module (AliasTable.shortName name) (base.1 ++ '.' :: name)) table =
        (group base names).added module table := by
      rw [added, AliasDeclaration.names, List.foldl_map, List.foldl_map]
      refine congrFun (congrFun (congrArg List.foldl (funext fun table => funext fun name => ?_)) _) _
      rw [AliasTable.shortName, name.2.trim_lastSegment]
    rw [AliasTable.record, hSplit]
    simp only [line, arguments, hCut, hInner, splitArguments_join_eq hNames, isModuleName_filter, hTable]

end AliasDeclaration

end PhoenixLens.Elixir
