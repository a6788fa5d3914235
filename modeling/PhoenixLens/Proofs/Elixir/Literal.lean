import PhoenixLens.Proofs.Elixir.Argument

/-!
# Literals

Strings with escapes, atoms, modules and other values as arguments, lists of names, and what the
readers of literals make of them.
-/

namespace PhoenixLens.Elixir

/-! ### Strings -/

/-- A part of a string: a character, a quote behind a backslash, or another such character. -/
inductive StringPart where
  | char (c : Char) (hc : c ≠ '"' ∧ c ≠ '\\' ∧ c ≠ '\n')
  | quote
  | escape (c : Char) (hc : c ≠ '"' ∧ c ≠ '\n')

namespace StringPart

def written : StringPart → List Char
  | char c _ => [c]
  | quote => ['\\', '"']
  | escape c _ => ['\\', c]

/-- Only quotes lose their backslashes. -/
def value : StringPart → List Char
  | char c _ => [c]
  | quote => ['"']
  | escape c _ => ['\\', c]

end StringPart

structure StringLiteral where
  parts : List StringPart

namespace StringLiteral

variable (parts : List StringPart)

def written (s : StringLiteral) : List Char :=
  '"' :: s.parts.flatMap StringPart.written ++ ['"']

def value (s : StringLiteral) : List Char := s.parts.flatMap StringPart.value

theorem isBalanced_go {commas : Bool} {depth : Nat} {rest : List Char}
    (h : IsBalanced commas .code depth rest) :
    IsBalanced commas (.quoted '"' false) depth
      (parts.flatMap StringPart.written ++ '"' :: rest) := by
  induction parts with
  | nil => exact .quoted h
  | cons part parts ih =>
    rw [List.flatMap_cons, List.append_assoc]
    cases part with
    | char c hc =>
      have hStep : (Quoting.quoted '"' false).step c = .quoted '"' false := by
        simp [Quoting.step, hc]
      refine .quoted ?_
      rw [hStep]
      exact ih
    | quote => exact .quoted (.quoted ih)
    | escape c hc => exact .quoted (.quoted ih)

theorem codeOf_go (rest : List Char) :
    codeOf.go (.quoted '"' false) (parts.flatMap StringPart.written ++ '"' :: rest) =
      '"' :: codeOf.go .code rest := by
  induction parts with
  | nil => simp [codeOf.go, Quoting.step, Quoting.isCode]
  | cons part parts ih =>
    rw [List.flatMap_cons, List.append_assoc]
    cases part with
    | char c hc => simp [StringPart.written, codeOf.go, Quoting.step, Quoting.isCode, hc, ih]
    | quote => simp [StringPart.written, codeOf.go, Quoting.step, Quoting.isCode, ih]
    | escape c hc => simp [StringPart.written, codeOf.go, Quoting.step, Quoting.isCode, ih]

/-- Inside a string no quote stands behind another one. -/
theorem not_suffix_written {delimiter : List Char} (h : delimiter ∈ heredocDelimiters) :
    ¬delimiter <:+ '"' :: parts.flatMap StringPart.written ++ ['"'] := by
  simp only [heredocDelimiters, List.mem_cons, List.not_mem_nil, or_false] at h
  rintro ⟨front, hFront⟩
  rcases h with rfl | rfl
  · induction parts using List.reverseRecOn with
    | nil =>
      have hLength := congrArg List.length hFront
      simp at hLength
    | append_singleton parts part _ =>
      have hForm : front ++ ['"', '"', '"'] = front ++ ['"'] ++ ['"', '"'] := by simp
      rw [hForm, List.flatMap_append, List.flatMap_singleton] at hFront
      cases part with
      | char c hc =>
        have hLast : '"' :: (parts.flatMap StringPart.written ++ [c]) ++ ['"'] =
            '"' :: parts.flatMap StringPart.written ++ [c, '"'] := by simp
        rw [StringPart.written, hLast] at hFront
        exact hc.1 (List.cons.inj (List.append_inj_right' hFront rfl)).1.symm
      | quote =>
        have hLast : '"' :: (parts.flatMap StringPart.written ++ ['\\', '"']) ++ ['"'] =
            '"' :: parts.flatMap StringPart.written ++ ['\\'] ++ ['"', '"'] := by simp
        rw [StringPart.written, hLast] at hFront
        have hOwn := List.append_inj_left' hFront rfl
        cases (List.cons.inj (List.append_inj_right' hOwn rfl)).1
      | escape c hc =>
        have hLast : '"' :: (parts.flatMap StringPart.written ++ ['\\', c]) ++ ['"'] =
            '"' :: parts.flatMap StringPart.written ++ ['\\'] ++ [c, '"'] := by simp
        rw [StringPart.written, hLast] at hFront
        exact hc.1 (List.cons.inj (List.append_inj_right' hFront rfl)).1.symm
  · have hForm : front ++ ['\'', '\'', '\''] = (front ++ ['\'', '\'']) ++ ['\''] := by simp
    rw [hForm] at hFront
    cases (List.cons.inj (List.append_inj_right' hFront rfl)).1

theorem not_mem_written : '\n' ∉ parts.flatMap StringPart.written := by
  rw [List.mem_flatMap]
  rintro ⟨part, -, hMem⟩
  cases part with
  | char c hc => exact hc.2.2 (List.mem_singleton.mp hMem).symm
  | quote => revert hMem; decide
  | escape c hc =>
    rcases List.mem_cons.mp hMem with hSlash | hOwn
    · cases hSlash
    · exact hc.2 (List.mem_singleton.mp hOwn).symm

theorem codeOf_written (s : StringLiteral) : codeOf s.written = ['"', '"'] :=
  congrArg ('"' :: ·) (codeOf_go s.parts [])

theorem isArgument (s : StringLiteral) : IsArgument s.written := by
  have hQuote : IsBalanced false .code 0 s.written :=
    .other rfl (by decide) (by rintro ⟨⟩) (isBalanced_go s.parts .nil)
  have hSegment : IsSegment false s.written := by
    refine ⟨hQuote, ?_, (Text.IsTrimmed.singleton (by decide)).append _ (.singleton (by decide))⟩
    rw [written, List.mem_append, List.mem_cons, not_or, not_or]
    exact ⟨⟨by decide, not_mem_written s.parts⟩, by decide⟩
  refine ⟨⟨hSegment, ?_, ?_, fun _ => not_suffix_written s.parts⟩, ?_⟩
  · rw [hSegment.needsContinuation_eq_false_iff, codeOf_written]
    decide
  · rw [opensDoBlock, codeOf_written]
    decide
  · rw [codeOf_written]
    exact .of_all (by decide)

theorem isArgument_atom (s : StringLiteral) : IsArgument (':' :: s.written) := by
  have hString := s.isArgument
  have hSegment : IsSegment false (':' :: s.written) := by
    refine ⟨.other rfl (by decide) (by rintro ⟨⟩) hString.balanced, ?_, ?_⟩
    · rw [List.mem_cons, not_or]
      exact ⟨by decide, hString.unbroken⟩
    · exact (Text.IsTrimmed.singleton (show Text.isBlank ':' = false by decide)).append []
        hString.trimmed
  have hCode : codeOf (':' :: s.written) = [':', '"', '"'] :=
    congrArg (':' :: ·) s.codeOf_written
  refine ⟨⟨hSegment, ?_, ?_, ?_⟩, ?_⟩
  · rw [hSegment.needsContinuation_eq_false_iff, hCode]
    decide
  · rw [opensDoBlock, hCode]
    decide
  · intro delimiter hDelimiter hSuffix
    rcases List.suffix_cons_iff.mp hSuffix with rfl | hOwn
    · simp [heredocDelimiters] at hDelimiter
    · exact hString.noHeredoc delimiter hDelimiter hOwn
  · rw [hCode]
    exact .of_all (by decide)

theorem head?_written : (parts.flatMap StringPart.written).head? ≠ some '"' := by
  cases parts with
  | nil => nofun
  | cons part parts =>
    cases part with
    | char c hc => simpa [StringPart.written] using hc.1
    | quote => simp [StringPart.written]
    | escape c hc => simp [StringPart.written]

theorem replaceAll_written :
    Text.replaceAll ['\\', '"'] ['"'] 0 (parts.flatMap StringPart.written) =
      parts.flatMap StringPart.value := by
  induction parts with
  | nil => rfl
  | cons part parts ih =>
    rw [List.flatMap_cons, List.flatMap_cons]
    cases part with
    | char c hc =>
      simp [StringPart.written, StringPart.value, Text.replaceAll, List.isPrefixOf, Ne.symm hc.2.1, ih]
    | quote => simp [StringPart.written, StringPart.value, Text.replaceAll, List.isPrefixOf, ih]
    | escape c hc =>
      have hBehind : Text.replaceAll ['\\', '"'] ['"'] 0 (c :: parts.flatMap StringPart.written) =
          c :: parts.flatMap StringPart.value := by
        have hHead := head?_written parts
        rw [Text.replaceAll, ih, if_neg]
        cases hRest : parts.flatMap StringPart.written with
        | nil => simp [List.isPrefixOf]
        | cons d rest =>
          rw [hRest] at hHead
          simp only [List.head?_cons, ne_eq, Option.some.injEq] at hHead
          simp [List.isPrefixOf, Ne.symm hHead]
      simp only [StringPart.written, StringPart.value, List.cons_append, List.nil_append]
      rw [Text.replaceAll, hBehind, if_neg]
      simp [List.isPrefixOf, Ne.symm hc.1]

theorem parseString?_written (s : StringLiteral) : parseString? s.written = some s.value := by
  have hUnquote : unquote? "\"" s.written = some (s.parts.flatMap StringPart.written) := by
    rw [unquote?, written, List.cons_append]
    exact (congrArg (· >>= Text.stripSuffix? "\"")
      (Text.stripPrefix?_append "\"" (s.parts.flatMap StringPart.written ++ ['"']))).trans
      (Text.stripSuffix?_append "\"" _)
  rw [parseString?, s.isArgument.trimmed.trim_eq, hUnquote, Option.some_or, Option.map_some,
    replaceAll_written]
  rfl

end StringLiteral

/-! ### Values -/

/-- The text is no atom, string, module name or keyword. -/
structure IsOther (text : List Char) : Prop where
  isArgument : IsArgument text
  noAtom : parseAtom? text = none
  noString : parseString? text = none
  noModule : isModuleName text = false
  noKeyword : parseKeyword? text = none
  noKeywordList : keywordListBody? text = none

instance (text : List Char) : Decidable (IsOther text) :=
  decidable_of_iff (IsArgument text ∧ parseAtom? text = none ∧ parseString? text = none ∧
      isModuleName text = false ∧ parseKeyword? text = none ∧ keywordListBody? text = none)
    ⟨fun ⟨hArgument, hAtom, hString, hModule, hKeyword, hList⟩ =>
        ⟨hArgument, hAtom, hString, hModule, hKeyword, hList⟩,
      fun ⟨hArgument, hAtom, hString, hModule, hKeyword, hList⟩ =>
        ⟨hArgument, hAtom, hString, hModule, hKeyword, hList⟩⟩

/-- A value as an argument. -/
inductive Literal where
  | atom (name : AtomName)
  | quotedAtom (name : StringLiteral)
  | string (text : StringLiteral)
  | module (name : ModuleName)
  | other (text : List Char) (hText : IsOther text)

namespace Literal

def text : Literal → List Char
  | atom name => ':' :: name.1
  | quotedAtom name => ':' :: name.written
  | string text => text.written
  | module name => name.1
  | other text _ => text

def atom? : Literal → Option (List Char)
  | atom name => some name.1
  | quotedAtom name => some name.value
  | _ => none

def string? : Literal → Option (List Char)
  | string text => some text.value
  | _ => none

def module? : Literal → Option (List Char)
  | module name => some name.1
  | _ => none

def name? (value : Literal) : Option (List Char) := value.atom?.or value.string?

theorem isArgument (value : Literal) : IsArgument value.text := by
  cases value with
  | atom name => exact .atom name.2
  | quotedAtom name => exact name.isArgument_atom
  | string text => exact text.isArgument
  | module name => exact .module name.2
  | other text hText => exact hText.isArgument

theorem isUpper_of_module (name : ModuleName) :
    ∃ c rest, name.1 = c :: rest ∧ c ≠ ':' ∧ c ≠ '[' ∧ isQuote c = false := by
  obtain ⟨c, rest, hName, hUpper⟩ := name.2.first
  have hNot {d : Char} (hd : Text.isAsciiUpper d = false) : c ≠ d := by
    rintro rfl
    rw [hUpper] at hd
    cases hd
  refine ⟨c, rest, hName, hNot (by decide), hNot (by decide), ?_⟩
  simp [isQuote, hNot (show Text.isAsciiUpper '"' = false by decide),
    hNot (show Text.isAsciiUpper '\'' = false by decide)]

theorem parseAtom?_text (value : Literal) : parseAtom? value.text = value.atom? := by
  have hTrimmed := value.isArgument.trimmed
  cases value with
  | atom name => exact parseAtom?_atom name.2
  | quotedAtom name =>
    have hStrip : Text.stripPrefix? ":" (':' :: name.written) = some name.written :=
      Text.stripPrefix?_append ":" name.written
    rw [text, parseAtom?, name.isArgument_atom.trimmed.trim_eq, hStrip]
    simp only [Option.bind_eq_bind, Option.bind_some, name.parseString?_written]
    rfl
  | string text => exact parseAtom?_eq_none hTrimmed (by decide)
  | module name =>
    obtain ⟨c, rest, hName, hColon, -⟩ := isUpper_of_module name
    rw [text, hName] at hTrimmed ⊢
    exact parseAtom?_eq_none hTrimmed hColon
  | other text hText => exact hText.noAtom

theorem parseString?_text (value : Literal) : parseString? value.text = value.string? := by
  have hTrimmed := value.isArgument.trimmed
  cases value with
  | atom name => exact parseString?_eq_none hTrimmed (by decide)
  | quotedAtom name => exact parseString?_eq_none hTrimmed (by decide)
  | string text => exact text.parseString?_written
  | module name =>
    obtain ⟨c, rest, hName, -, -, hQuote⟩ := isUpper_of_module name
    rw [text, hName] at hTrimmed ⊢
    exact parseString?_eq_none hTrimmed hQuote
  | other text hText => exact hText.noString

theorem parseName?_text (value : Literal) : parseName? value.text = value.name? := by
  rw [parseName?, value.parseAtom?_text, value.parseString?_text, name?]

theorem isModuleName_text (value : Literal) : isModuleName value.text = value.module?.isSome := by
  have hTrimmed := value.isArgument.trimmed
  cases value with
  | atom name => exact isModuleName_eq_false hTrimmed (by decide) (by decide)
  | quotedAtom name => exact isModuleName_eq_false hTrimmed (by decide) (by decide)
  | string text => exact isModuleName_eq_false hTrimmed (by decide) (by decide)
  | module name => exact isModuleName_module name.2
  | other text hText => exact hText.noModule

/-- A value is no keyword and no list of keywords. -/
theorem noKeyword (value : Literal) :
    parseKeyword? value.text = none ∧ keywordListBody? value.text = none := by
  have hList {c : Char} {rest : List Char} (hc : c ≠ '[') :
      keywordListBody? (c :: rest) = none := by
    rw [keywordListBody?, Text.stripPrefix?_eq_none rfl (Ne.symm hc)]
    rfl
  cases value with
  | atom name => exact ⟨parseKeyword?_eq_none (by decide), hList (by decide)⟩
  | quotedAtom name => exact ⟨parseKeyword?_eq_none (by decide), hList (by decide)⟩
  | string text => exact ⟨parseKeyword?_eq_none (by decide), hList (by decide)⟩
  | module name =>
    obtain ⟨c, rest, hName, -, hBracket, -⟩ := isUpper_of_module name
    refine ⟨parseKeyword?_of_not_mem (name.2.not_mem (by decide) (by decide)), ?_⟩
    rw [text, hName]
    exact hList hBracket
  | other text hText => exact ⟨hText.noKeyword, hText.noKeywordList⟩

end Literal

/-! ### Lists of names -/

/-- What a word list stands between. -/
inductive SigilDelimiter where
  | parenthesis
  | bracket
  | brace
  | angle
  | bar
  | slash

namespace SigilDelimiter

def opening : SigilDelimiter → Char
  | parenthesis => '('
  | bracket => '['
  | brace => '{'
  | angle => '<'
  | bar => '|'
  | slash => '/'

def closing : SigilDelimiter → Char
  | parenthesis => ')'
  | bracket => ']'
  | brace => '}'
  | angle => '>'
  | bar => '|'
  | slash => '/'

end SigilDelimiter

/-- The names that a value may have, written as a list or as words. -/
inductive NameList where
  | list (items : List Literal)
  | words (delimiter : SigilDelimiter)
      (content : List { word : List Char // word ≠ [] ∧ ∀ c ∈ word, Text.isBlank c = false })
      (modifier : Option { c : Char // Text.isAsciiLetter c = true })

namespace NameList

def text : NameList → List Char
  | list items => '[' :: Text.join ", ".toList (items.map Literal.text) ++ [']']
  | words delimiter content modifier =>
    "~w".toList ++ (delimiter.opening :: Text.join [' '] (content.map (·.1)) ++ [delimiter.closing] ++
      (modifier.map (·.1)).toList)

def names : NameList → List (List Char)
  | list items => items.filterMap Literal.name?
  | words _ content _ => content.map (·.1)

/-- Words are read as code: they must not close what they did not open, and not count as the
keywords of blocks. -/
def IsPlain (names : NameList) : Prop := IsArgument names.text

theorem isPlain_list (items : List Literal) : (list items).IsPlain := by
  refine IsArgument.list fun t ht => ?_
  obtain ⟨item, -, rfl⟩ := List.mem_map.mp ht
  exact item.isArgument

theorem parseNames_list (items : List Literal) :
    parseNames (list items).text = (list items).names := by
  have hSigil : Text.stripPrefix? "~w" (list items).text = none :=
    Text.stripPrefix?_eq_none rfl (show '~' ≠ '[' by decide)
  have hOpen : Text.stripPrefix? "[" (list items).text =
      some (Text.join ", ".toList (items.map Literal.text) ++ [']']) :=
    Text.stripPrefix?_append "[" _
  have hClose : Text.stripSuffix? "]" (Text.join ", ".toList (items.map Literal.text) ++ [']']) =
      some (Text.join ", ".toList (items.map Literal.text)) := Text.stripSuffix?_append "]" _
  have hSplit : splitArguments (Text.join ", ".toList (items.map Literal.text)) =
      items.map Literal.text :=
    splitArguments_join_eq (List.forall_mem_map.mpr fun item _ => item.isArgument)
  have hEach : ∀ item ∈ items, (parseName? ∘ Literal.text) item = item.name? :=
    fun item _ => item.parseName?_text
  rw [parseNames, (isPlain_list items).trimmed.trim_eq, hSigil]
  simp only [hOpen, Option.bind_eq_bind, Option.bind_some, hClose, hSplit, List.filterMap_map]
  exact List.filterMap_congr hEach

theorem parseNames_words {delimiter : SigilDelimiter}
    {content : List { word : List Char // word ≠ [] ∧ ∀ c ∈ word, Text.isBlank c = false }}
    {modifier : Option { c : Char // Text.isAsciiLetter c = true }}
    (h : (words delimiter content modifier).IsPlain) :
    parseNames (words delimiter content modifier).text = content.map (·.1) := by
  have hSigil : Text.stripPrefix? "~w" (words delimiter content modifier).text =
      some (delimiter.opening :: Text.join [' '] (content.map (·.1)) ++ [delimiter.closing] ++
        (modifier.map (·.1)).toList) := Text.stripPrefix?_append "~w" _
  have hModifier : ∀ c ∈ (modifier.map (·.1)).toList, Text.isAsciiLetter c = true := by
    cases modifier with
    | none => nofun
    | some c => simpa using c.2
  have hClosing : Text.isAsciiLetter delimiter.closing = false := by cases delimiter <;> decide
  have hSize : delimiter.opening.utf8Size = 1 ∧ delimiter.closing.utf8Size = 1 := by
    cases delimiter <;> decide
  rw [parseNames, IsSegment.trimmed h.toIsSegment |>.trim_eq, hSigil]
  simp only
  rw [Text.dropEndWhile_append_of_pos hModifier, Text.dropEndWhile_concat_of_neg hClosing,
    List.cons_append, betweenEnds, List.getLast?_concat, List.dropLast_concat]
  simp only [hSize, Option.any_some]
  exact Text.words_join (List.forall_mem_map.mpr fun word _ => word.2)

/-- The names of a list are read off it. -/
theorem parseNames_text {names : NameList} (h : names.IsPlain) :
    parseNames names.text = names.names := by
  cases names with
  | list items => exact parseNames_list items
  | words delimiter content modifier => exact parseNames_words h

end NameList

end PhoenixLens.Elixir
