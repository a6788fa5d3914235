import PhoenixLens.Elixir.Router
import PhoenixLens.Proofs.Elixir.RouterValue

/-!
# Lines with one macro

A line of a router names a macro, then values, then values under keys, and may open a block. Such a
line stands for itself, counts at most one block, and gives its arguments back.
-/

namespace PhoenixLens.Elixir

structure MacroLine where
  name : String
  positional : List RouterValue
  keywords : List (String × RouterValue) := []
  /-- The line ends in `do`. -/
  opens : Bool := false

def routerMacros : List String :=
  ["defmodule", "scope", "pipeline", "live_session", "pipe_through", "resources", "live", "forward",
    "match"] ++ routeVerbs

/-- The keys of the options of scopes, resources and routes. -/
def routerKeys : List String := ["only", "except", "singleton", "param", "as"]

def keywordText (key : String) (value : RouterValue) : List Char :=
  key.toList ++ ": ".toList ++ value.text

namespace MacroLine

/-- The arguments as they are written, each with the code that is left of it. -/
def arguments (line : MacroLine) : List (List Char × List Char) :=
  line.positional.map (fun value => (value.text, value.code)) ++
    line.keywords.map fun (key, value) =>
      (keywordText key value, key.toList ++ ": ".toList ++ value.code)

def body (line : MacroLine) : List Char :=
  Text.join ", ".toList (line.arguments.map (·.1))

def text (line : MacroLine) : List Char :=
  line.name.toList ++ ' ' :: line.body ++ if line.opens then " do".toList else []

structure WellFormed (line : MacroLine) : Prop where
  name : line.name ∈ routerMacros
  positional_ne_nil : line.positional ≠ []
  positional : ∀ value ∈ line.positional, value.WellFormed
  keywords : ∀ keyword ∈ line.keywords, keyword.1 ∈ routerKeys ∧ keyword.2.WellFormed

end MacroLine

/-! ### Names and keys -/

theorem isWordRun_of_isKey {key : String} (h : key ∈ routerKeys) :
    IsWordRun key.toList ∧ IsIdle key.toList ∧ key.toList.all isKeyChar = true := by
  simp only [routerKeys, List.mem_cons, List.not_mem_nil, or_false] at h
  rcases h with rfl | rfl | rfl | rfl | rfl
  all_goals exact ⟨⟨⟨_, _, rfl, by decide⟩, by decide⟩,
    ⟨by decide, by decide, by decide⟩, by decide⟩

theorem isWordRun_of_isMacro {name : String} (h : name ∈ routerMacros) :
    IsWordRun name.toList ∧ IsIdle name.toList ∧
      ∀ c ∈ name.toList, (Text.isAsciiLower c || c == '_') = true := by
  have hChars : ∀ n ∈ routerMacros, ∀ c ∈ n.toList,
      (Text.isAsciiLower c || c == '_') = true := by decide
  have hNames : ∀ n ∈ routerMacros, n.toList ≠ [] ∧ n.toList ≠ ['d', 'o'] ∧
      n.toList ≠ ['f', 'n'] ∧ n.toList ≠ ['e', 'n', 'd'] := by decide
  have hStart : ∀ c ∈ name.toList, startsWord c = true := by
    intro c hc
    have hLower := hChars name h c hc
    simp only [Bool.or_eq_true, beq_iff_eq] at hLower
    rcases hLower with hLower | rfl
    · rw [startsWord, Text.isLetterOrNumber_of_isAsciiAlphanumeric, Bool.true_or]
      simp [Text.isAsciiAlphanumeric, Text.isAsciiLetter, hLower]
    · decide
  obtain ⟨hNe, hIdle⟩ := hNames name h
  refine ⟨⟨?_, fun c hc => continuesWord_of_startsWord (hStart c hc)⟩, hIdle, hChars name h⟩
  obtain ⟨c, rest, hName⟩ := List.exists_cons_of_ne_nil hNe
  exact ⟨c, rest, hName, hStart c (hName ▸ List.mem_cons_self)⟩

/-! ### Values under keys -/

theorem isPiece_keyword {key : String} {value : RouterValue} (hKey : key ∈ routerKeys)
    (h : value.WellFormed) :
    IsPiece (keywordText key value) (key.toList ++ ": ".toList ++ value.code) := by
  obtain ⟨hWord, hIdle, _⟩ := isWordRun_of_isKey hKey
  exact (IsPiece.word hWord hIdle).append isGap_colon (RouterValue.isPiece h)

theorem isEnd_keyword (key : String) {value : RouterValue} (h : value.WellFormed) :
    IsEnd (keywordText key value) (key.toList ++ ": ".toList ++ value.code) := by
  have hEnd := (RouterValue.isEnd h).append (key.toList ++ [':']) (show ' ' ≠ '"' by decide)
    (key.toList ++ ": ".toList)
  have hForm : keywordText key value = (key.toList ++ [':']) ++ ' ' :: value.text := by
    simp [keywordText]
  rwa [hForm]

theorem isTrimmed_keyword {key : String} {value : RouterValue} (hKey : key ∈ routerKeys)
    (h : value.WellFormed) : Text.IsTrimmed (keywordText key value) :=
  (isWordRun_of_isKey hKey).1.isTrimmed.append ": ".toList (RouterValue.isTrimmed h)

theorem isClosed_keyword {key : String} {value : RouterValue} (hKey : key ∈ routerKeys)
    (h : value.WellFormed) : IsClosed (keywordText key value) := by
  intro seen rest
  have hWord := (isWordRun_of_isKey hKey).1
  have hFront : ∀ c ∈ key.toList ++ ": ".toList,
      isQuote c = false ∧ bracketStep c = 0 ∧ (c = ',' → (0 : Int) ≠ 0) := by
    intro c hc
    rcases List.mem_append.mp hc with hName | hGap
    · have hContinues := hWord.all c hName
      have hPlain := isPlain_of_continuesWord hContinues
      simp only [isPlain, Bool.and_eq_true, Bool.not_eq_true'] at hPlain
      refine ⟨hPlain.1, bracketStep_of_continuesWord hContinues, ?_⟩
      rintro rfl
      exact absurd hName (hWord.not_mem (by decide))
    · have hAll : ∀ d ∈ ": ".toList,
          isQuote d = false ∧ bracketStep d = 0 ∧ (d = ',' → (0 : Int) ≠ 0) := by decide
      exact hAll c hGap
  rw [keywordText, List.append_assoc, splitAtCommas_go_append hFront, RouterValue.isClosed h]
  simp

theorem parseKeyword?_keywordText {key : String} {value : RouterValue} (hKey : key ∈ routerKeys)
    (h : value.WellFormed) :
    parseKeyword? (keywordText key value) = some (key.toList, value.text) := by
  obtain ⟨hWord, _, hChars⟩ := isWordRun_of_isKey hKey
  exact parseKeyword?_keyword hWord.ne_nil hChars (RouterValue.isTrimmed h)

theorem keywordListBody?_keywordText {key : String} {value : RouterValue}
    (hKey : key ∈ routerKeys) :
    keywordListBody? (keywordText key value) = none := by
  obtain ⟨c, rest, hName, hStart⟩ := (isWordRun_of_isKey hKey).1.first
  have hBracket : Text.stripPrefix? "[" (keywordText key value) = none := by
    rw [keywordText, hName]
    exact Text.stripPrefix?_eq_none rfl (Ne.symm (ne_of_startsWord hStart (by decide)))
  rw [keywordListBody?, hBracket]
  rfl

/-! ### Arguments -/

theorem isEnd_join {p : List Char × List Char} {pieces : List (List Char × List Char)}
    (h : ∀ q ∈ p :: pieces, IsEnd q.1 q.2) :
    IsEnd (Text.join ", ".toList ((p :: pieces).map (·.1)))
      (Text.join ", ".toList ((p :: pieces).map (·.2))) := by
  induction pieces generalizing p with
  | nil =>
    rw [List.map_singleton, List.map_singleton, Text.join_singleton, Text.join_singleton]
    exact h p List.mem_cons_self
  | cons q pieces ih =>
    have hRest := ih fun r hr => h r (List.mem_cons_of_mem _ hr)
    have hEnd := hRest.append (p.1 ++ [',']) (show ' ' ≠ '"' by decide) (p.2 ++ ", ".toList)
    have hForm : Text.join ", ".toList ((p :: q :: pieces).map (·.1)) =
        (p.1 ++ [',']) ++ ' ' :: Text.join ", ".toList ((q :: pieces).map (·.1)) := by
      simp only [List.map_cons]
      rw [Text.join_cons _ _ (List.cons_ne_nil _ _)]
      simp
    have hCode : Text.join ", ".toList ((p :: q :: pieces).map (·.2)) =
        p.2 ++ ", ".toList ++ Text.join ", ".toList ((q :: pieces).map (·.2)) := by
      simp only [List.map_cons]
      rw [Text.join_cons _ _ (List.cons_ne_nil _ _)]
    rwa [hForm, hCode]

namespace MacroLine

variable {line : MacroLine}

theorem WellFormed.argument (h : line.WellFormed) {p : List Char × List Char}
    (hp : p ∈ line.arguments) :
    IsPiece p.1 p.2 ∧ IsEnd p.1 p.2 ∧ IsClosed p.1 ∧ Text.IsTrimmed p.1 := by
  rcases List.mem_append.mp hp with hValue | hKeyword
  · obtain ⟨value, hMem, rfl⟩ := List.mem_map.mp hValue
    have hWell := h.positional value hMem
    exact ⟨RouterValue.isPiece hWell, RouterValue.isEnd hWell, RouterValue.isClosed hWell,
      RouterValue.isTrimmed hWell⟩
  · obtain ⟨keyword, hMem, rfl⟩ := List.mem_map.mp hKeyword
    obtain ⟨hKey, hWell⟩ := h.keywords keyword hMem
    exact ⟨isPiece_keyword hKey hWell, isEnd_keyword _ hWell, isClosed_keyword hKey hWell,
      isTrimmed_keyword hKey hWell⟩

def bodyCode (line : MacroLine) : List Char :=
  Text.join ", ".toList (line.arguments.map (·.2))

theorem WellFormed.body (h : line.WellFormed) :
    IsPiece line.body line.bodyCode ∧ IsEnd line.body line.bodyCode := by
  have hNe : line.arguments ≠ [] := by simp [arguments, h.positional_ne_nil]
  have hArguments := fun p (hp : p ∈ line.arguments) => h.argument hp
  rw [MacroLine.body, bodyCode]
  generalize line.arguments = arguments at hNe hArguments
  obtain ⟨p, pieces, rfl⟩ := List.exists_cons_of_ne_nil hNe
  exact ⟨IsPiece.join fun q hq => (hArguments q hq).1, isEnd_join fun q hq => (hArguments q hq).2.1⟩

def call (line : MacroLine) : List Char := line.name.toList ++ [' '] ++ line.body

def callCode (line : MacroLine) : List Char := line.name.toList ++ [' '] ++ line.bodyCode

theorem text_eq (line : MacroLine) :
    line.text = line.call ++ if line.opens then " do".toList else [] := by
  simp [text, call]

theorem WellFormed.call (h : line.WellFormed) :
    IsPiece line.call line.callCode ∧ IsEnd line.call line.callCode := by
  obtain ⟨hWord, hIdle, _⟩ := isWordRun_of_isMacro h.name
  obtain ⟨hPiece, hEnd⟩ := h.body
  refine ⟨(IsPiece.word hWord hIdle).append isGap_space hPiece, ?_⟩
  have hWhole := hEnd.append line.name.toList (show ' ' ≠ '"' by decide) (line.name.toList ++ [' '])
  simpa [MacroLine.call, callCode] using hWhole

/-! ### Whole lines -/

/-- With any number of blanks before it, the line stands for itself and opens the block that it
says. -/
theorem WellFormed.isOwnLine (h : line.WellFormed) (width : Nat) :
    IsOwnLine (List.replicate width ' ' ++ line.text) (line.opens.toNat, 0) := by
  obtain ⟨hPiece, hEnd⟩ := h.call
  cases hOpens : line.opens with
  | false =>
    have hLine : List.replicate width ' ' ++ line.text =
        (List.replicate width ' ' ++ line.name.toList) ++ ' ' :: line.body := by
      rw [text, hOpens]
      simp
    have hCode : (List.replicate width ' ' ++ line.name.toList ++ [' ']) ++ line.bodyCode =
        List.replicate width ' ' ++ line.callCode := by simp [callCode]
    have hWhole := h.body.2.append (List.replicate width ' ' ++ line.name.toList)
      (show ' ' ≠ '"' by decide) (List.replicate width ' ' ++ line.name.toList ++ [' '])
    rw [← hLine, hCode] at hWhole
    have hIndented : IsPiece (List.replicate width ' ' ++ line.text)
        (List.replicate width ' ' ++ line.callCode) := by
      rw [text_eq, hOpens]
      simpa using hPiece.indent width
    refine .of_piece hIndented hWhole fun front => ?_
    rw [hLine]
    exact h.body.2.noHeredoc _ ' ' (by decide) front
  | true =>
    rw [text_eq, hOpens, ← List.append_assoc]
    exact .of_opening (hPiece.indent width)

/-! ### Reading the line -/

theorem WellFormed.body_eq (h : line.WellFormed) :
    ∃ (value : RouterValue) (more : List Char), value.WellFormed ∧
      line.body = value.text ++ more := by
  obtain ⟨value, values, hPositional⟩ := List.exists_cons_of_ne_nil h.positional_ne_nil
  have hValue := h.positional value (by simp [hPositional])
  rw [MacroLine.body, arguments, hPositional]
  simp only [List.map_cons, List.cons_append]
  generalize (values.map fun value => (value.text, value.code)) ++ _ = pieces
  cases pieces with
  | nil => exact ⟨value, [], hValue, by simp [Text.join_singleton]⟩
  | cons p pieces =>
    simp only [List.map_cons]
    rw [Text.join_cons _ _ (List.cons_ne_nil _ _), List.append_assoc]
    exact ⟨value, _, hValue, rfl⟩

theorem WellFormed.isTrimmed_body (h : line.WellFormed) : Text.IsTrimmed line.body := by
  obtain ⟨before, _, c, hText, _, hBlank, _⟩ := h.body.2.last
  refine ⟨?_, before, c, hText, hBlank⟩
  obtain ⟨value, more, hValue, hBody⟩ := h.body_eq
  obtain ⟨d, rest, hText, hFirst⟩ := (RouterValue.isTrimmed hValue).first
  exact ⟨d, rest ++ more, by rw [hBody, hText, List.cons_append], hFirst⟩

theorem WellFormed.isTrimmed (h : line.WellFormed) : Text.IsTrimmed line.text := by
  have hName := (isWordRun_of_isMacro h.name).1.isTrimmed
  have hCall : Text.IsTrimmed line.call := hName.append [' '] h.isTrimmed_body
  rw [text_eq]
  exact isTrimmed_append_do hCall line.opens

theorem WellFormed.opensDoBlock_text (h : line.WellFormed) :
    opensDoBlock line.text = line.opens := by
  obtain ⟨hPiece, hEnd⟩ := h.call
  rw [Bool.eq_iff_iff, opensDoBlock_iff, text_eq]
  cases line.opens with
  | false =>
    obtain ⟨_, codeBefore, c, _, hCode, hBlank, _⟩ := hEnd.last
    have hTrimmed : Text.trimEnd line.callCode = line.callCode := by
      rw [hCode, Text.trimEnd, Text.dropEndWhile_concat_of_neg hBlank]
    simpa [hPiece.codeOf_eq, hTrimmed] using hEnd.code_noDo []
  | true =>
    have hCode : codeOf (line.call ++ " do".toList) = (line.callCode ++ " d".toList) ++ ['o'] := by
      rw [codeOf, hPiece.reads]
      simp
      rfl
    simp only [if_true, iff_true]
    rw [hCode, Text.trimEnd, Text.dropEndWhile_concat_of_neg (by decide)]
    exact ⟨line.callCode ++ [' '], by simp, by simp⟩

theorem WellFormed.macroName?_text (h : line.WellFormed) :
    macroName? line.text = some line.name.toList := by
  obtain ⟨hWord, _, hChars⟩ := isWordRun_of_isMacro h.name
  have hForm : line.text = line.name.toList ++ ' ' :: (line.body ++
      if line.opens then " do".toList else []) := by simp [text]
  obtain ⟨c, rest, hName⟩ := List.exists_cons_of_ne_nil hWord.ne_nil
  have hTake : ∀ more, (' ' :: more).takeWhile (fun c => Text.isAsciiLower c || c == '_') = [] :=
    fun _ => rfl
  have hDrop : ∀ more,
      (' ' :: more).dropWhile (fun c => Text.isAsciiLower c || c == '_') = ' ' :: more :=
    fun _ => rfl
  rw [macroName?, h.isTrimmed.trimStart_eq, hForm, List.takeWhile_append_of_pos hChars,
    List.dropWhile_append_of_pos hChars, hTake, hDrop, List.append_nil, hName]
  rfl

theorem WellFormed.callArguments?_text (h : line.WellFormed) :
    callArguments? line.text line.name = some line.body := by
  obtain ⟨before, _, c, hText, _, hBlank, hComma, _⟩ := h.body.2.last
  have hForm : line.text = line.name.toList ++ (' ' :: (line.body ++
      if line.opens then " do".toList else [])) := by simp [text]
  have hTrim : Text.trim (' ' :: (line.body ++ if line.opens then " do".toList else [])) =
      line.body ++ if line.opens then " do".toList else [] := by
    have hSpace : ∀ c ∈ [' '], Text.isBlank c = true := by decide
    exact (isTrimmed_append_do h.isTrimmed_body line.opens).trim_append hSpace
  have hStrip : stripTrailingDo (line.body ++ if line.opens then " do".toList else []) =
      line.body := stripTrailingDo_do hText hBlank hComma fun _ => h.body.2.text_noDo []
  have hParen : Text.stripPrefix? "(" line.body = none := by
    obtain ⟨value, more, hValue, hBody⟩ := h.body_eq
    obtain ⟨d, rest, hFirst, _, hOpen, _⟩ := RouterValue.first hValue
    rw [hBody, hFirst, List.cons_append]
    exact Text.stripPrefix?_eq_none rfl (Ne.symm hOpen)
  rw [callArguments?, h.isTrimmed.trimStart_eq, hForm, Text.stripPrefix?_append]
  simp only [Option.bind_eq_bind, Option.bind_some, hTrim, hStrip, hParen]
  rfl

theorem WellFormed.splitArguments_body (h : line.WellFormed) :
    splitArguments line.body = line.arguments.map (·.1) := by
  refine splitArguments_join fun t ht => ?_
  obtain ⟨p, hp, rfl⟩ := List.mem_map.mp ht
  exact (h.argument hp).2.2

/-- The values before the first key, and the values under keys. -/
theorem WellFormed.ofList_arguments (h : line.WellFormed) :
    Arguments.ofList (line.arguments.map (·.1)) =
      ⟨line.positional.map RouterValue.text,
        line.keywords.map fun keyword => (keyword.1.toList, keyword.2.text)⟩ := by
  have hTexts : line.arguments.map (·.1) = line.positional.map RouterValue.text ++
      line.keywords.map fun keyword => keywordText keyword.1 keyword.2 := by
    simp [arguments, List.map_map, Function.comp_def]
  have hValues : ∀ t ∈ line.positional.map RouterValue.text, parseKeyword? t = none ∧
      beginsKeywordList t = false ∧ keywordListBody? t = none := by
    intro t ht
    obtain ⟨value, hMem, rfl⟩ := List.mem_map.mp ht
    have hValue := h.positional value hMem
    exact ⟨RouterValue.parseKeyword?_text hValue, RouterValue.beginsKeywordList_text hValue,
      RouterValue.keywordListBody?_text hValue⟩
  have hPositional : positionalArguments (line.arguments.map (·.1)) =
      line.positional.map RouterValue.text := by
    rw [positionalArguments, hTexts, List.takeWhile_append_of_pos fun t ht => by
      simp [(hValues t ht).1, (hValues t ht).2.1]]
    cases hKeywords : line.keywords with
    | nil => simp
    | cons keyword keywords =>
      obtain ⟨hKey, hValue⟩ := h.keywords keyword (by simp [hKeywords])
      rw [List.map_cons, List.takeWhile_cons_of_neg, List.append_nil]
      simp [parseKeyword?_keywordText hKey hValue]
  have hNoList : ∀ t ∈ line.arguments.map (·.1), keywordListBody? t = none := by
    intro t ht
    rw [hTexts, List.mem_append] at ht
    rcases ht with hOwn | hKeyword
    · exact (hValues t hOwn).2.2
    · obtain ⟨keyword, hMem, rfl⟩ := List.mem_map.mp hKeyword
      exact keywordListBody?_keywordText (h.keywords keyword hMem).1
  have hNone : (line.positional.map RouterValue.text).filterMap parseKeyword? = [] := by
    rw [List.filterMap_eq_nil_iff]
    exact fun t ht => (hValues t ht).1
  have hSome : ∀ keyword ∈ line.keywords, parseKeyword? (keywordText keyword.1 keyword.2) =
      some (keyword.1.toList, keyword.2.text) := fun keyword hMem =>
    parseKeyword?_keywordText (h.keywords keyword hMem).1 (h.keywords keyword hMem).2
  have hKeywords : keywordArguments (line.arguments.map (·.1)) =
      line.keywords.map fun keyword => (keyword.1.toList, keyword.2.text) := by
    rw [keywordArguments_of_noList hNoList, hTexts, List.filterMap_append, hNone, List.nil_append,
      List.filterMap_map]
    exact (List.filterMap_congr hSome).trans (congrFun List.filterMap_eq_map _)
  rw [Arguments.ofList, hPositional, hKeywords]

theorem WellFormed.reading (h : line.WellFormed) :
    macroName? line.text = some line.name.toList ∧
      callArguments? line.text line.name = some line.body ∧
      splitArguments line.body = line.arguments.map (·.1) ∧
      Arguments.ofList (line.arguments.map (·.1)) =
        ⟨line.positional.map RouterValue.text,
          line.keywords.map fun keyword => (keyword.1.toList, keyword.2.text)⟩ ∧
      opensDoBlock line.text = line.opens :=
  ⟨h.macroName?_text, h.callArguments?_text, h.splitArguments_body, h.ofList_arguments,
    h.opensDoBlock_text⟩

end MacroLine

end PhoenixLens.Elixir
