import PhoenixLens.Proofs.Elixir.ComponentReading
import PhoenixLens.Proofs.Elixir.ControllerTree

/-!
# Lines of actions

The calls in a line are found where they begin and nowhere else: a name counts where no word runs
into it and a parenthesis follows. So every line of an action stands for itself and does what it is
written for.
-/

namespace PhoenixLens.Elixir

/-! ### Calls in a text -/

section

variable {name : String} {previous : Option Char} {inWord : Bool} {front text : List Char} {c : Char}

/-- What begins before a character that it does not hold ends before that character. -/
theorem isPrefixOf_append_cons {pattern : List Char} (h : c ∉ pattern) (front text : List Char) :
    pattern.isPrefixOf (front ++ c :: text) = pattern.isPrefixOf front := by
  rw [Bool.eq_iff_iff, List.isPrefixOf_iff_prefix, List.isPrefixOf_iff_prefix]
  constructor
  · rintro ⟨rest, hRest⟩
    rcases List.append_eq_append_iff.mp hRest with ⟨more, hFront, -⟩ | ⟨more, hPattern, hMore⟩
    · exact ⟨more, hFront.symm⟩
    · cases more with
      | nil => exact ⟨[], by rw [hPattern, List.append_nil, List.append_nil]⟩
      | cons d more =>
        cases hMore
        exact absurd (by rw [hPattern]; simp) h
  · exact fun hPrefix => hPrefix.trans (List.prefix_append _ _)

theorem stripPrefix?_call_eq_none (h : (name.toList ++ ['(']).isPrefixOf text = false) :
    (Text.stripPrefix? name text >>= Text.stripPrefix? "(") = none := by
  rw [Option.eq_none_iff_forall_ne_some]
  intro inner hInner
  obtain ⟨rest, hName, hOpen⟩ := Option.bind_eq_some_iff.mp hInner
  rw [Text.stripPrefix?, List.isPrefixOf?_eq_some_iff_append_eq] at hName hOpen
  have hCall : (name.toList ++ ['(']).isPrefixOf text = true := by
    rw [List.isPrefixOf_iff_prefix, ← hName, ← hOpen]
    exact ⟨inner, by simp⟩
  rw [h] at hCall
  cases hCall

theorem callsOf_go_cons (h : previous.any Text.isWord = true ∨
    (name.toList ++ ['(']).isPrefixOf (c :: text) = false) :
    callsOf.go name previous (c :: text) = callsOf.go name (some c) text := by
  rw [callsOf.go]
  rcases h with hWord | hCall
  · rw [if_pos hWord]
    rfl
  · rw [stripPrefix?_call_eq_none hCall]
    split <;> rfl

theorem callsOf_go_eq_nil_of_opensCall
    (h : opensCall.go name (previous.any Text.isWord) text = false) :
    callsOf.go name previous text = [] := by
  induction text generalizing previous with
  | nil => rfl
  | cons c text ih =>
    rw [opensCall.go, Bool.or_eq_false_iff, Bool.and_eq_false_iff, Bool.not_eq_false'] at h
    rw [callsOf_go_cons h.1]
    exact ih h.2

/-- A character that belongs neither to a word nor to a call keeps apart what stands around it. -/
structure IsSeparator (c : Char) : Prop where
  noWord : Text.isWord c = false
  noCall : c ≠ '('

instance (c : Char) : Decidable (IsSeparator c) :=
  decidable_of_iff (Text.isWord c = false ∧ c ≠ '(') ⟨fun ⟨hWord, hCall⟩ => ⟨hWord, hCall⟩,
    fun ⟨hWord, hCall⟩ => ⟨hWord, hCall⟩⟩

/-- A name that calls are collected of. -/
structure IsCallName (name : String) : Prop where
  ne_nil : name.toList ≠ []
  isWord : ∀ c ∈ name.toList, Text.isWord c = true

theorem IsSeparator.not_mem (h : IsSeparator c) (hName : IsCallName name) :
    c ∉ name.toList ++ ['('] := by
  rw [List.mem_append, List.mem_singleton, not_or]
  refine ⟨fun hMem => ?_, h.noCall⟩
  have hWord := hName.isWord c hMem
  rw [h.noWord] at hWord
  cases hWord

theorem opensCall_go_append_cons (hName : IsCallName name) (hc : IsSeparator c)
    (front text : List Char) :
    opensCall.go name inWord (front ++ c :: text) =
      (opensCall.go name inWord front || opensCall.go name false text) := by
  induction front generalizing inWord with
  | nil =>
    have hHere : (name.toList ++ ['(']).isPrefixOf (c :: text) = false :=
      (isPrefixOf_append_cons (hc.not_mem hName) [] text).trans (by cases name.toList <;> rfl)
    rw [List.nil_append, opensCall.go.eq_2, hHere, hc.noWord, Bool.and_false, opensCall.go.eq_1]
  | cons d front ih =>
    have hHere := isPrefixOf_append_cons (hc.not_mem hName) (d :: front) text
    rw [List.cons_append] at hHere ⊢
    rw [opensCall.go, hHere, ih, opensCall.go, Bool.or_assoc]

/-- Behind a text without calls and a separator, the search begins anew. -/
theorem callsOf_go_append_cons (hName : IsCallName name) (hc : IsSeparator c)
    (h : opensCall.go name (previous.any Text.isWord) front = false) (text : List Char) :
    callsOf.go name previous (front ++ c :: text) = callsOf.go name (some c) text := by
  induction front generalizing previous with
  | nil =>
    refine callsOf_go_cons (.inr ?_)
    exact (isPrefixOf_append_cons (hc.not_mem hName) [] text).trans (by cases name.toList <;> rfl)
  | cons d front ih =>
    have hHere := isPrefixOf_append_cons (hc.not_mem hName) (d :: front) text
    rw [opensCall.go, Bool.or_eq_false_iff, Bool.and_eq_false_iff, Bool.not_eq_false'] at h
    rw [List.cons_append] at hHere ⊢
    rw [callsOf_go_cons (h.1.imp_right hHere.trans)]
    exact ih h.2

theorem opensCall_go_word (h : ∀ c ∈ front, Text.isWord c = true) (text : List Char) :
    opensCall.go name true (front ++ '(' :: text) = opensCall.go name false text := by
  induction front with
  | nil =>
    rw [List.nil_append, opensCall.go]
    rfl
  | cons c front ih =>
    rw [List.cons_append, opensCall.go, h c List.mem_cons_self,
      ih fun d hd => h d (List.mem_cons_of_mem c hd)]
    rfl

theorem opensCall_go_of_not_mem (h : '(' ∉ text) : opensCall.go name inWord text = false := by
  induction text generalizing inWord with
  | nil => rfl
  | cons c text ih =>
    have hHere : (name.toList ++ ['(']).isPrefixOf (c :: text) = false := by
      rw [← Bool.not_eq_true, List.isPrefixOf_iff_prefix]
      exact fun hPrefix => h (hPrefix.subset (by simp))
    rw [opensCall.go, hHere, ih (List.not_mem_of_not_mem_cons h), Bool.and_false]
    rfl

theorem opensCall_go_closed (hName : IsCallName name) {body : List Char}
    (hNone : opensCall name body = false) : opensCall.go name false (body ++ [')']) = false := by
  rw [opensCall_go_append_cons hName (show IsSeparator ')' by decide)]
  exact Bool.or_eq_false_iff.mpr ⟨hNone, rfl⟩

/-- A call, with the parenthesis that closes it at the end of the text. -/
theorem callsOf_go_call (hName : IsCallName name) {body : List Char}
    (hBody : IsBalanced true .code 0 body) (hNone : opensCall name body = false)
    (hPrevious : previous.any Text.isWord = false) :
    callsOf.go name previous (name.toList ++ ('(' :: body ++ [')'])) = [splitArguments body] := by
  obtain ⟨c, rest, hForm⟩ := List.exists_cons_of_ne_nil hName.ne_nil
  have hInner : (Text.stripPrefix? name (name.toList ++ ('(' :: body ++ [')'])) >>=
      Text.stripPrefix? "(" >>= beforeClosing?) = some body := by
    rw [Text.stripPrefix?_append]
    exact hBody.beforeClosing?_eq []
  have hRest : callsOf.go name (some c) (rest ++ ('(' :: body ++ [')'])) = [] := by
    refine callsOf_go_eq_nil_of_opensCall ?_
    rw [Option.any_some, hName.isWord c (hForm ▸ List.mem_cons_self)]
    exact (opensCall_go_word (fun d hd => hName.isWord d (hForm ▸ List.mem_cons_of_mem c hd))
      (body ++ [')'])).trans (opensCall_go_closed hName hNone)
  rw [hForm, List.cons_append] at hInner ⊢
  rw [callsOf.go, hRest, hInner, hPrevious]
  rfl

/-- In a call, no call of another name begins but in its arguments. -/
theorem opensCall_go_call {other : String} (hName : IsCallName name) (hOther : IsCallName other)
    (hHeads : other.toList.head? ≠ name.toList.head?) {body : List Char}
    (hNone : opensCall other body = false) :
    opensCall.go other false (name.toList ++ ('(' :: body ++ [')'])) = false := by
  obtain ⟨c, rest, hForm⟩ := List.exists_cons_of_ne_nil hName.ne_nil
  obtain ⟨d, others, hOtherForm⟩ := List.exists_cons_of_ne_nil hOther.ne_nil
  have hWord := hName.isWord
  rw [hForm, List.forall_mem_cons] at hWord
  have hHere : (other.toList ++ ['(']).isPrefixOf (c :: (rest ++ ('(' :: body ++ [')']))) = false := by
    have hNe : (d == c) = false := by simpa [hForm, hOtherForm] using hHeads
    rw [hOtherForm, List.cons_append, List.isPrefixOf, hNe, Bool.false_and]
  rw [hForm, List.cons_append, opensCall.go, hHere, hWord.1, Bool.and_false, Bool.false_or]
  exact (opensCall_go_word hWord.2 (body ++ [')'])).trans (opensCall_go_closed hOther hNone)

end

/-! ### Texts without calls -/

namespace OpensNoCall

variable {front text : List Char} {c : Char}

theorem isCallName {name : String} (h : name ∈ collectedCalls) : IsCallName name := by
  have hAll : ∀ name ∈ collectedCalls,
      name.toList ≠ [] ∧ ∀ c ∈ name.toList, Text.isWord c = true := by decide
  exact ⟨(hAll name h).1, (hAll name h).2⟩

theorem of_not_mem (h : '(' ∉ text) : OpensNoCall text := fun _ _ => opensCall_go_of_not_mem h

theorem append_cons (hFront : OpensNoCall front) (hc : IsSeparator c) (h : OpensNoCall text) :
    OpensNoCall (front ++ c :: text) := by
  intro name hName
  rw [opensCall, opensCall_go_append_cons (isCallName hName) hc]
  exact Bool.or_eq_false_iff.mpr ⟨hFront name hName, h name hName⟩

theorem join {texts : List (List Char)} (h : ∀ t ∈ texts, OpensNoCall t) :
    OpensNoCall (Text.join ", ".toList texts) := by
  induction texts with
  | nil => exact of_not_mem (List.not_mem_nil)
  | cons t texts ih =>
    obtain ⟨hFirst, hRest⟩ := List.forall_mem_cons.mp h
    cases texts with
    | nil => rwa [Text.join_singleton]
    | cons u texts =>
      have hBehind : OpensNoCall ([] ++ ' ' :: Text.join ", ".toList (u :: texts)) :=
        (of_not_mem List.not_mem_nil).append_cons (by decide) (ih hRest)
      rw [Text.join_cons _ _ (List.cons_ne_nil _ _), List.append_assoc]
      exact hFirst.append_cons (show IsSeparator ',' by decide) hBehind

end OpensNoCall

/-! ### Arguments -/

namespace IsSegment

variable {front text : List Char} {t : List Char} {texts : List (List Char)}

theorem comma (hFront : IsSegment true front) (h : IsSegment true text) :
    IsSegment true (front ++ ", ".toList ++ text) := by
  have hGap : IsBalanced true .code 0 ", ".toList := by decide
  refine ⟨(hFront.balanced.code_append hGap).code_append h.balanced, ?_,
    hFront.trimmed.append ", ".toList h.trimmed⟩
  rw [List.mem_append, List.mem_append, not_or, not_or]
  exact ⟨⟨hFront.unbroken, by decide⟩, h.unbroken⟩

theorem join (h : ∀ u ∈ t :: texts, IsSegment false u) :
    IsSegment true (Text.join ", ".toList (t :: texts)) := by
  induction texts generalizing t with
  | nil =>
    rw [Text.join_singleton]
    exact (h t List.mem_cons_self).mono
  | cons u texts ih =>
    obtain ⟨hFirst, hRest⟩ := List.forall_mem_cons.mp h
    rw [Text.join_cons _ _ (List.cons_ne_nil _ _)]
    exact hFirst.mono.comma (ih hRest)

theorem balanced_join (h : ∀ u ∈ texts, IsSegment false u) :
    IsBalanced true .code 0 (Text.join ", ".toList texts) := by
  cases texts with
  | nil => exact .nil
  | cons t texts => exact (join h).balanced

theorem unbroken_join (h : ∀ u ∈ texts, IsSegment false u) :
    '\n' ∉ Text.join ", ".toList texts := by
  cases texts with
  | nil => exact List.not_mem_nil
  | cons t texts => exact (join h).unbroken

theorem splitArguments_join (h : ∀ u ∈ texts, IsSegment false u) :
    splitArguments (Text.join ", ".toList texts) = texts :=
  Elixir.splitArguments_join fun t ht => ⟨(h t ht).balanced.isClosed, (h t ht).trimmed⟩

/-- A list of arguments in brackets, perhaps behind the name of what is called. -/
theorem enclosed (h : ∀ u ∈ texts, IsSegment false u) {name : List Char}
    (hName : name = [] ∨ IsWordRun name) {opening closing : Char}
    (hBrackets : (opening, closing) ∈ [('(', ')'), ('[', ']')]) (commas : Bool) :
    IsSegment commas (name ++ (opening :: Text.join ", ".toList texts ++ [closing])) := by
  have hAll : ∀ pair ∈ [('(', ')'), ('[', ']')], isOpening pair.1 = true ∧ isClosing pair.2 = true ∧
      pair.1 ≠ '\n' ∧ pair.2 ≠ '\n' ∧ Text.isBlank pair.1 = false ∧ Text.isBlank pair.2 = false := by
    decide
  obtain ⟨hOpening, hClosing, hFirst, hLast, hFirstBlank, hLastBlank⟩ := hAll _ hBrackets
  have hBalanced : IsBalanced commas .code 0 (opening :: Text.join ", ".toList texts ++ [closing]) :=
    .brackets hOpening hClosing (balanced_join h)
  have hUnbroken : '\n' ∉ opening :: Text.join ", ".toList texts ++ [closing] := by
    rw [List.cons_append, List.mem_cons, List.mem_append, List.mem_singleton, not_or, not_or]
    exact ⟨hFirst.symm, unbroken_join h, hLast.symm⟩
  have hTrimmed : Text.IsTrimmed (opening :: Text.join ", ".toList texts ++ [closing]) :=
    (Text.IsTrimmed.singleton hFirstBlank).append _ (.singleton hLastBlank)
  rcases hName with rfl | hWord
  · exact ⟨hBalanced, hUnbroken, hTrimmed⟩
  · refine ⟨(IsBalanced.of_word hWord).code_append hBalanced, ?_, ?_⟩
    · rw [List.mem_append, not_or]
      exact ⟨hWord.not_mem (by decide), hUnbroken⟩
    · have hBoth := hWord.isTrimmed.append [] hTrimmed
      rwa [List.append_nil] at hBoth

end IsSegment

/-! #### Keywords -/

theorem continuesWord_of_isKeyChar {c : Char} (h : isKeyChar c = true) : continuesWord c = true := by
  simp only [isKeyChar, Bool.or_eq_true] at h
  simp only [continuesWord, startsWord, Bool.or_eq_true]
  rcases h with (hLetter | hLine) | hMark
  · exact .inl (.inl (.inl hLetter))
  · exact .inl (.inl (.inr hLine))
  · exact .inl (.inr hMark)

namespace KeywordName

variable (key : KeywordName) {value : List Char}

theorem continuesWord_of_mem {c : Char} (hc : c ∈ key.1) : continuesWord c = true :=
  continuesWord_of_isKeyChar (List.all_eq_true.mp key.2.2 c hc)

theorem exists_cons : ∃ c rest, key.1 = c :: rest ∧ continuesWord c = true := by
  obtain ⟨c, rest, hKey⟩ := List.exists_cons_of_ne_nil key.2.1
  exact ⟨c, rest, hKey, continuesWord_of_mem key (hKey ▸ List.mem_cons_self)⟩

theorem not_mem {c : Char} (hc : continuesWord c = false) : c ∉ key.1 := by
  intro hMem
  rw [continuesWord_of_mem key hMem] at hc
  cases hc

theorem isSegment_keyed (h : IsSegment false value) : IsSegment false (keyed key.1 value) := by
  have hGap : ∀ c ∈ ": ".toList, isPlain c = true ∧ bracketStep c = 0 := by decide
  have hKey : ∀ c ∈ key.1, isPlain c = true ∧ bracketStep c = 0 := fun c hc =>
    ⟨isPlain_of_continuesWord (continuesWord_of_mem key hc),
      bracketStep_of_continuesWord (continuesWord_of_mem key hc)⟩
  have hFront : IsBalanced false .code 0 (key.1 ++ ": ".toList) := by
    refine .of_plain (List.forall_mem_append.mpr ⟨hKey, hGap⟩) fun hComma => ?_
    rcases List.mem_append.mp hComma with hMem | hMem
    · exact absurd hMem (not_mem key (by decide))
    · exact absurd hMem (by decide)
  have hTrimmed : Text.IsTrimmed key.1 :=
    .of_all key.2.1 fun c hc => not_isBlank_of_continuesWord (continuesWord_of_mem key hc)
  refine ⟨hFront.code_append h.balanced, ?_, hTrimmed.append ": ".toList h.trimmed⟩
  rw [keyed, List.mem_append, List.mem_append, not_or, not_or]
  exact ⟨⟨not_mem key (by decide), by decide⟩, h.unbroken⟩

theorem parseKeyword?_keyed (h : IsSegment false value) :
    parseKeyword? (keyed key.1 value) = some (key.1, value) :=
  parseKeyword?_keyword key.2.1 key.2.2 h.trimmed

theorem isSome_parseKeyword? (rest : List Char) :
    (parseKeyword? (key.1 ++ ':' :: ' ' :: rest)).isSome = true := by
  have hColon : ':' ∉ key.1 := not_mem key (by decide)
  have hEmpty : key.1.isEmpty = false := by simpa using key.2.1
  rw [parseKeyword?, cutAtColon?, Text.cutAt?_singleton_append hColon]
  simp only [Option.bind_eq_bind, Option.bind_some, hEmpty, key.2.2]
  rfl

theorem keywordListBody?_keyed : keywordListBody? (keyed key.1 value) = none := by
  obtain ⟨c, rest, hKey, hWord⟩ := exists_cons key
  have hBracket : '[' ≠ c := by
    rintro rfl
    cases hWord
  rw [keywordListBody?, keyed, hKey, List.cons_append, List.cons_append,
    Text.stripPrefix?_eq_none rfl hBracket]
  rfl

end KeywordName

/-- A text with another character than those of names is not the name of a module. -/
theorem isModuleName_of_mem {text : List Char} {c : Char} (hTrimmed : Text.IsTrimmed text)
    (hMem : c ∈ text) (hc : startsWord c = false) (hDot : c ≠ '.') : isModuleName text = false := by
  rw [← Bool.not_eq_true]
  intro hModule
  rw [isModuleName, hTrimmed.trim_eq, Bool.and_eq_true, List.all_eq_true] at hModule
  rw [← Text.join_splitAt '.' text] at hMem
  rcases Text.mem_join hMem with hSeparator | ⟨part, hPart, hIn⟩
  · exact hDot (List.mem_singleton.mp hSeparator)
  · have hWord := List.all_eq_true.mp (Bool.and_eq_true_iff.mp (hModule.2 part hPart)).2 c hIn
    rw [hc] at hWord
    cases hWord

namespace KeywordList

variable {keywords : KeywordList}

theorem isSegment_texts (h : ∀ value ∈ keywords.values, IsSegment false value) :
    ∀ t ∈ keywords.texts, IsSegment false t :=
  List.forall_mem_map.mpr fun entry hEntry =>
    KeywordName.isSegment_keyed entry.1 (h _ (List.mem_map_of_mem hEntry))

theorem isSegment_arguments (h : ∀ value ∈ keywords.values, IsSegment false value) :
    ∀ t ∈ keywords.arguments, IsSegment false t := by
  rw [arguments]
  cases keywords.bracketed with
  | false => exact isSegment_texts h
  | true =>
    exact List.forall_mem_singleton.mpr
      (.enclosed (isSegment_texts h) (.inl rfl) (by decide) false)

theorem filterMap_texts (h : ∀ value ∈ keywords.values, IsSegment false value) :
    keywords.texts.filterMap parseKeyword? = keywords.keywords := by
  rw [texts, KeywordList.keywords, List.filterMap_map, ← List.filterMap_eq_map]
  exact List.filterMap_congr fun entry hEntry =>
    KeywordName.parseKeyword?_keyed entry.1 (h _ (List.mem_map_of_mem hEntry))

/-- What stands first among the arguments. -/
theorem head?_arguments {first : List Char} (h : first ∈ keywords.arguments.head?) :
    (∃ entry ∈ keywords.entries, first = keyed entry.1.1 entry.2) ∨ first.head? = some '[' := by
  rw [arguments] at h
  cases hBracketed : keywords.bracketed with
  | false =>
    rw [hBracketed, if_neg Bool.false_ne_true] at h
    obtain ⟨entry, hEntry, hFirst⟩ := List.mem_map.mp (List.mem_of_mem_head? h)
    exact .inl ⟨entry, hEntry, hFirst.symm⟩
  | true =>
    rw [hBracketed, if_pos rfl] at h
    cases h
    exact .inr rfl

theorem keywordArguments_arguments (h : ∀ value ∈ keywords.values, IsSegment false value) :
    keywordArguments keywords.arguments = keywords.keywords := by
  rw [arguments]
  cases keywords.bracketed with
  | false =>
    have hNoList : ∀ t ∈ keywords.texts, keywordListBody? t = none :=
      List.forall_mem_map.mpr fun entry _ => KeywordName.keywordListBody?_keyed entry.1
    rw [if_neg Bool.false_ne_true, keywordArguments_of_noList hNoList, filterMap_texts h]
  | true =>
    rw [if_pos rfl, ← filterMap_texts h]
    cases hEntries : keywords.entries with
    | nil =>
      rw [texts, hEntries]
      rfl
    | cons entry entries =>
      have hTexts : keywords.texts = keyed entry.1.1 entry.2 ::
          entries.map fun entry => keyed entry.1.1 entry.2 := by
        rw [texts, hEntries]
        rfl
      have hSegment : IsSegment true (Text.join ", ".toList keywords.texts) := by
        have hAll := isSegment_texts h
        rw [hTexts] at hAll ⊢
        exact .join hAll
      have hFirst : ∃ rest, Text.join ", ".toList keywords.texts = entry.1.1 ++ ':' :: ' ' :: rest := by
        rw [hTexts, keyed]
        cases entries with
        | nil => exact ⟨entry.2, by rw [List.map_nil, Text.join_singleton]; simp⟩
        | cons other entries =>
          rw [List.map_cons, Text.join_cons _ _ (List.cons_ne_nil _ _), List.append_assoc,
            List.append_assoc, List.append_assoc]
          exact ⟨_, rfl⟩
      obtain ⟨rest, hRest⟩ := hFirst
      have hKeyword :
          (parseKeyword? (Text.trim (Text.join ", ".toList keywords.texts))).isSome = true := by
        rw [hSegment.trimmed.trim_eq, hRest]
        exact KeywordName.isSome_parseKeyword? entry.1 rest
      have hOpen : Text.stripPrefix? "[" ('[' :: Text.join ", ".toList keywords.texts ++ [']']) =
          some (Text.join ", ".toList keywords.texts ++ [']']) := Text.stripPrefix?_append "[" _
      have hClose : Text.stripSuffix? "]" (Text.join ", ".toList keywords.texts ++ [']']) =
          some (Text.join ", ".toList keywords.texts) := Text.stripSuffix?_append "]" _
      have hBody : keywordListBody? ('[' :: Text.join ", ".toList keywords.texts ++ [']']) =
          some (Text.join ", ".toList keywords.texts) := by
        simp only [keywordListBody?, hOpen, Option.bind_eq_bind, Option.bind_some, hClose, hKeyword,
          if_true]
      rw [keywordArguments, List.flatMap_singleton, hBody]
      simp only [IsSegment.splitArguments_join (isSegment_texts h)]

theorem parseAtom?_head (h : ∀ value ∈ keywords.values, IsSegment false value) :
    keywords.arguments.head? >>= parseAtom? = none := by
  cases hHead : keywords.arguments.head? with
  | none => rfl
  | some first =>
    have hTrimmed := (isSegment_arguments h first (List.mem_of_mem_head? hHead)).trimmed
    obtain ⟨c, rest, hFirst, -⟩ := hTrimmed.first
    refine (show _ = parseAtom? first from rfl).trans ?_
    rw [hFirst] at hTrimmed ⊢
    refine parseAtom?_eq_none hTrimmed ?_
    rcases head?_arguments hHead with ⟨entry, -, hKeyed⟩ | hBracket
    · obtain ⟨d, more, hKey, hWord⟩ := KeywordName.exists_cons entry.1
      rw [hFirst, keyed, hKey] at hKeyed
      rw [(List.cons.inj hKeyed).1]
      rintro rfl
      cases hWord
    · rw [hFirst] at hBracket
      cases hBracket
      decide

end KeywordList

/-! ### What a call does -/

namespace ControllerCall

variable {call : ControllerCall}

theorem name_mem (call : ControllerCall) : call.name ∈ collectedCalls := by
  cases call <;> simp [name, collectedCalls]

theorem exists_cons_name (call : ControllerCall) :
    ∃ c rest, call.name.toList = c :: rest ∧ Text.isBlank c = false ∧ c ≠ 'd' := by
  have hAll : ∀ name ∈ collectedCalls,
      name.toList.head?.any (fun c => !Text.isBlank c && c != 'd') = true := by decide
  obtain ⟨c, hHead, hFirst⟩ := (Option.any_eq_true _ _).mp (hAll _ call.name_mem)
  obtain ⟨rest, hName⟩ := List.head?_eq_some_iff.mp hHead
  rw [Bool.and_eq_true, Bool.not_eq_true', bne_iff_ne] at hFirst
  exact ⟨c, rest, hName, hFirst⟩

theorem isWordRun_name (call : ControllerCall) : IsWordRun call.name.toList := by
  have hAll : ∀ name ∈ collectedCalls, IsWordRun name.toList := by decide
  exact hAll _ call.name_mem

theorem isSegment_arguments (h : ∀ value ∈ call.values, IsSegment false value) :
    ∀ t ∈ call.arguments, IsSegment false t := by
  cases call with
  | assign name value =>
    rw [arguments, List.forall_mem_cons]
    exact ⟨name.1.isArgument.toIsSegment, h⟩
  | assigns keywords => exact KeywordList.isSegment_arguments h
  | putView view =>
    exact List.forall_mem_singleton.mpr (IsArgument.module view.2).toIsSegment
  | putViews views => exact KeywordList.isSegment_arguments h
  | render template keywords =>
    rw [arguments, List.forall_mem_cons]
    exact ⟨template.1.isArgument.toIsSegment, KeywordList.isSegment_arguments h⟩

theorem isIdentifier_name (call : ControllerCall) : Markup.IsIdentifier call.name.toList := by
  have hAll : ∀ name ∈ collectedCalls, name.toList.head?.any Text.startsIdentifier = true ∧
      ∀ c ∈ name.toList, Text.isAsciiWord c = true := by decide
  obtain ⟨hFirst, hRest⟩ := hAll _ call.name_mem
  obtain ⟨c, hHead, hStart⟩ := (Option.any_eq_true _ _).mp hFirst
  obtain ⟨rest, hName⟩ := List.head?_eq_some_iff.mp hHead
  exact ⟨⟨c, rest, hName, hStart⟩, hRest⟩

end ControllerCall

/-- The line does what the content says. -/
structure Reads (text : List Char) (content : LineContent) : Prop where
  binding : binding? text = content.binding?
  assigns : assignCalls text = content.assigns.map fun (name, value) => (name, some value)
  view : chosenView? text = content.view?
  renders : renderCalls text = content.render?.toList

theorem Reads.of_opensNoCall {text : List Char} (h : OpensNoCall text) :
    Reads text { binding? := binding? text } := by
  have hNone {name : String} (hName : name ∈ collectedCalls) :
      callsOf name text = [] := callsOf_go_eq_nil_of_opensCall (h name hName)
  refine ⟨rfl, ?_, ?_, ?_⟩
  · rw [assignCalls, hNone (by decide)]
    rfl
  · rw [chosenView?, hNone (by decide)]
    rfl
  · rw [renderCalls, hNone (by decide)]
    rfl

/-- What may stand before a call in its line: nothing, or a text without calls and a blank. -/
def IsFront (front : List Char) : Prop :=
  front = [] ∨ ∃ before, OpensNoCall before ∧ front = before ++ [' ']

namespace IsFront

variable {front more : List Char}

theorem append (h : IsFront front) (hMore : IsFront more) : IsFront (front ++ more) := by
  rcases hMore with rfl | ⟨behind, hBehind, rfl⟩
  · rwa [List.append_nil]
  · rcases h with rfl | ⟨before, hBefore, rfl⟩
    · exact .inr ⟨behind, hBehind, rfl⟩
    · exact .inr ⟨before ++ ' ' :: behind, hBefore.append_cons (by decide) hBehind, by simp⟩

theorem callsOf_append (h : IsFront front) {name : String}
    (hName : name ∈ collectedCalls) (text : List Char) :
    ∃ previous : Option Char, previous.any Text.isWord = false ∧
      callsOf name (front ++ text) = callsOf.go name previous text := by
  rcases h with rfl | ⟨before, hBefore, rfl⟩
  · exact ⟨none, rfl, rfl⟩
  · refine ⟨some ' ', by decide, ?_⟩
    have hNone : opensCall.go name ((none : Option Char).any Text.isWord) before = false :=
      hBefore name hName
    rw [callsOf, List.append_assoc]
    exact callsOf_go_append_cons (OpensNoCall.isCallName hName) (by decide) hNone text

end IsFront

namespace ActionCall

variable {call : ActionCall} {front : List Char}

theorem behindConn_arguments (h : call.form.Suits call.call.arguments) :
    behindConn call.arguments = call.call.arguments := by
  rw [arguments]
  cases hForm : call.form with
  | direct connection =>
    rw [hForm] at h
    obtain ⟨-, hConn, hAtom⟩ := h
    simp [behindConn, hConn, hAtom]
  | piped begins =>
    rw [hForm] at h
    cases hArguments : call.call.arguments with
    | nil => rfl
    | cons first rest =>
      have hFirst := h first (by rw [hArguments]; rfl)
      simp only [behindConn]
      cases hConn : mentionsConn first with
      | false => rfl
      | true => simp [hFirst hConn]

theorem isFront_front (call : ActionCall) : IsFront call.front := by
  rw [front]
  cases call.form with
  | direct connection => exact .inl rfl
  | piped begins =>
    refine .inr ⟨_, ?_, rfl⟩
    cases begins <;> exact .of_not_mem (by decide)

namespace IsPlain

theorem isSegment_arguments (h : call.IsPlain) : ∀ t ∈ call.arguments, IsSegment false t := by
  have hOwn := ControllerCall.isSegment_arguments h.values
  have hForm := h.form
  rw [arguments]
  cases hCase : call.form with
  | direct connection =>
    rw [hCase] at hForm
    exact List.forall_mem_cons.mpr ⟨hForm.1, hOwn⟩
  | piped begins => exact hOwn

theorem isExpression_own (h : call.IsPlain) : IsExpression true call.own := by
  have hSegment : IsSegment true call.own :=
    .enclosed h.isSegment_arguments (.inr call.call.isWordRun_name) (by decide) true
  have hText : call.own =
      call.call.name.toList ++ ('(' :: Text.join ", ".toList call.arguments) ++ [')'] := by
    rw [own, List.append_assoc]
  exact .of_closing hSegment hText (by decide)

theorem isExpression (h : call.IsPlain) : IsExpression true call.text := by
  rw [text, ActionCall.front]
  cases call.form with
  | direct connection => exact h.isExpression_own
  | piped begins =>
    have hPipe : IsSegment true (if begins then "conn |>" else "|>").toList := by
      cases begins <;> decide
    rw [List.append_assoc]
    exact h.isExpression_own.behind hPipe

theorem callsOf_eq (h : call.IsPlain) (hFront : IsFront front) {name : String}
    (hName : name ∈ collectedCalls) :
    callsOf name (front ++ call.own) = if name = call.call.name then [call.arguments] else [] := by
  have hNone := OpensNoCall.join h.noCalls
  obtain ⟨previous, hPrevious, hCalls⟩ := hFront.callsOf_append hName call.own
  rw [hCalls, own]
  split
  · rename_i hSame
    rw [hSame] at hName ⊢
    rw [callsOf_go_call (OpensNoCall.isCallName hName) (IsSegment.balanced_join h.isSegment_arguments)
      (hNone _ hName) hPrevious, IsSegment.splitArguments_join h.isSegment_arguments]
  · rename_i hOther
    have hHeads : ∀ one ∈ collectedCalls, ∀ other ∈ collectedCalls,
        one ≠ other → one.toList.head? ≠ other.toList.head? := by decide
    refine callsOf_go_eq_nil_of_opensCall ?_
    rw [hPrevious]
    exact opensCall_go_call (OpensNoCall.isCallName call.call.name_mem) (OpensNoCall.isCallName hName)
      (hHeads _ hName _ call.call.name_mem hOther) (hNone _ hName)

theorem callsOf_own (h : call.IsPlain) (hFront : IsFront front) :
    callsOf call.call.name (front ++ call.own) = [call.arguments] :=
  (h.callsOf_eq hFront call.call.name_mem).trans (if_pos rfl)

theorem callsOf_other (h : call.IsPlain) (hFront : IsFront front) {name : String}
    (hName : name ∈ collectedCalls) (hOther : name ≠ call.call.name) :
    callsOf name (front ++ call.own) = [] := (h.callsOf_eq hFront hName).trans (if_neg hOther)

theorem assignCalls_other (h : call.IsPlain) (hFront : IsFront front)
    (hOther : "assign" ≠ call.call.name) : assignCalls (front ++ call.own) = [] := by
  rw [assignCalls, h.callsOf_other hFront (by decide) hOther]
  rfl

theorem chosenView?_other (h : call.IsPlain) (hFront : IsFront front)
    (hOther : "put_view" ≠ call.call.name) : chosenView? (front ++ call.own) = none := by
  rw [chosenView?, h.callsOf_other hFront (by decide) hOther]
  rfl

theorem renderCalls_other (h : call.IsPlain) (hFront : IsFront front)
    (hOther : "render" ≠ call.call.name) : renderCalls (front ++ call.own) = [] := by
  rw [renderCalls, h.callsOf_other hFront (by decide) hOther]
  rfl

/-- A call does what it says, whatever stands before it. -/
theorem reads (h : call.IsPlain) (hFront : IsFront front) :
    Reads (front ++ call.own)
      { call.call.content with binding? := binding? (front ++ call.own) } := by
  have hBehind := behindConn_arguments h.form
  have hOwn := h.callsOf_own hFront
  have hAssign := h.assignCalls_other hFront
  have hView := h.chosenView?_other hFront
  have hRender := h.renderCalls_other hFront
  have hValues := h.values
  generalize front ++ call.own = text at hOwn hAssign hView hRender ⊢
  generalize call.arguments = arguments at hBehind hOwn
  generalize call.call = own at hBehind hOwn hAssign hView hRender hValues ⊢
  cases own with
  | assign name value =>
    have hAtom : parseAtom? name.1.text = some (name.1.atom?.get name.2) :=
      name.1.parseAtom?_text.trans (Option.some_get name.2).symm
    have hValue : Text.trim value = value :=
      (hValues value (List.mem_singleton.mpr rfl)).trimmed.trim_eq
    refine ⟨rfl, ?_, hView (show "put_view" ≠ "assign" by decide),
      hRender (show "render" ≠ "assign" by decide)⟩
    rw [assignCalls, show callsOf "assign" text = [arguments] from hOwn, List.flatMap_singleton,
      hBehind]
    simp only [ControllerCall.arguments, List.head?_cons, Option.bind_eq_bind, Option.bind_some, hAtom]
    simp [ControllerCall.content, hValue]
  | assigns keywords =>
    refine ⟨rfl, ?_, hView (show "put_view" ≠ "assign" by decide),
      hRender (show "render" ≠ "assign" by decide)⟩
    rw [assignCalls, show callsOf "assign" text = [arguments] from hOwn, List.flatMap_singleton,
      hBehind]
    simp only [ControllerCall.arguments, KeywordList.parseAtom?_head hValues,
      KeywordList.keywordArguments_arguments hValues]
    rfl
  | putView view =>
    have hModule : isModuleName view.1 = true := isModuleName_module view.2
    refine ⟨rfl, hAssign (show "assign" ≠ "put_view" by decide), ?_,
      hRender (show "render" ≠ "put_view" by decide)⟩
    rw [chosenView?, show callsOf "put_view" text = [arguments] from hOwn, List.findSome?_singleton,
      hBehind]
    simp [ControllerCall.arguments, hModule, view.2.isTrimmed.trim_eq, ControllerCall.content]
  | putViews views =>
    refine ⟨rfl, hAssign (show "assign" ≠ "put_view" by decide), ?_,
      hRender (show "render" ≠ "put_view" by decide)⟩
    rw [chosenView?, show callsOf "put_view" text = [arguments] from hOwn, List.findSome?_singleton,
      hBehind]
    have hKeywords := KeywordList.keywordArguments_arguments hValues
    cases views with
    | nil => rfl
    | cons entry views =>
      have hEntry : IsSegment false entry.2 := hValues entry.2 List.mem_cons_self
      have hColon : ':' ∈ keyed entry.1.1 entry.2 := by simp [keyed]
      have hNoModule : isModuleName (keyed entry.1.1 entry.2) = false :=
        isModuleName_of_mem (KeywordName.isSegment_keyed entry.1 hEntry).trimmed hColon (by decide)
          (by decide)
      have hFirst : (ControllerCall.putViews (entry :: views)).arguments.head? =
          some (keyed entry.1.1 entry.2) := rfl
      have hKeyword := KeywordName.parseKeyword?_keyed entry.1 hEntry
      simp only [hFirst, Option.bind_some, hNoModule, hKeyword, Option.isSome_some, if_true,
        if_neg Bool.false_ne_true]
      exact congrArg (fun keywords => (keyword? keywords "html").filter isModuleName) hKeywords
  | render template keywords =>
    have hName : parseName? template.1.text = some (template.1.name?.get template.2) :=
      template.1.parseName?_text.trans (Option.some_get template.2).symm
    refine ⟨rfl, hAssign (show "assign" ≠ "render" by decide),
      hView (show "put_view" ≠ "render" by decide), ?_⟩
    rw [renderCalls, show callsOf "render" text = [arguments] from hOwn]
    simp only [List.filterMap_cons, List.filterMap_nil, hBehind, ControllerCall.arguments, hName,
      Option.map_some, KeywordList.keywordArguments_arguments hValues]
    rfl

end IsPlain

end ActionCall

/-! ### Beginnings of lines -/

section

variable {c : Char} {rest : List Char}

/-- A line that does not begin with the first letter of `def` begins no definition. -/
theorem noDefinition_of_ne (hBlank : Text.isBlank c = false) (hc : c ≠ 'd') :
    definitionHead? (c :: rest) = none ∧ moduleOpening? (c :: rest) = none := by
  have hStart : Text.trimStart (c :: rest) = c :: rest := by
    rw [Text.trimStart, List.dropWhile_cons_of_neg (by simp [hBlank])]
  constructor
  · rw [definitionHead?, hStart, Text.stripPrefix?_eq_none rfl (Ne.symm hc)]
    rfl
  · rw [moduleOpening?, hStart, Text.stripPrefix?_eq_none rfl (Ne.symm hc)]
    rfl

theorem moduleOpening?_behind_blanks {blanks : List Char}
    (hBlanks : ∀ c ∈ blanks, Text.isBlank c = true) (text : List Char) :
    moduleOpening? (blanks ++ text) = moduleOpening? text := by
  rw [moduleOpening?, moduleOpening?, Text.trimStart, List.dropWhile_append_of_pos hBlanks,
    Text.trimStart]

/-- A word that begins with another one goes on in what follows that one. -/
theorem exists_of_stripPrefix?_word {word : List Char} (hWord : ∀ c ∈ word, continuesWord c = true)
    {other : String} (hOther : ' ' ∉ other.toList) {behind : List Char}
    (h : Text.stripPrefix? other (word ++ ' ' :: rest) = some behind) :
    ∃ more, (∀ c ∈ more, continuesWord c = true) ∧ behind = more ++ ' ' :: rest := by
  rw [Text.stripPrefix?, List.isPrefixOf?_eq_some_iff_append_eq] at h
  rcases List.append_eq_append_iff.mp h with ⟨more, hMore, hBehind⟩ | ⟨more, hMore, hBehind⟩
  · exact ⟨more, fun c hc => hWord c (hMore ▸ List.mem_append_right _ hc), hBehind⟩
  · cases more with
    | nil => exact ⟨[], List.forall_mem_nil _, hBehind.symm⟩
    | cons c more =>
      cases hBehind
      exact absurd (by rw [hMore]; simp) hOther

theorem afterBlanks?_equals {word : List Char} (hWord : ∀ c ∈ word, continuesWord c = true)
    (rest : List Char) : afterBlanks? (word ++ ' ' :: '=' :: rest) = none ∨
      afterBlanks? (word ++ ' ' :: '=' :: rest) = some ('=' :: rest) := by
  cases word with
  | nil => exact .inr rfl
  | cons c word =>
    refine .inl ?_
    rw [List.cons_append, afterBlanks?,
      not_isBlank_of_continuesWord (hWord c List.mem_cons_self), if_neg Bool.false_ne_true]

end

section

variable (target : Markup.Identifier) {value : List Char}

theorem isWordRun_variable : IsWordRun target.1 := by
  obtain ⟨c, rest, hName, hFirst⟩ := target.2.first
  exact ⟨⟨c, rest, hName, startsWord_of_isAsciiWord (isAsciiWord_of_startsIdentifier hFirst)⟩,
    fun d hd => continuesWord_of_isAsciiWord (target.2.all d hd)⟩

theorem bindingText_eq (value : List Char) :
    bindingText target value = target.1 ++ ' ' :: '=' :: ' ' :: value := by
  simp [bindingText]

theorem binding?_bindingText (h : Text.IsTrimmed value) :
    binding? (bindingText target value) = some (target.1, value) := by
  have hIdentifier : identifier? (target.1 ++ ' ' :: '=' :: ' ' :: value) = some target.1 :=
    Markup.identifier?_append target (by rintro c ⟨⟩; decide)
  have hBlank : ∀ c ∈ [' '], Text.isBlank c = true := by decide
  have hStart : Text.trimStart (' ' :: '=' :: ' ' :: value) = '=' :: ' ' :: value := rfl
  have hEquals : Text.stripPrefix? "=" ('=' :: ' ' :: value) = some (' ' :: value) :=
    Text.stripPrefix?_append "=" (' ' :: value)
  have hTrim : Text.trim (' ' :: value) = value := h.trim_append hBlank
  have hSpace : (' ' == '=') = false := rfl
  rw [bindingText_eq, binding?, hIdentifier]
  simp only [Option.bind_eq_bind, Option.bind_some, List.drop_left, hStart, hEquals, hSpace, hTrim]
  rfl

/-- A variable is bound, even if it is called `def` or `defmodule`. -/
theorem noDefinition_bindingText (value : List Char) :
    definitionHead? (bindingText target value) = none ∧
      moduleOpening? (bindingText target value) = none := by
  have hWord := isWordRun_variable target
  have hStart : Text.trimStart (target.1 ++ ' ' :: '=' :: ' ' :: value) =
      target.1 ++ ' ' :: '=' :: ' ' :: value :=
    hWord.trimStart_append (List.forall_mem_nil _) _
  rw [bindingText_eq]
  constructor
  · rw [definitionHead?, hStart]
    cases hDef : Text.stripPrefix? "def" (target.1 ++ ' ' :: '=' :: ' ' :: value) with
    | none => rfl
    | some behind =>
      obtain ⟨more, hMore, rfl⟩ := exists_of_stripPrefix?_word hWord.all (by decide) hDef
      have hBehind : ∃ word, (∀ c ∈ word, continuesWord c = true) ∧
          (if (more ++ ' ' :: '=' :: ' ' :: value).head? == some 'p' then
            (more ++ ' ' :: '=' :: ' ' :: value).tail else more ++ ' ' :: '=' :: ' ' :: value) =
          word ++ ' ' :: '=' :: ' ' :: value := by
        cases more with
        | nil => exact ⟨[], List.forall_mem_nil _, rfl⟩
        | cons c more =>
          rw [List.cons_append]
          split
          · exact ⟨more, fun d hd => hMore d (List.mem_cons_of_mem c hd), rfl⟩
          · exact ⟨c :: more, hMore, rfl⟩
      obtain ⟨word, hRest, hForm⟩ := hBehind
      simp only [Option.bind_eq_bind, Option.bind_some, hForm]
      rcases afterBlanks?_equals hRest (' ' :: value) with hNone | hSome
      · rw [hNone]
        rfl
      · rw [hSome]
        rfl
  · rw [moduleOpening?, hStart]
    cases hModule : Text.stripPrefix? "defmodule" (target.1 ++ ' ' :: '=' :: ' ' :: value) with
    | none => rfl
    | some behind =>
      obtain ⟨more, hMore, rfl⟩ := exists_of_stripPrefix?_word hWord.all (by decide) hModule
      simp only [Option.bind_eq_bind, Option.bind_some]
      rcases afterBlanks?_equals hMore (' ' :: value) with hNone | hSome
      · rw [hNone]
        rfl
      · rw [hSome]
        rfl

/-- What begins with a name that no equals sign follows binds nothing. -/
theorem binding?_eq_none {rest : List Char} (hRest : ∀ c ∈ rest.head?, Text.isAsciiWord c = false)
    (hEquals : Text.stripPrefix? "=" (Text.trimStart rest) = none) :
    binding? (target.1 ++ rest) = none := by
  rw [binding?, Markup.identifier?_append target hRest]
  simp only [Option.bind_eq_bind, Option.bind_some, List.drop_left, hEquals]
  rfl

theorem isExpression_bindingText (h : IsExpression true value) :
    IsExpression true (bindingText target value) := by
  have hEquals : IsSegment true ['='] := by decide
  have hForm : bindingText target value = (target.1 ++ ' ' :: ['=']) ++ ' ' :: value := by
    simp [bindingText]
  rw [hForm]
  exact h.behind ((IsSegment.word (isWordRun_variable target)).behind hEquals)

theorem isFront_binding : IsFront (target.1 ++ " = ".toList) := by
  have hParen : '(' ∉ target.1 ++ " =".toList := by
    rw [List.mem_append, not_or]
    exact ⟨(isWordRun_variable target).not_mem (by decide), by decide⟩
  exact .inr ⟨target.1 ++ " =".toList, .of_not_mem hParen, by simp⟩

theorem opensNoCall_bindingText (h : OpensNoCall value) : OpensNoCall (bindingText target value) := by
  have hParen : '(' ∉ target.1 ++ " =".toList := by
    rw [List.mem_append, not_or]
    exact ⟨(isWordRun_variable target).not_mem (by decide), by decide⟩
  have hForm : bindingText target value = (target.1 ++ " =".toList) ++ ' ' :: value := by
    simp [bindingText]
  rw [hForm]
  exact (OpensNoCall.of_not_mem hParen).append_cons (by decide) h

end

namespace ActionCall

variable {call : ActionCall}

theorem exists_cons_text (call : ActionCall) :
    ∃ c rest, call.text = c :: rest ∧ Text.isBlank c = false ∧ c ≠ 'd' := by
  rw [text, front]
  cases call.form with
  | direct connection =>
    obtain ⟨c, rest, hName, hFirst⟩ := call.call.exists_cons_name
    exact ⟨c, _, by rw [own, hName]; rfl, hFirst⟩
  | piped begins =>
    cases begins with
    | false => exact ⟨'|', _, rfl, by decide, by decide⟩
    | true => exact ⟨'c', _, rfl, by decide, by decide⟩

theorem binding?_text (call : ActionCall) : binding? call.text = none := by
  rw [text, front]
  cases call.form with
  | direct connection =>
    refine binding?_eq_none ⟨_, call.call.isIdentifier_name⟩ ?_ rfl
    rintro c ⟨⟩
    decide
  | piped begins =>
    cases begins with
    | false => rfl
    | true =>
      have hConn : Markup.IsIdentifier "conn".toList := ⟨⟨'c', "onn".toList, rfl, rfl⟩, by decide⟩
      refine binding?_eq_none ⟨_, hConn⟩ (show ∀ c ∈ (" |> ".toList ++ call.own).head?, _ from ?_) rfl
      rintro c ⟨⟩
      decide

end ActionCall

/-! ### Lines of functions -/

/-- The line is read as what it does. It begins no definition and no module. -/
structure IsActionLine (text : List Char) (content : LineContent) : Prop where
  isExpression : IsExpression true text
  level : IsLevelLine text
  noDefinition : definitionHead? text = none
  noModule : moduleOpening? text = none
  reads : Reads text content

theorem IsIdleLine.isActionLine {text : List Char} (h : IsIdleLine text) :
    IsActionLine text { binding? := binding? text } :=
  ⟨h.isExpression, h.level, h.noDefinition, h.noModule, .of_opensNoCall h.noCalls⟩

theorem ActionLine.IsPlain.isActionLine {line : ActionLine} (h : line.IsPlain)
    (hLine : line ≠ .blank) : IsActionLine line.text line.content := by
  cases line with
  | blank => exact absurd rfl hLine
  | binding target value =>
    obtain ⟨hValue, hCalls, hLevel⟩ := h
    obtain ⟨hDefinition, hModule⟩ := noDefinition_bindingText target value
    have hReads := Reads.of_opensNoCall (opensNoCall_bindingText target hCalls)
    rw [binding?_bindingText target hValue.trimmed] at hReads
    exact ⟨isExpression_bindingText target hValue, hLevel, hDefinition, hModule, hReads⟩
  | call target? call =>
    obtain ⟨hCall, hLevel⟩ := h
    cases target? with
    | none =>
      obtain ⟨c, rest, hFirst, hBlank, hNot⟩ := call.exists_cons_text
      have hLine : (ActionLine.call none call).text = c :: rest := hFirst
      obtain ⟨hDefinition, hModule⟩ := @noDefinition_of_ne c rest hBlank hNot
      have hReads := hCall.reads call.isFront_front
      rw [show binding? (call.front ++ call.own) = none from call.binding?_text] at hReads
      exact ⟨hCall.isExpression, hLevel, hLine ▸ hDefinition, hLine ▸ hModule, hReads⟩
    | some target =>
      obtain ⟨hDefinition, hModule⟩ := noDefinition_bindingText target call.text
      have hForm : bindingText target call.text =
          (target.1 ++ " = ".toList ++ call.front) ++ call.own := by
        simp [bindingText, ActionCall.text]
      have hReads := hCall.reads ((isFront_binding target).append call.isFront_front)
      rw [← hForm, binding?_bindingText target hCall.isExpression.trimmed] at hReads
      exact ⟨isExpression_bindingText target hCall.isExpression, hLevel, hDefinition, hModule, hReads⟩
  | other text =>
    obtain ⟨hIdle, hBinding⟩ := h
    have hLine := hIdle.isActionLine
    rwa [hBinding] at hLine

namespace ControllerFunction

variable {function : ControllerFunction} {rest : List Char}

theorem actionName?_head (h : ∀ argument ∈ function.arguments, IsArgument argument)
    (rest : List Char) : actionName? (function.clause.head ++ rest) =
      if function.isAction then some function.name.text else none := by
  have hArguments : (DefinitionHead.mk function.clause.isPrivate function.clause.name.text
      (Text.join ", ".toList function.clause.arguments ++ ')' :: rest)).arguments? =
        some function.arguments := by
    have hClosed := (isInner_join h).balanced.beforeClosing?_eq rest
    refine (congrArg (Option.map splitArguments) hClosed).trans ?_
    exact congrArg some (splitArguments_join_eq h)
  rw [actionName?, FunctionClause.definitionHead?_head]
  simp only [Option.bind_eq_bind, Option.bind_some, hArguments]
  rw [isAction, show function.clause.isPrivate = function.isPrivate from rfl]
  cases function.isPrivate with
  | true => rfl
  | false => cases function.arguments.head?.any mentionsConn <;> rfl

theorem binding?_head (function : ControllerFunction) (rest : List Char) :
    binding? (function.clause.head ++ rest) = none := by
  have hKeyword : Markup.IsIdentifier function.clause.keyword.toList := by
    rw [FunctionClause.keyword]
    cases function.clause.isPrivate <;> exact ⟨⟨_, _, rfl, rfl⟩, by decide⟩
  obtain ⟨c, more, hName, hStart⟩ := function.clause.name.isWordRun.first
  have hNot : c ≠ '=' := ne_of_startsWord hStart (by decide)
  rw [FunctionClause.head_eq, List.append_assoc]
  refine binding?_eq_none ⟨_, hKeyword⟩ (by rintro c ⟨⟩; decide) ?_
  have hBlank : Text.isBlank c = false :=
    not_isBlank_of_continuesWord (continuesWord_of_startsWord hStart)
  have hTrim : ∀ tail, Text.trimStart (' ' :: c :: tail) = c :: tail := by
    intro tail
    rw [Text.trimStart, List.dropWhile_cons_of_pos (by decide),
      List.dropWhile_cons_of_neg (by simp [hBlank])]
  rw [hName]
  exact (congrArg _ (hTrim _)).trans (Text.stripPrefix?_eq_none rfl (Ne.symm hNot))

theorem reads_do (h : function.IsPlain) : Reads (function.clause.head ++ " do".toList) {} := by
  have hDo : OpensNoCall "do".toList := .of_not_mem (by decide)
  have hReads := Reads.of_opensNoCall (h.noCalls.append_cons (show IsSeparator ' ' by decide) hDo)
  rwa [show function.clause.head ++ ' ' :: "do".toList = function.clause.head ++ " do".toList from rfl,
    function.binding?_head] at hReads

/-- What `do:` follows does what it does in a line of its own. -/
theorem isFront_inline (h : function.IsPlain) : IsFront (function.clause.head ++ ", do: ".toList) := by
  have hKey : OpensNoCall " do:".toList := .of_not_mem (by decide)
  refine .inr ⟨function.clause.head ++ ", do:".toList,
    h.noCalls.append_cons (show IsSeparator ',' by decide) hKey, by simp⟩

theorem reads_inline_call (h : function.IsPlain) {call : ActionCall} (hCall : call.IsPlain) :
    Reads (function.clause.head ++ (", do: ".toList ++ call.text)) call.call.content := by
  have hForm : function.clause.head ++ (", do: ".toList ++ call.text) =
      (function.clause.head ++ ", do: ".toList ++ call.front) ++ call.own := by
    simp [ActionCall.text]
  have hReads := hCall.reads ((isFront_inline h).append call.isFront_front)
  have hNone : call.call.content.binding? = none := by cases call.call <;> rfl
  rw [← hForm, function.binding?_head, ← hNone] at hReads
  exact hReads

theorem reads_inline_other (h : function.IsPlain) {text : List Char} (hText : OpensNoCall text) :
    Reads (function.clause.head ++ (", do: ".toList ++ text)) {} := by
  have hKey : OpensNoCall " do:".toList := .of_not_mem (by decide)
  have hFront : OpensNoCall (function.clause.head ++ ", do:".toList) :=
    h.noCalls.append_cons (show IsSeparator ',' by decide) hKey
  have hForm : function.clause.head ++ (", do: ".toList ++ text) =
      (function.clause.head ++ ", do:".toList) ++ ' ' :: text := by simp
  have hReads := Reads.of_opensNoCall (hFront.append_cons (show IsSeparator ' ' by decide) hText)
  rwa [← hForm, function.binding?_head] at hReads

end ControllerFunction

end PhoenixLens.Elixir
