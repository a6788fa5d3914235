import PhoenixLens.Proofs.Elixir.Expression

/-!
# Phrases put together

Words, atoms and modules are phrases; lists, calls and keywords are made of phrases, and the
arguments of a call are one phrase with commas between them.
-/

namespace PhoenixLens.Elixir

theorem EndsInDo.eq_of_all {text : List Char} (h : EndsInDo text)
    (hAll : ∀ c ∈ text, c ≠ ' ' ∧ c ≠ ')' ∧ c ≠ ',') : text = ['d', 'o'] := by
  obtain ⟨before, rfl, hLast⟩ := h
  induction before using List.reverseRecOn with
  | nil => rfl
  | append_singleton before c _ =>
    obtain ⟨hSpace, hClosing, hComma⟩ := hAll c (by simp)
    rcases hLast c (by simp) with rfl | rfl | rfl
    · exact absurd rfl hSpace
    · exact absurd rfl hClosing
    · exact absurd rfl hComma

theorem IsPhrase.of_piece {commas : Bool} {text code : List Char} (hPiece : IsPiece text code)
    (hEnd : IsEnd text code) (hBalanced : IsBalanced commas .code 0 text)
    (hTrimmed : Text.IsTrimmed text) : IsPhrase commas text := by
  have hSegment : IsSegment commas text := ⟨hBalanced, hPiece.unbroken, hTrimmed⟩
  obtain ⟨before, codeBefore, c, hText, hCode, hBlank, hComma, hPipe, hQuote⟩ := hEnd.last
  refine ⟨⟨hSegment, ?_, ?_, ?_⟩, hPiece.codeOf_eq ▸ hPiece.quiet⟩
  · refine needsContinuation_eq_false (hPiece.codeOf_eq.trans hCode) hBlank hComma hPipe ?_
    exact Int.le_of_eq hSegment.bracketDepth_eq
  · rw [hSegment.opensDoBlock_eq_false_iff, hPiece.codeOf_eq]
    exact hEnd.code_noDo []
  · intro delimiter hDelimiter
    simp only [heredocDelimiters, List.mem_cons, List.not_mem_nil, or_false] at hDelimiter
    rcases hDelimiter with rfl | rfl
    · rintro ⟨front, hFront⟩
      refine hEnd.noHeredoc [] ' ' (by decide) (' ' :: front) ?_
      rw [← hFront]
      rfl
    · rintro ⟨front, hFront⟩
      have hForm : front ++ ['\'', '\'', '\''] = (front ++ ['\'', '\'']) ++ ['\''] := by simp
      rw [hText, hForm] at hFront
      exact hQuote (List.cons.inj (List.append_inj_right' hFront rfl)).1.symm

/-! ### Words -/

theorem IsBalanced.of_word {commas : Bool} {word : List Char} (h : IsWordRun word) :
    IsBalanced commas .code 0 word := by
  refine .of_plain (fun c hc => ?_) fun hComma => absurd hComma (h.not_mem (by decide))
  exact ⟨isPlain_of_continuesWord (h.all c hc), bracketStep_of_continuesWord (h.all c hc)⟩

theorem IsSegment.word {commas : Bool} {word : List Char} (h : IsWordRun word) :
    IsSegment commas word :=
  ⟨.of_word h, h.not_mem (by decide), h.isTrimmed⟩

theorem codeOf_word {word : List Char} (h : IsWordRun word) : codeOf word = word := by
  have hCode := codeOf_go_append (fun c hc => isPlain_of_continuesWord (h.all c hc)) []
  rwa [List.append_nil, show codeOf.go .code [] = [] from rfl, List.append_nil] at hCode

theorem IsPhrase.word {commas : Bool} {word : List Char} (h : IsWordRun word)
    (hIdle : IsIdle word) : IsPhrase commas word := by
  have hSegment : IsSegment commas word := .word h
  have hCode := codeOf_word h
  have hSuffix {piece : List Char} {c : Char} (hMem : c ∈ piece) (hc : continuesWord c = false) :
      ¬piece <:+ word := fun hSuffix => h.not_mem hc (hSuffix.mem hMem)
  refine ⟨⟨hSegment, ?_, ?_, ?_⟩, ?_⟩
  · rw [hSegment.needsContinuation_eq_false_iff, hCode]
    exact ⟨hSuffix List.mem_cons_self (by decide), hSuffix List.mem_cons_self (by decide)⟩
  · rw [hSegment.opensDoBlock_eq_false_iff, hCode]
    intro hDo
    have hNot {d : Char} (hd : continuesWord d = false) : ∀ c ∈ word, c ≠ d := by
      rintro c hc rfl
      exact h.not_mem hd hc
    exact hIdle.1 (hDo.eq_of_all fun c hc =>
      ⟨hNot (by decide) c hc, hNot (by decide) c hc, hNot (by decide) c hc⟩)
  · simp only [heredocDelimiters, List.forall_mem_cons]
    exact ⟨hSuffix List.mem_cons_self (by decide), hSuffix List.mem_cons_self (by decide),
      List.forall_mem_nil _⟩
  · rw [hCode]
    exact .word h hIdle

theorem IsArgument.atom {name : List Char} (h : IsAtomName name) : IsArgument (':' :: name) := by
  have hWell : (RouterValue.atom name).WellFormed := h
  refine .of_piece (RouterValue.isPiece hWell) (RouterValue.isEnd hWell) ?_ h.isTrimmed
  refine .of_plain (fun c hc => ⟨(h.isPlain c hc).1, h.bracketStep c hc⟩) fun hComma => ?_
  exact absurd (List.mem_of_ne_of_mem (by decide) hComma) (h.not_mem (by decide) (by decide))

theorem IsArgument.module {name : List Char} (h : IsModule name) : IsArgument name := by
  have hWell : (RouterValue.module name).WellFormed := h
  refine .of_piece (RouterValue.isPiece hWell) (RouterValue.isEnd hWell) ?_ h.isTrimmed
  refine .of_plain (fun c hc => ?_) fun hComma => absurd hComma (h.not_mem (by decide) (by decide))
  rcases h.all c hc with hWord | rfl
  · have hContinues := continuesWord_of_startsWord hWord
    exact ⟨isPlain_of_continuesWord hContinues, bracketStep_of_continuesWord hContinues⟩
  · decide

/-! ### Brackets -/

/-- What ends in a closing bracket is finished. -/
theorem IsExpression.of_closing {commas : Bool} {text front : List Char} {c : Char}
    (h : IsSegment commas text) (hText : text = front ++ [c]) (hClosing : isClosing c = true) :
    IsExpression commas text := by
  obtain ⟨before, code, d, hOwn, hCode, -⟩ := h.last
  obtain rfl : d = c := (List.cons.inj (List.append_inj_right' (hOwn.symm.trans hText) rfl)).1
  have hNot {e : Char} (he : isClosing e = false) : d ≠ e := by
    rintro rfl
    rw [hClosing] at he
    cases he
  have hSuffix {piece more : List Char} {e : Char} (he : isClosing e = false) :
      ¬piece ++ [e] <:+ more ++ [d] := by
    rintro ⟨front, hFront⟩
    rw [← List.append_assoc] at hFront
    exact hNot he (List.cons.inj (List.append_inj_right' hFront rfl)).1.symm
  refine ⟨h, ?_, ?_, ?_⟩
  · rw [h.needsContinuation_eq_false_iff, hCode]
    exact ⟨@hSuffix [] _ _ (by decide), @hSuffix ['|'] _ _ (by decide)⟩
  · rw [h.opensDoBlock_eq_false_iff, hCode]
    have hNo := not_endsInDo_of_last (List.nil_append [d]).symm (hNot (by decide)) code
    exact hNo
  · rw [hOwn]
    simp only [heredocDelimiters, List.forall_mem_cons]
    exact ⟨@hSuffix ['"', '"'] _ _ (by decide), @hSuffix ['\'', '\''] _ _ (by decide),
      List.forall_mem_nil _⟩

/-- What may stand between brackets. -/
structure IsInner (text : List Char) : Prop where
  balanced : IsBalanced true .code 0 text
  unbroken : '\n' ∉ text
  quiet : IsQuiet (codeOf text)

theorem IsInner.nil : IsInner [] := ⟨.nil, List.not_mem_nil, .nil⟩

theorem IsPhrase.isInner {text : List Char} (h : IsPhrase true text) : IsInner text :=
  ⟨h.balanced, h.unbroken, h.quiet⟩

/-- Brackets, perhaps behind the name of what is called. -/
theorem IsPhrase.enclosed {commas : Bool} {front inner : List Char} {opening closing : Char}
    (hFront : front = [] ∨ IsWordRun front ∧ IsIdle front) (hOpening : isOpening opening = true)
    (hClosing : isClosing closing = true) (h : IsInner inner) :
    IsPhrase commas (front ++ (opening :: inner ++ [closing])) := by
  have hBrackets : IsBalanced commas .code 0 (opening :: inner ++ [closing]) :=
    .brackets hOpening hClosing h.balanced
  have hOpen : isPlain opening = true ∧ continuesWord opening = false ∧ opening ≠ '\n' ∧
      Text.isBlank opening = false := by
    simp only [isOpening, Bool.or_eq_true, beq_iff_eq] at hOpening
    rcases hOpening with (rfl | rfl) | rfl <;> decide
  have hClose : isPlain closing = true ∧ continuesWord closing = false ∧ closing ≠ '\n' ∧
      Text.isBlank closing = false := by
    simp only [isClosing, Bool.or_eq_true, beq_iff_eq] at hClosing
    rcases hClosing with (rfl | rfl) | rfl <;> decide
  obtain ⟨hOpenPlain, hOpenApart, hOpenLine, hOpenBlank⟩ := hOpen
  obtain ⟨hClosePlain, hCloseApart, hCloseLine, hCloseBlank⟩ := hClose
  have hUnbroken : '\n' ∉ opening :: inner ++ [closing] := by
    simp [hOpenLine.symm, h.unbroken, hCloseLine.symm]
  have hTrimmed : Text.IsTrimmed (opening :: inner ++ [closing]) :=
    (Text.IsTrimmed.singleton hOpenBlank).append inner (.singleton hCloseBlank)
  have hCode : codeOf (opening :: inner ++ [closing]) = opening :: codeOf inner ++ [closing] := by
    have hOne : opening :: inner ++ [closing] = [opening] ++ (inner ++ [closing]) := by simp
    rw [hOne, codeOf, codeOf_go_append (by simpa using hOpenPlain), h.balanced.codeOf_go_eq,
      ← List.append_nil [closing], codeOf_go_append (by simpa using hClosePlain)]
    rfl
  have hQuiet : IsQuiet (opening :: codeOf inner ++ [closing]) := by
    refine .cons (not_startsWord_of_not_continuesWord hOpenApart) (h.quiet.append (.of_all ?_) ?_)
    · simpa using not_startsWord_of_not_continuesWord hCloseApart
    · simpa [IsApart] using hCloseApart
  have hEnd : front ++ (opening :: inner ++ [closing]) = front ++ opening :: inner ++ [closing] := by
    simp
  rcases hFront with rfl | ⟨hWord, hIdle⟩
  · refine ⟨.of_closing ⟨hBrackets, hUnbroken, hTrimmed⟩ hEnd hClosing, ?_⟩
    rw [List.nil_append, hCode]
    exact hQuiet
  · have hWordCode : codeOf (front ++ (opening :: inner ++ [closing])) =
        front ++ (opening :: codeOf inner ++ [closing]) := by
      rw [codeOf, codeOf_go_append fun c hc => isPlain_of_continuesWord (hWord.all c hc)]
      exact congrArg _ hCode
    refine ⟨.of_closing ⟨(IsBalanced.of_word hWord).code_append hBrackets, ?_, ?_⟩ hEnd hClosing, ?_⟩
    · rw [List.mem_append, not_or]
      exact ⟨hWord.not_mem (by decide), hUnbroken⟩
    · have hBoth := hWord.isTrimmed.append [] hTrimmed
      rwa [List.append_nil] at hBoth
    · rw [hWordCode]
      refine (IsQuiet.word hWord hIdle).append hQuiet ?_
      intro c hc
      cases hc
      exact hOpenApart

/-! ### Arguments -/

theorem IsPhrase.join {t : List Char} {texts : List (List Char)} (h : ∀ u ∈ t :: texts, IsArgument u) :
    IsPhrase true (Text.join ", ".toList (t :: texts)) := by
  induction texts generalizing t with
  | nil =>
    rw [Text.join_singleton]
    exact (h t List.mem_cons_self).mono
  | cons u texts ih =>
    have hRest := ih fun v hv => h v (List.mem_cons_of_mem _ hv)
    have hFirst : IsPhrase true t := (h t List.mem_cons_self).mono
    have hComma : ∀ c ∈ [','], isPlain c = true ∧ bracketStep c = 0 := by decide
    have hFront : IsSegment true (t ++ [',']) := by
      refine ⟨hFirst.balanced.code_append (.of_plain hComma fun _ => rfl), ?_, ?_⟩
      · simp [hFirst.unbroken]
      · have hBoth := hFirst.trimmed.append [] (.singleton (show Text.isBlank ',' = false by decide))
        rwa [List.append_nil] at hBoth
    have hCode : codeOf (t ++ [',']) = codeOf t ++ [','] := hFirst.balanced.codeOf_go_eq [',']
    have hForm : Text.join ", ".toList (t :: u :: texts) =
        (t ++ [',']) ++ ' ' :: Text.join ", ".toList (u :: texts) := by
      rw [Text.join_cons _ _ (List.cons_ne_nil _ _)]
      simp
    rw [hForm]
    refine hRest.behind hFront ?_
    rw [hCode]
    exact hFirst.quiet.append (.of_all (by decide)) (by simp [IsApart]; decide)

theorem isInner_join {texts : List (List Char)} (h : ∀ t ∈ texts, IsArgument t) :
    IsInner (Text.join ", ".toList texts) := by
  cases texts with
  | nil => exact .nil
  | cons t texts => exact (IsPhrase.join h).isInner

theorem splitArguments_join_eq {texts : List (List Char)} (h : ∀ t ∈ texts, IsArgument t) :
    splitArguments (Text.join ", ".toList texts) = texts :=
  splitArguments_join fun t ht => ⟨(h t ht).balanced.isClosed, (h t ht).trimmed⟩

theorem IsArgument.list {texts : List (List Char)} (h : ∀ t ∈ texts, IsArgument t) :
    IsArgument ('[' :: Text.join ", ".toList texts ++ [']']) :=
  .enclosed (.inl rfl) rfl rfl (isInner_join h)

/-! ### Keywords -/

structure IsKey (key : List Char) : Prop where
  isWordRun : IsWordRun key
  isIdle : IsIdle key
  all : key.all isKeyChar = true

instance (key : List Char) : Decidable (IsKey key) :=
  decidable_of_iff (IsWordRun key ∧ IsIdle key ∧ key.all isKeyChar = true)
    ⟨fun ⟨hWord, hIdle, hAll⟩ => ⟨hWord, hIdle, hAll⟩, fun ⟨hWord, hIdle, hAll⟩ => ⟨hWord, hIdle, hAll⟩⟩

def keyed (key value : List Char) : List Char := key ++ ": ".toList ++ value

namespace IsKey

variable {key value : List Char}

theorem isArgument (hKey : IsKey key) (h : IsArgument value) : IsArgument (keyed key value) := by
  have hColon : ∀ c ∈ [':'], isPlain c = true ∧ bracketStep c = 0 := by decide
  have hFront : IsSegment false (key ++ [':']) := by
    refine ⟨(IsBalanced.of_word hKey.isWordRun).code_append
      (.of_plain hColon fun hComma => absurd hComma (by decide)), ?_, ?_⟩
    · simp [hKey.isWordRun.not_mem (show continuesWord '\n' = false by decide)]
    · have hBoth := hKey.isWordRun.isTrimmed.append []
        (.singleton (show Text.isBlank ':' = false by decide))
      rwa [List.append_nil] at hBoth
  have hCode : codeOf (key ++ [':']) = key ++ [':'] := by
    rw [codeOf, codeOf_go_append fun c hc => isPlain_of_continuesWord (hKey.isWordRun.all c hc)]
    rfl
  have hForm : keyed key value = (key ++ [':']) ++ ' ' :: value := by simp [keyed]
  rw [hForm]
  refine h.behind hFront ?_
  rw [hCode]
  exact (IsQuiet.word hKey.isWordRun hKey.isIdle).append (.of_all (by decide))
    (by simp [IsApart]; decide)

theorem parseKeyword?_keyed (hKey : IsKey key) (h : IsArgument value) :
    parseKeyword? (keyed key value) = some (key, value) :=
  parseKeyword?_keyword hKey.isWordRun.ne_nil hKey.all h.trimmed

theorem keywordListBody?_keyed (hKey : IsKey key) : keywordListBody? (keyed key value) = none := by
  obtain ⟨c, rest, hName, hStart⟩ := hKey.isWordRun.first
  have hBracket : Text.stripPrefix? "[" (keyed key value) = none := by
    rw [keyed, hName]
    exact Text.stripPrefix?_eq_none rfl (Ne.symm (ne_of_startsWord hStart (by decide)))
  rw [keywordListBody?, hBracket]
  rfl

end IsKey

/-- What the arguments give under keys: the arguments before the keywords give nothing. -/
theorem keywordArguments_append {positional : List (List Char)}
    {keywords : List (List Char × List Char)}
    (hPositional : ∀ t ∈ positional, parseKeyword? t = none ∧ keywordListBody? t = none)
    (hKeywords : ∀ keyword ∈ keywords, IsKey keyword.1 ∧ IsArgument keyword.2) :
    keywordArguments (positional ++ keywords.map fun (key, value) => keyed key value) = keywords := by
  have hNoList : ∀ t ∈ positional ++ keywords.map (fun (key, value) => keyed key value),
      keywordListBody? t = none := by
    rw [List.forall_mem_append, List.forall_mem_map]
    exact ⟨fun t ht => (hPositional t ht).2,
      fun keyword hMem => (hKeywords keyword hMem).1.keywordListBody?_keyed⟩
  have hOwn : positional.filterMap parseKeyword? = [] :=
    List.filterMap_eq_nil_iff.mpr fun t ht => (hPositional t ht).1
  have hEach : ∀ keyword ∈ keywords,
      (parseKeyword? ∘ fun (key, value) => keyed key value) keyword = some keyword :=
    fun keyword hMem => (hKeywords keyword hMem).1.parseKeyword?_keyed (hKeywords keyword hMem).2
  rw [keywordArguments_of_noList hNoList, List.filterMap_append, hOwn, List.nil_append,
    List.filterMap_map, List.filterMap_congr hEach, List.filterMap_some]

/-- The first of several options that write a field under a key is found there. -/
theorem keyword?_map {α β : Type} {keyword : α → List Char × List Char} {key : String}
    {field : α → Option β} {write : β → List Char}
    (h : ∀ a, (if key.toList == (keyword a).1 then some (keyword a).2 else none) = (field a).map write)
    (options : List α) :
    keyword? (options.map keyword) key = (options.findSome? field).map write := by
  rw [keyword?, List.lookup_eq_findSome?, List.findSome?_map, List.map_findSome?]
  exact congrArg (options.findSome? ·) (funext h)

end PhoenixLens.Elixir
