import PhoenixLens.Elixir.Literal
import PhoenixLens.Proofs.Elixir.Lexical

/-!
# Pieces of a line

A line of calls is put together from pieces: words, strings, atoms, lists. A piece is known by the
code that is left of it, and a line by its pieces and by how it ends.
-/

namespace PhoenixLens.Elixir

/-! ### Pieces -/

/-- A piece of a line, and the code that is left of it. -/
structure IsPiece (text code : List Char) : Prop where
  reads : ∀ rest, codeOf.go .code (text ++ rest) = code ++ codeOf.go .code rest
  quiet : IsQuiet code
  depth : bracketDepth code = 0
  unbroken : '\n' ∉ text

/-- What may stand between two pieces. -/
structure IsGap (gap : List Char) : Prop where
  first : ∃ c rest, gap = c :: rest ∧ continuesWord c = false
  all : ∀ c ∈ gap, isPlain c = true ∧ startsWord c = false ∧ bracketStep c = 0 ∧ c ≠ '\n'

theorem isGap_space : IsGap [' '] := by
  refine ⟨⟨' ', [], rfl, by decide⟩, ?_⟩
  decide

theorem isGap_comma : IsGap ", ".toList := by
  refine ⟨⟨',', [' '], rfl, by decide⟩, ?_⟩
  decide

theorem isGap_colon : IsGap ": ".toList := by
  refine ⟨⟨':', [' '], rfl, by decide⟩, ?_⟩
  decide

namespace IsPiece

variable {text code : List Char}

theorem codeOf_eq (h : IsPiece text code) : codeOf text = code := by
  have hReads := h.reads []
  rwa [List.append_nil, codeOf.go.eq_1, List.append_nil] at hReads

theorem append (h : IsPiece text code) {gap : List Char} (hGap : IsGap gap)
    {more moreCode : List Char} (hMore : IsPiece more moreCode) :
    IsPiece (text ++ gap ++ more) (code ++ gap ++ moreCode) := by
  have hQuiet : ∀ gap : List Char, (∀ c ∈ gap, startsWord c = false) →
      IsQuiet (gap ++ moreCode) := by
    intro gap hAll
    induction gap with
    | nil => exact hMore.quiet
    | cons c gap ih =>
      exact .cons (hAll c List.mem_cons_self) (ih fun d hd => hAll d (List.mem_cons_of_mem _ hd))
  refine ⟨?_, ?_, ?_, ?_⟩
  · intro rest
    rw [List.append_assoc, List.append_assoc, h.reads,
      codeOf_go_append fun c hc => (hGap.all c hc).1, hMore.reads]
    simp
  · rw [List.append_assoc]
    refine h.quiet.append (hQuiet gap fun c hc => (hGap.all c hc).2.1) ?_
    obtain ⟨c, rest, rfl, hApart⟩ := hGap.first
    intro d hd
    cases hd
    exact hApart
  · rw [bracketDepth_append, bracketDepth_append, h.depth, hMore.depth,
      bracketDepth_of_all fun c hc => (hGap.all c hc).2.2.1]
    rfl
  · simp only [List.mem_append, not_or]
    exact ⟨⟨h.unbroken, fun hBreak => (hGap.all _ hBreak).2.2.2 rfl⟩, hMore.unbroken⟩

theorem of_plain (hPlain : ∀ c ∈ text, isPlain c = true ∧ c ≠ '\n') (hQuiet : IsQuiet text)
    (hDepth : bracketDepth text = 0) : IsPiece text text :=
  ⟨codeOf_go_append fun c hc => (hPlain c hc).1, hQuiet, hDepth,
    fun hBreak => (hPlain _ hBreak).2 rfl⟩

theorem word {word : List Char} (h : IsWordRun word) (hIdle : IsIdle word) : IsPiece word word := by
  refine of_plain ?_ (.word h hIdle) ?_
  · intro c hc
    refine ⟨isPlain_of_continuesWord (h.all c hc), ?_⟩
    rintro rfl
    exact h.not_mem (by decide) hc
  · exact bracketDepth_of_all fun c hc => bracketStep_of_continuesWord (h.all c hc)

end IsPiece

namespace IsPiece

theorem join {p : List Char × List Char} {pieces : List (List Char × List Char)}
    (h : ∀ q ∈ p :: pieces, IsPiece q.1 q.2) :
    IsPiece (Text.join ", ".toList ((p :: pieces).map (·.1)))
      (Text.join ", ".toList ((p :: pieces).map (·.2))) := by
  induction pieces generalizing p with
  | nil =>
    rw [List.map_singleton, List.map_singleton, Text.join_singleton, Text.join_singleton]
    exact h p List.mem_cons_self
  | cons q pieces ih =>
    have hRest := ih fun r hr => h r (List.mem_cons_of_mem _ hr)
    simp only [List.map_cons] at hRest ⊢
    rw [Text.join_cons _ _ (List.cons_ne_nil _ _), Text.join_cons _ _ (List.cons_ne_nil _ _)]
    exact (h p List.mem_cons_self).append isGap_comma hRest

theorem brackets {text code : List Char} (h : IsPiece text code) :
    IsPiece ('[' :: text ++ [']']) ('[' :: code ++ [']']) := by
  refine ⟨?_, ?_, ?_, ?_⟩
  · intro rest
    have hText : '[' :: text ++ [']'] ++ rest = ['['] ++ (text ++ ([']'] ++ rest)) := by simp
    rw [hText, codeOf_go_append (by decide), h.reads, codeOf_go_append (by decide)]
    simp
  · refine .cons (by decide) (h.quiet.append (.of_all (by decide)) ?_)
    intro c hc
    cases hc
    decide
  · rw [List.cons_append, bracketDepth, bracketDepth_append, h.depth]
    decide
  · simp [h.unbroken]

theorem indent {text code : List Char} (h : IsPiece text code) (width : Nat) :
    IsPiece (List.replicate width ' ' ++ text) (List.replicate width ' ' ++ code) := by
  induction width with
  | zero => exact h
  | succ width ih =>
    refine ⟨?_, .cons (by decide) ih.quiet, ?_, ?_⟩
    · intro rest
      have hSpace : ∀ more, codeOf.go .code (' ' :: more) = ' ' :: codeOf.go .code more := by
        intro more
        rw [codeOf.go, if_neg (by decide)]
        rfl
      rw [List.replicate_succ, List.cons_append, List.cons_append, hSpace, ih.reads]
      rfl
    · rw [List.replicate_succ, List.cons_append, bracketDepth, ih.depth]
      decide
    · rw [List.replicate_succ, List.cons_append, List.mem_cons, not_or]
      exact ⟨by decide, ih.unbroken⟩

end IsPiece

/-! ### Arguments between commas -/

/-- The text is one argument: commas in it stand in brackets or strings. -/
def IsClosed (text : List Char) : Prop :=
  ∀ seen rest, splitAtCommas.go .code 0 seen (text ++ rest) =
    splitAtCommas.go .code 0 (text.reverse ++ seen) rest

theorem splitAtCommas_go_append {text : List Char} {depth : Int}
    (h : ∀ c ∈ text, isQuote c = false ∧ bracketStep c = 0 ∧ (c = ',' → depth ≠ 0))
    (seen rest : List Char) :
    splitAtCommas.go .code depth seen (text ++ rest) =
      splitAtCommas.go .code depth (text.reverse ++ seen) rest := by
  induction text generalizing seen with
  | nil => rfl
  | cons c text ih =>
    obtain ⟨hQuote, hStep, hComma⟩ := h c List.mem_cons_self
    have hNot : ¬ (c == ',' && depth == 0) = true := by simpa using hComma
    rw [List.cons_append, splitAtCommas.go, if_neg hNot, Quoting.step, if_neg (by simp [hQuote]),
      hStep,
      Int.add_zero, ih fun d hd => h d (List.mem_cons_of_mem _ hd)]
    simp

theorem splitAtCommas_go_quoted {text : List Char} (h : ∀ c ∈ text, c ≠ '"' ∧ c ≠ '\\')
    (depth : Int) (seen rest : List Char) :
    splitAtCommas.go (.quoted '"' false) depth seen (text ++ '"' :: rest) =
      splitAtCommas.go .code depth ('"' :: text.reverse ++ seen) rest := by
  induction text generalizing seen with
  | nil => simp [splitAtCommas.go, Quoting.step]
  | cons c text ih =>
    obtain ⟨hQuote, hEscape⟩ := h c List.mem_cons_self
    have hStep : (Quoting.quoted '"' false).step c = .quoted '"' false := by
      simp [Quoting.step, hQuote, hEscape]
    simp only [List.cons_append, splitAtCommas.go, hStep]
    rw [ih fun d hd => h d (List.mem_cons_of_mem _ hd)]
    simp

theorem splitAtCommas_go_join {t : List Char} {texts : List (List Char)}
    (h : ∀ u ∈ t :: texts, IsClosed u) (seen : List Char) :
    splitAtCommas.go .code 0 seen (Text.join ", ".toList (t :: texts)) =
      (seen.reverse ++ t) :: texts.map (' ' :: ·) := by
  induction texts generalizing t seen with
  | nil =>
    have hClosed := h t List.mem_cons_self seen []
    rw [List.append_nil] at hClosed
    rw [Text.join_singleton, hClosed, splitAtCommas.go]
    simp
  | cons u texts ih =>
    have hRest := ih fun v hv => h v (List.mem_cons_of_mem _ hv)
    have hSpace : splitAtCommas.go .code 0 [] (' ' :: Text.join ", ".toList (u :: texts)) =
        splitAtCommas.go .code 0 [' '] (Text.join ", ".toList (u :: texts)) := by
      rw [splitAtCommas.go, if_neg (by decide)]
      rfl
    have hGap : ", ".toList ++ Text.join ", ".toList (u :: texts) =
        ',' :: ' ' :: Text.join ", ".toList (u :: texts) := rfl
    rw [Text.join_cons _ _ (List.cons_ne_nil _ _), List.append_assoc, h t List.mem_cons_self, hGap,
      splitAtCommas.go, if_pos (by decide), hSpace, hRest]
    simp

theorem splitArguments_join {texts : List (List Char)}
    (h : ∀ t ∈ texts, IsClosed t ∧ Text.IsTrimmed t) :
    splitArguments (Text.join ", ".toList texts) = texts := by
  cases texts with
  | nil => rfl
  | cons t texts =>
    have hTrim : ∀ u ∈ t :: texts, Text.trim (' ' :: u) = u := by
      intro u hu
      have hBlank : ∀ c ∈ [' '], Text.isBlank c = true := by decide
      exact (h u hu).2.trim_append hBlank
    have hTexts : (texts.map (' ' :: ·)).map Text.trim = texts := by
      rw [List.map_map]
      conv_rhs => rw [← List.map_id texts]
      exact List.map_congr_left fun u hu => hTrim u (List.mem_cons_of_mem _ hu)
    rw [splitArguments, splitAtCommas, splitAtCommas_go_join fun u hu => (h u hu).1, List.map_cons,
      hTexts, List.reverse_nil, List.nil_append, (h t List.mem_cons_self).2.trim_eq]
    rw [List.filter_eq_self]
    intro u hu
    simpa using (h u hu).2.ne_nil

/-! ### Ends of lines -/

/-- The text ends in a `do` that opens a block and does not count among the arguments of a call. -/
def EndsInDo (cs : List Char) : Prop :=
  ∃ before, cs = before ++ ['d', 'o'] ∧ ∀ c ∈ before.getLast?, c = ' ' ∨ c = ')' ∨ c = ','

theorem opensDoBlock_iff {text : List Char} :
    opensDoBlock text = true ↔ EndsInDo (Text.trimEnd (codeOf text)) := by
  rw [opensDoBlock]
  generalize Text.trimEnd (codeOf text) = code
  simp only [Bool.or_eq_true, beq_iff_eq, List.any_eq_true, Text.endsWith_iff]
  constructor
  · rintro (rfl | ⟨ending, hEnding, before, rfl⟩)
    · exact ⟨[], rfl, nofun⟩
    · simp only [List.mem_cons, List.not_mem_nil, or_false] at hEnding
      rcases hEnding with rfl | rfl | rfl
      · exact ⟨before ++ [' '], by simp, by simp⟩
      · exact ⟨before ++ [')'], by simp, by simp⟩
      · exact ⟨before ++ [','], by simp, by simp⟩
  · rintro ⟨before, rfl, hLast⟩
    induction before using List.reverseRecOn with
    | nil => exact .inl rfl
    | append_singleton before c _ =>
      right
      rcases hLast c (by simp) with rfl | rfl | rfl
      · exact ⟨" do", by simp, before, by simp⟩
      · exact ⟨")do", by simp, before, by simp⟩
      · exact ⟨",do", by simp, before, by simp⟩

theorem not_endsInDo_of_last {text front : List Char} {c : Char} (hText : text = front ++ [c])
    (h : c ≠ 'o') (before : List Char) : ¬ EndsInDo (before ++ text) := by
  rintro ⟨head, hEq, _⟩
  have hForm : head ++ ['d', 'o'] = (head ++ ['d']) ++ ['o'] := by simp
  rw [hForm, hText, ← List.append_assoc] at hEq
  exact h (List.cons.inj (List.append_inj_right' hEq rfl)).1

theorem not_endsInDo_of_all {text : List Char} (h : ∀ c ∈ text, c ≠ ' ' ∧ c ≠ ')' ∧ c ≠ ',')
    (hNil : text ≠ []) (hDo : text ≠ ['d', 'o']) (hO : text ≠ ['o']) (before : List Char) :
    ¬ EndsInDo (before ++ text) := by
  rintro ⟨front, hEq, hLast⟩
  rcases List.append_eq_append_iff.mp hEq with ⟨middle, rfl, hText⟩ | ⟨middle, rfl, hText⟩
  · induction middle using List.reverseRecOn with
    | nil => exact hDo hText
    | append_singleton middle c _ =>
      have hMem : c ∈ text := by simp [hText]
      obtain ⟨hSpace, hClosing, hComma⟩ := h c hMem
      rcases hLast c (by simp) with rfl | rfl | rfl
      · exact hSpace rfl
      · exact hClosing rfl
      · exact hComma rfl
  · rcases middle with _ | ⟨c, _ | ⟨d, rest⟩⟩
    · exact hDo hText.symm
    · cases hText
      exact hO rfl
    · cases List.append_eq_nil_iff.mp (List.cons.inj (List.cons.inj hText).2).2.symm |>.2
      exact hNil rfl

/-- A line that ends with the text opens no block and does not go on. -/
structure IsEnd (text code : List Char) : Prop where
  last : ∃ before codeBefore c, text = before ++ [c] ∧ code = codeBefore ++ [c] ∧
    Text.isBlank c = false ∧ c ≠ ',' ∧ c ≠ '>' ∧ c ≠ '\''
  text_noDo : ∀ before, ¬ EndsInDo (before ++ text)
  code_noDo : ∀ before, ¬ EndsInDo (before ++ code)
  noHeredoc : ∀ before c, c ≠ '"' → ∀ front, before ++ c :: text ≠ front ++ ['"', '"', '"']

namespace IsEnd

variable {text code : List Char}

theorem append (h : IsEnd text code) (before : List Char) {c : Char} (hc : c ≠ '"')
    (codeBefore : List Char) : IsEnd (before ++ c :: text) (codeBefore ++ code) := by
  refine ⟨?_, ?_, ?_, ?_⟩
  · obtain ⟨front, codeFront, d, rfl, rfl, hLast⟩ := h.last
    exact ⟨before ++ c :: front, codeBefore ++ codeFront, d, by simp, by simp, hLast⟩
  · intro more
    have hForm : more ++ (before ++ c :: text) = (more ++ before ++ [c]) ++ text := by simp
    rw [hForm]
    exact h.text_noDo _
  · intro more
    rw [← List.append_assoc]
    exact h.code_noDo _
  · intro more d _ front
    have hForm : more ++ d :: (before ++ c :: text) = (more ++ d :: before) ++ c :: text := by simp
    rw [hForm]
    exact h.noHeredoc _ c hc front

theorem of_plain {last : Char} {before : List Char} (hLast : text = before ++ [last])
    (hBlank : Text.isBlank last = false) (hComma : last ≠ ',') (hPipe : last ≠ '>')
    (hQuotes : isPlain last = true) (hDo : ∀ before, ¬ EndsInDo (before ++ text)) :
    IsEnd text text := by
  simp only [isPlain, isQuote, Bool.and_eq_true, Bool.not_eq_true', Bool.or_eq_false_iff,
    beq_eq_false_iff_ne] at hQuotes
  refine ⟨⟨before, before, last, hLast, hLast, hBlank, hComma, hPipe, hQuotes.1.2⟩, hDo, hDo, ?_⟩
  intro more c _ front hEq
  have hForm : more ++ c :: text = (more ++ c :: before) ++ [last] := by simp [hLast]
  have hQuote : front ++ ['"', '"', '"'] = (front ++ ['"', '"']) ++ ['"'] := by simp
  rw [hForm, hQuote] at hEq
  exact hQuotes.1.1 (List.cons.inj (List.append_inj_right' hEq rfl)).1

end IsEnd

/-! ### Whole lines -/

theorem heredocOpening?_of_not_suffix {line : List Char}
    (hLast : ∃ before c, line = before ++ [c] ∧ Text.isBlank c = false)
    (hNot : ∀ delimiter ∈ heredocDelimiters, ¬delimiter <:+ line) : heredocOpening? line = none := by
  obtain ⟨before, c, hLine, hBlank⟩ := hLast
  rw [heredocOpening?, List.findSome?_eq_none_iff]
  intro delimiter hDelimiter
  cases hCut : Text.cutAt? delimiter line with
  | none => rfl
  | some parts =>
    obtain ⟨front, rest⟩ := parts
    have hParts := Text.append_of_cutAt? hCut
    have hRest : Text.allBlank rest = false := by
      induction rest using List.reverseRecOn with
      | nil =>
        rw [List.append_nil] at hParts
        exact absurd ⟨front, hParts⟩ (hNot delimiter hDelimiter)
      | append_singleton rest d _ =>
        rw [hLine, ← List.append_assoc] at hParts
        have hSame := (List.cons.inj (List.append_inj_right' hParts rfl)).1
        simp [Text.allBlank, hSame, hBlank]
    simp [hRest]

theorem heredocOpening?_eq_none {line : List Char}
    (hLast : ∃ before c, line = before ++ [c] ∧ Text.isBlank c = false ∧ c ≠ '\'')
    (hQuotes : ∀ front, line ≠ front ++ ['"', '"', '"']) : heredocOpening? line = none := by
  obtain ⟨before, c, hLine, hBlank, hQuote⟩ := hLast
  refine heredocOpening?_of_not_suffix ⟨before, c, hLine, hBlank⟩ fun delimiter hDelimiter => ?_
  simp only [heredocDelimiters, List.mem_cons, List.not_mem_nil, or_false] at hDelimiter
  rintro ⟨front, hFront⟩
  rcases hDelimiter with rfl | rfl
  · exact hQuotes front hFront.symm
  · have hForm : front ++ ['\'', '\'', '\''] = (front ++ ['\'', '\'']) ++ ['\''] := by simp
    rw [hLine, hForm] at hFront
    exact hQuote (List.cons.inj (List.append_inj_right' hFront rfl)).1.symm

theorem heredocOpening?_of_last {line before : List Char} {c : Char} (hLine : line = before ++ [c])
    (hBlank : Text.isBlank c = false) (hSingle : c ≠ '\'') (hDouble : c ≠ '"') :
    heredocOpening? line = none := by
  refine heredocOpening?_eq_none ⟨before, c, hLine, hBlank, hSingle⟩ ?_
  intro front hEq
  have hForm : front ++ ['"', '"', '"'] = (front ++ ['"', '"']) ++ ['"'] := by simp
  rw [hLine, hForm] at hEq
  exact hDouble (List.cons.inj (List.append_inj_right' hEq rfl)).1

theorem needsContinuation_eq_false {text before : List Char} {c : Char}
    (hLast : codeOf text = before ++ [c]) (hBlank : Text.isBlank c = false) (hComma : c ≠ ',')
    (hPipe : c ≠ '>') (hDepth : bracketDepth (codeOf text) ≤ 0) :
    needsContinuation text = false := by
  have hTrimmed : Text.trimEnd (codeOf text) = before ++ [c] := by
    rw [hLast, Text.trimEnd, Text.dropEndWhile_concat_of_neg hBlank]
  simp only [needsContinuation, hTrimmed, Bool.or_eq_false_iff, decide_eq_false_iff_not]
  refine ⟨⟨?_, ?_⟩, by omega⟩
  · exact Text.endsWith_eq_false (by rfl) rfl (Ne.symm hComma)
  · exact Text.endsWith_eq_false (by rfl) rfl (Ne.symm hPipe)

/-- A line that stands for itself, opens and closes some blocks and can be told from others. -/
structure IsOwnLine (line : List Char) (delta : Nat × Nat) : Prop where
  noHeredoc : heredocOpening? line = none
  finished : needsContinuation line = false
  blocks : blockDelta line = delta
  unbroken : '\n' ∉ line
  noReturn : line.getLast? ≠ some '\r'

namespace IsOwnLine

variable {line code : List Char}

theorem of_piece (hPiece : IsPiece line code) (hEnd : IsEnd line code)
    (hQuotes : ∀ front, line ≠ front ++ ['"', '"', '"']) : IsOwnLine line (0, 0) := by
  obtain ⟨before, codeBefore, c, hLine, hCode, hBlank, hComma, hPipe, hQuote⟩ := hEnd.last
  refine ⟨heredocOpening?_eq_none ⟨before, c, hLine, hBlank, hQuote⟩ hQuotes, ?_, ?_,
    hPiece.unbroken, ?_⟩
  · refine needsContinuation_eq_false (hPiece.codeOf_eq.trans hCode) hBlank hComma hPipe ?_
    have hDepth : bracketDepth (codeOf line) = 0 := by rw [hPiece.codeOf_eq, hPiece.depth]
    exact Int.le_of_eq hDepth
  · exact blockDelta_of_quiet (hPiece.codeOf_eq ▸ hPiece.quiet)
  · rw [hLine, List.getLast?_concat]
    intro hReturn
    rw [Option.some.inj hReturn] at hBlank
    revert hBlank
    decide

theorem of_opening (hPiece : IsPiece line code) : IsOwnLine (line ++ " do".toList) (1, 0) := by
  have hLine : line ++ " do".toList = (line ++ " d".toList) ++ ['o'] := by simp
  have hCode : codeOf (line ++ " do".toList) = code ++ " do".toList := by
    rw [codeOf, hPiece.reads]
    rfl
  refine ⟨?_, ?_, blockDelta_of_opening hCode hPiece.quiet, ?_, ?_⟩
  · exact heredocOpening?_of_last hLine (by decide) (by decide) (by decide)
  · have hLast : codeOf (line ++ " do".toList) = (code ++ " d".toList) ++ ['o'] := by
      rw [hCode]
      simp
    refine needsContinuation_eq_false hLast (by decide) (by decide) (by decide) ?_
    rw [hCode, bracketDepth_append, hPiece.depth]
    decide
  · rw [List.mem_append, not_or]
    exact ⟨hPiece.unbroken, by decide⟩
  · rw [hLine, List.getLast?_concat]
    decide

theorem of_end (width : Nat) : IsOwnLine (List.replicate width ' ' ++ "end".toList) (0, 1) := by
  have hLine : List.replicate width ' ' ++ "end".toList =
      (List.replicate width ' ' ++ "en".toList) ++ ['d'] := by simp
  have hChars : ∀ c ∈ List.replicate width ' ' ++ "end".toList,
      isPlain c = true ∧ bracketStep c = 0 ∧ '\n' ≠ c := by
    have hOwn : ∀ c ∈ ' ' :: "end".toList, isPlain c = true ∧ bracketStep c = 0 ∧ '\n' ≠ c := by
      decide
    intro c hc
    rcases List.mem_append.mp hc with hBlank | hEnd
    · exact hOwn c (List.mem_cons.mpr (.inl (List.mem_replicate.mp hBlank).2))
    · exact hOwn c (List.mem_cons_of_mem _ hEnd)
  have hCode : codeOf (List.replicate width ' ' ++ "end".toList) =
      List.replicate width ' ' ++ "end".toList := by
    have hGo := codeOf_go_append (fun c hc => (hChars c hc).1) []
    rwa [List.append_nil, show codeOf.go .code [] = [] from rfl, List.append_nil] at hGo
  refine ⟨?_, ?_, blockDelta_of_end hCode, ?_, ?_⟩
  · exact heredocOpening?_of_last hLine (by decide) (by decide) (by decide)
  · refine needsContinuation_eq_false (hCode.trans hLine) (by decide) (by decide) (by decide) ?_
    rw [hCode]
    exact Int.le_of_eq (bracketDepth_of_all fun c hc => (hChars c hc).2.1)
  · exact fun hMem => (hChars _ hMem).2.2 rfl
  · rw [hLine, List.getLast?_concat]
    decide

end IsOwnLine

/-! ### Calls -/

theorem stripTrailingDo_of_not_endsInDo {text : List Char} (hTrimmed : Text.trimEnd text = text)
    (h : ¬ EndsInDo text) : stripTrailingDo text = text := by
  rw [stripTrailingDo, hTrimmed]
  cases hStrip : Text.stripSuffix? "do" text with
  | none => rfl
  | some head =>
    rw [Text.stripSuffix?, List.isSuffixOf?_eq_some_iff_append_eq] at hStrip
    refine if_neg ?_
    intro hCut
    refine h ⟨head, hStrip.symm, ?_⟩
    intro c hc
    simp only [Bool.or_eq_true, List.isEmpty_iff, List.any_cons, List.any_nil, Bool.or_false,
      beq_iff_eq] at hCut
    rw [Option.mem_def] at hc
    rw [hc] at hCut
    rcases hCut with rfl | hCut
    · cases hc
    · simpa using hCut

theorem stripTrailingDo_append {text before : List Char} {c : Char} (hLast : text = before ++ [c])
    (hBlank : Text.isBlank c = false) (hComma : c ≠ ',') :
    stripTrailingDo (text ++ " do".toList) = text := by
  have hTrimmed : Text.trimEnd (text ++ " do".toList) = (text ++ [' ']) ++ "do".toList := by
    have hForm : text ++ " do".toList = (text ++ " d".toList) ++ ['o'] := by simp
    rw [hForm, Text.trimEnd, Text.dropEndWhile_concat_of_neg (by decide)]
    simp
  have hText : Text.trimEnd (text ++ [' ']) = text := by
    rw [Text.trimEnd, Text.dropEndWhile_append_of_pos (by decide), hLast,
      Text.dropEndWhile_concat_of_neg hBlank]
  rw [stripTrailingDo, hTrimmed, Text.stripSuffix?_append]
  simp only [List.getLast?_concat]
  rw [if_pos (by simp), hText, hLast, Text.dropEndWhile_concat_of_neg (by simpa using hComma),
    Text.trimEnd, Text.dropEndWhile_concat_of_neg hBlank]

section

variable {text before : List Char} {c : Char} {opens : Bool}

/-- Arguments are the same with and without the `do` that opens a block behind them. -/
theorem stripTrailingDo_do (hLast : text = before ++ [c]) (hBlank : Text.isBlank c = false)
    (hComma : c ≠ ',') (hDo : opens = false → ¬EndsInDo text) :
    stripTrailingDo (text ++ if opens then " do".toList else []) = text := by
  cases opens with
  | false =>
    rw [if_neg Bool.false_ne_true, List.append_nil]
    refine stripTrailingDo_of_not_endsInDo ?_ (hDo rfl)
    rw [hLast, Text.trimEnd, Text.dropEndWhile_concat_of_neg hBlank]
  | true => exact stripTrailingDo_append hLast hBlank hComma

theorem isTrimmed_append_do (h : Text.IsTrimmed text) (opens : Bool) :
    Text.IsTrimmed (text ++ if opens then " do".toList else []) := by
  cases opens with
  | false =>
    rw [if_neg Bool.false_ne_true, List.append_nil]
    exact h
  | true =>
    have hDo : Text.IsTrimmed ['d', 'o'] := by decide
    have hBoth := h.append [' '] hDo
    rwa [List.append_assoc] at hBoth

end

end PhoenixLens.Elixir
