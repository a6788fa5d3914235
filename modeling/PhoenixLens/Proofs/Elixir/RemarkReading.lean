import PhoenixLens.Elixir.Definition
import PhoenixLens.Elixir.EctoSchemas
import PhoenixLens.Elixir.Router
import PhoenixLens.Proofs.Elixir.Closed

/-!
# Reading a line with a comment behind it

What the readers of a line make of it when a comment is added: calls in parentheses, heads of
definitions and openings of modules are read as before.
-/

namespace PhoenixLens.Elixir

/-! ### Calls -/

/-- The text calls `name` without parentheses, so that its arguments reach up to the end. -/
def callsBare (name : String) (text : List Char) : Bool :=
  match Text.stripPrefix? name (Text.trimStart text) with
  | some rest =>
    (rest.isEmpty || rest.head? == some ' ') && !Text.startsWith "(" (Text.trimStart rest)
  | none => false

/-- A character that may be dropped behind the arguments of a call. -/
def EndsCall (c : Char) : Prop := Text.isBlank c = true ∨ c = 'd' ∨ c = 'o' ∨ c = ','

theorem EndsCall.ne {c d : Char} (h : EndsCall c) (hBlank : Text.isBlank d = false)
    (hd : d ≠ 'd' ∧ d ≠ 'o' ∧ d ≠ ',') : c ≠ d := by
  rintro rfl
  rcases h with hc | hc | hc | hc
  · rw [hBlank] at hc
    cases hc
  · exact hd.1 hc
  · exact hd.2.1 hc
  · exact hd.2.2 hc

theorem EndsCall.not_isClosing {c : Char} (h : EndsCall c) : isClosing c = false := by
  have hParenthesis := h.ne (d := ')') (by decide) (by decide)
  have hBracket := h.ne (d := ']') (by decide) (by decide)
  have hBrace := h.ne (d := '}') (by decide) (by decide)
  simp [isClosing, hParenthesis, hBracket, hBrace]

/-- The second text is the first one without some characters behind the arguments of a call. -/
def IsCut (text rest : List Char) : Prop :=
  ∃ ending, (∀ c ∈ ending, EndsCall c) ∧ text = rest ++ ending

theorem IsCut.trans {a b c : List Char} (h : IsCut a b) (hMore : IsCut b c) : IsCut a c := by
  obtain ⟨outer, hOuter, rfl⟩ := h
  obtain ⟨inner, hInner, rfl⟩ := hMore
  refine ⟨inner ++ outer, ?_, List.append_assoc ..⟩
  intro d hd
  rcases List.mem_append.mp hd with hd | hd
  · exact hInner d hd
  · exact hOuter d hd

theorem isCut_dropEndWhile {q : Char → Bool} (hq : ∀ c, q c = true → EndsCall c)
    (text : List Char) : IsCut text (Text.dropEndWhile q text) := by
  obtain ⟨ending, hEnding, hText⟩ := Text.exists_dropEndWhile_append q text
  exact ⟨ending, fun c hc => hq c (hEnding c hc), hText⟩

theorem isCut_trimEnd (text : List Char) : IsCut text (Text.trimEnd text) :=
  isCut_dropEndWhile (fun _ => .inl) text

theorem isCut_stripTrailingDo (text : List Char) : IsCut text (stripTrailingDo text) := by
  rw [stripTrailingDo]
  cases hDo : Text.stripSuffix? "do" (Text.trimEnd text) with
  | none => exact isCut_trimEnd text
  | some head =>
    simp only
    split
    · have hHead : IsCut (Text.trimEnd text) head := by
        refine ⟨['d', 'o'], ?_, ?_⟩
        · intro c hc
          rcases List.mem_pair.mp hc with rfl | rfl
          · exact .inr (.inl rfl)
          · exact .inr (.inr (.inl rfl))
        · exact (List.isSuffixOf?_eq_some_iff_append_eq.mp hDo).symm
      refine ((isCut_trimEnd text).trans hHead).trans ?_
      refine ((isCut_trimEnd head).trans (isCut_dropEndWhile ?_ _)).trans (isCut_trimEnd _)
      exact fun c hc => .inr (.inr (.inr (eq_of_beq hc)))
    · exact isCut_trimEnd text

/-- The parenthesis that arguments begin with stays, and so does the one that closes it. -/
theorem stripTrailingDo_closed {text closed : List Char} (h : beforeClosing? text = some closed) :
    ∃ arguments, stripTrailingDo ('(' :: text) = '(' :: arguments ∧
      beforeClosing? arguments = some closed := by
  obtain ⟨ending, hEnding, hText⟩ := isCut_stripTrailingDo ('(' :: text)
  cases hStrip : stripTrailingDo ('(' :: text) with
  | nil =>
    rw [hStrip, List.nil_append] at hText
    exact absurd rfl ((hEnding '(' (hText ▸ List.mem_cons_self)).ne (by decide) (by decide))
  | cons c arguments =>
    rw [hStrip, List.cons_append, List.cons.injEq] at hText
    obtain ⟨rfl, rfl⟩ := hText
    exact ⟨arguments, rfl, beforeClosing?_go_of_append (fun c hc => (hEnding c hc).not_isClosing) h⟩

/-- A cut at the end of a comment leaves what stands before the comment. -/
theorem IsCut.of_remark {p : Char → Prop} {text remark rest : List Char}
    (hRemark : IsRemark p remark) (h : IsCut (text ++ remark) rest) :
    ∃ more, rest = text ++ more := by
  obtain ⟨ending, hEnding, hText⟩ := h
  rcases List.append_eq_append_iff.mp hText with ⟨more, rfl, -⟩ | ⟨more, rfl, hMore⟩
  · exact ⟨more, rfl⟩
  · obtain ⟨blanks, comment, -, -, rfl⟩ := hRemark
    have hHash : '#' ∈ ending := by
      rw [hMore]
      exact List.mem_append_right _ (List.mem_append_right _ List.mem_cons_self)
    exact absurd rfl ((hEnding '#' hHash).ne (by decide) (by decide))

theorem stripTrailingDo_closed_remark {p : Char → Prop} {text closed remark : List Char}
    (h : beforeClosing? text = some closed) (hRemark : IsRemark p remark) :
    ∃ arguments, stripTrailingDo ('(' :: (text ++ remark)) = '(' :: arguments ∧
      beforeClosing? arguments = some closed := by
  have hCut := isCut_stripTrailingDo ('(' :: (text ++ remark))
  rw [← List.cons_append] at hCut
  obtain ⟨more, hMore⟩ := hCut.of_remark hRemark
  exact ⟨text ++ more, by rw [← List.cons_append, hMore, List.cons_append],
    beforeClosing?_go_append h more⟩

theorem callArguments?_of_closed {name : String} {text rest arguments closed : List Char}
    (hRest : Text.stripPrefix? name (Text.trimStart text) = some rest)
    (hHead : rest.head? = some ' ' ∨ rest.head? = some '(')
    (hArguments : stripTrailingDo (Text.trim rest) = '(' :: arguments)
    (hClosed : beforeClosing? arguments = some closed) :
    callArguments? text name = some (Text.trim closed) := by
  have hInner : Text.stripPrefix? "(" ('(' :: arguments) = some arguments :=
    Text.stripPrefix?_append "(" arguments
  rw [callArguments?, hRest]
  rcases hHead with hHead | hHead <;> simp [hHead, hArguments, hInner, hClosed]

section Reading

variable {p : Char → Prop} {text other : List Char}

theorem isMild_name {name : String} (hName : ∀ c ∈ name.toList, continuesWord c = true) :
    IsMild fun c => name.toList.contains c :=
  isMild_of_continuesWord fun c hc => hName c (List.contains_iff_mem.mp hc)

theorem callArguments?_eq_none {name : String} {rest : List Char}
    (hRest : Text.stripPrefix? name (Text.trimStart text) = some rest) (hNe : rest ≠ [])
    (hCall : ¬(rest.head? = some ' ' ∨ rest.head? = some '(')) :
    callArguments? text name = none := by
  rw [not_or] at hCall
  simp only [Elixir.callArguments?, hRest, Option.bind_eq_bind, Option.bind_some,
    List.isEmpty_eq_false_iff.mpr hNe, beq_eq_false_iff_ne.mpr hCall.1,
    beq_eq_false_iff_ne.mpr hCall.2]
  rfl

/-- A call that is not bare opens a parenthesis behind its name, and a whole text closes it. -/
theorem IsWhole.exists_closed (hWhole : IsWhole text) {name : String}
    (hName : ∀ c ∈ name.toList, continuesWord c = true) {rest : List Char}
    (hRest : Text.stripPrefix? name (Text.trimStart text) = some rest)
    (hBare : callsBare name text = false)
    (hCall : rest.head? = some ' ' ∨ rest.head? = some '(') :
    ∃ inner closed, Text.trimStart rest = '(' :: inner ∧
      beforeClosing? (Text.trimEnd inner) = some closed := by
  have hStart : Text.startsWith "(" (Text.trimStart rest) = true := by
    rw [callsBare, hRest] at hBare
    rcases hCall with hSpace | hOpening
    · simpa [hSpace] using hBare
    · cases rest with
      | nil => cases hOpening
      | cons c tail =>
        cases hOpening
        rfl
  obtain ⟨inner, hInner⟩ := List.isPrefixOf_iff_prefix.mp hStart
  have hParenthesis : Text.trimStart rest = '(' :: inner := hInner.symm
  have hBehind : IsBehind text ('(' :: inner) := by
    rw [← hParenthesis]
    exact ((IsBehind.trimStart text).trans (.stripPrefix? (isMild_name hName) hRest)).trans
      (.trimStart rest)
  obtain ⟨closed, hClosed⟩ := hWhole.exists_beforeClosing? hBehind
  obtain ⟨ending, hEnding, hEnd⟩ := isCut_trimEnd inner
  rw [hEnd] at hClosed
  exact ⟨inner, closed, hParenthesis,
    beforeClosing?_go_of_append (fun c hc => (hEnding c hc).not_isClosing) hClosed⟩

theorem Remarked.callArguments?_eq (h : Remarked p text other) (hWhole : IsWhole text)
    {name : String} (hName : ∀ c ∈ name.toList, continuesWord c = true)
    (hBare : callsBare name text = false) :
    callArguments? other name = callArguments? text name := by
  have hRel := h.trimStart.stripPrefix? (isMild_name hName).isSolid
  cases hOwn : Text.stripPrefix? name (Text.trimStart text) with
  | none =>
    rw [hOwn] at hRel
    rw [Elixir.callArguments?, Elixir.callArguments?, hOwn, eq_none_of_rel hRel]
  | some rest =>
    rw [hOwn] at hRel
    obtain ⟨_, hOther, remark, hRemark, rfl⟩ := exists_of_rel hRel
    have hNe : rest ≠ [] := by
      rintro rfl
      rw [callsBare, hOwn] at hBare
      cases hBare
    have hHead : (rest ++ remark).head? = rest.head? := List.head?_append_of_ne_nil _ hNe
    by_cases hCall : rest.head? = some ' ' ∨ rest.head? = some '('
    · obtain ⟨inner, closed, hInner, hClosed⟩ := hWhole.exists_closed hName hOwn hBare hCall
      have hTrim : Text.trim rest = '(' :: Text.trimEnd inner := by
        rw [Text.trim, hInner, Text.trimEnd, Text.dropEndWhile_cons_of_neg (by decide)]
        rfl
      have hInnerOther : Text.trimStart (rest ++ remark) = '(' :: (inner ++ remark) := by
        rw [Text.trimStart, List.dropWhile_append, ← Text.trimStart, hInner]
        rfl
      obtain ⟨ending, hEnd, hTail⟩ :
          Remarked p (Text.trimEnd inner) (Text.trimEnd (inner ++ remark)) :=
        Remarked.trimEnd ⟨remark, hRemark, rfl⟩
      have hTrimOther : Text.trim (rest ++ remark) = '(' :: (Text.trimEnd inner ++ ending) := by
        rw [Text.trim, hInnerOther, Text.trimEnd, Text.dropEndWhile_cons_of_neg (by decide),
          ← Text.trimEnd, hTail]
      obtain ⟨arguments, hArguments, hOwnClosed⟩ := stripTrailingDo_closed hClosed
      obtain ⟨others, hOthers, hOtherClosed⟩ := stripTrailingDo_closed_remark hClosed hEnd
      rw [← hTrim] at hArguments
      rw [← hTrimOther] at hOthers
      rw [callArguments?_of_closed hOwn hCall hArguments hOwnClosed,
        callArguments?_of_closed hOther (by rwa [hHead]) hOthers hOtherClosed]
    · have hCallOther :
          ¬((rest ++ remark).head? = some ' ' ∨ (rest ++ remark).head? = some '(') := by
        rwa [hHead]
      rw [callArguments?_eq_none hOwn hNe hCall,
        callArguments?_eq_none hOther (by simp [hNe]) hCallOther]

/-! ### Definitions -/

theorem isMild_isAsciiWord : IsMild Text.isAsciiWord :=
  isMild_of_continuesWord fun _ => continuesWord_of_isAsciiWord

theorem isMild_startsIdentifier : IsMild Text.startsIdentifier :=
  isMild_of_continuesWord fun _ hc =>
    continuesWord_of_isAsciiWord (isAsciiWord_of_startsIdentifier hc)

theorem Remarked.identifier?_eq (h : Remarked p text other) :
    identifier? other = identifier? text := by
  obtain ⟨remark, hRemark, rfl⟩ := h
  cases text with
  | nil =>
    obtain ⟨c, rest, rfl, hc⟩ := hRemark.not_head isMild_startsIdentifier.isSolid
    simp [Elixir.identifier?, hc]
  | cons c text =>
    have hRest : Remarked p text (text ++ remark) := ⟨remark, hRemark, rfl⟩
    rw [List.cons_append, Elixir.identifier?, Elixir.identifier?,
      hRest.takeWhile isMild_isAsciiWord.isSolid]

theorem identifier?_eq_some {name : List Char} (h : identifier? text = some name) :
    (∀ c ∈ name, continuesWord c = true) ∧ ∃ rest, text = name ++ rest := by
  cases text with
  | nil => cases h
  | cons c text =>
    rw [Elixir.identifier?] at h
    split at h
    · rename_i hStart
      cases h
      refine ⟨?_, text.dropWhile Text.isAsciiWord, ?_⟩
      · intro d hd
        rcases List.mem_cons.mp hd with rfl | hd
        · exact continuesWord_of_isAsciiWord (isAsciiWord_of_startsIdentifier hStart)
        · exact continuesWord_of_isAsciiWord (List.all_eq_true.mp List.all_takeWhile d hd)
      · rw [List.cons_append, List.takeWhile_append_dropWhile]
    · cases h

/-- A mark behind a name is cut off what follows the name, whatever stands at its end. -/
theorem exists_withMark (name rest : List Char) :
    ∃ mark more, rest = mark ++ more ∧ (∀ c ∈ mark, continuesWord c = true) ∧
      withMark name rest = name ++ mark ∧
      ∀ remark, IsRemark p remark → withMark name (rest ++ remark) = name ++ mark := by
  cases rest with
  | nil =>
    refine ⟨[], [], rfl, List.forall_mem_nil _, (List.append_nil name).symm, ?_⟩
    intro remark hRemark
    obtain ⟨c, tail, rfl, hBlank | rfl⟩ := hRemark.exists_cons
    · rw [List.nil_append, List.append_nil]
      refine withMark_cons_of_ne ?_ ?_ name tail
      all_goals
        rintro rfl
        revert hBlank
        decide
    · exact (List.append_nil name).symm
  | cons c rest =>
    by_cases hQuestion : c = '?'
    · subst hQuestion
      exact ⟨['?'], rest, rfl, by decide, rfl, fun _ _ => rfl⟩
    · by_cases hExclamation : c = '!'
      · subst hExclamation
        exact ⟨['!'], rest, rfl, by decide, rfl, fun _ _ => rfl⟩
      · have hName := withMark_cons_of_ne hQuestion hExclamation name
        refine ⟨[], c :: rest, rfl, List.forall_mem_nil _, ?_, fun remark _ => ?_⟩
        · rw [hName, List.append_nil]
        · rw [List.cons_append, hName, List.append_nil]

/-- One head of a definition is the other with a comment behind it. -/
def RemarkedHead (p : Char → Prop) (source : List Char) (head other : DefinitionHead) : Prop :=
  other.isPrivate = head.isPrivate ∧ other.name = head.name ∧ Remarked p head.rest other.rest ∧
    IsBehind source ('(' :: head.rest)

/-- Behind `def` stands a `p` in both texts or in neither. -/
theorem exists_behindPrivate (h : Remarked p text other) :
    ∃ isPrivate more moreOther,
      (text.head? == some 'p', if text.head? == some 'p' then text.tail else text) =
        (isPrivate, more) ∧
      (other.head? == some 'p', if other.head? == some 'p' then other.tail else other) =
        (isPrivate, moreOther) ∧
      Remarked p more moreOther ∧ IsBehind text more := by
  obtain ⟨remark, hRemark, rfl⟩ := h
  cases text with
  | nil =>
    obtain ⟨c, rest, rfl, hc⟩ := hRemark.not_head (isSolid_eq (d := 'p') (by decide) (by decide))
    have hHead : (some c == some 'p') = false := hc
    refine ⟨false, [], c :: rest, rfl, ?_, ⟨_, hRemark, rfl⟩, .refl _⟩
    rw [List.nil_append, List.head?_cons, hHead]
    rfl
  | cons c text =>
    by_cases hPrivate : c = 'p'
    · subst hPrivate
      exact ⟨true, text, text ++ remark, rfl, rfl, ⟨remark, hRemark, rfl⟩, ['p'], by decide, rfl⟩
    · have hHead : (some c == some 'p') = false := by simpa using hPrivate
      refine ⟨false, c :: text, c :: text ++ remark, ?_, ?_, ⟨remark, hRemark, rfl⟩, .refl _⟩
      · rw [List.head?_cons, hHead]
        rfl
      · rw [List.cons_append, List.head?_cons, hHead]
        rfl

theorem Remarked.rel_definitionHead? (h : Remarked p text other) :
    Option.Rel (RemarkedHead p text) (definitionHead? text) (definitionHead? other) := by
  have hDef : IsMild fun c => "def".toList.contains c := isMild_name (by decide)
  refine rel_bind (h.trimStart.stripPrefix? hDef.isSolid) ?_
  intro behind behindOther hOwn hBehind
  obtain ⟨isPrivate, more, moreOther, hSplit, hSplitOther, hMore, hWay⟩ :=
    exists_behindPrivate hBehind
  rw [Prod.mk.injEq] at hSplit hSplitOther
  simp only [hSplit.1, hSplitOther.1] at hSplit hSplitOther ⊢
  rw [hSplit.2, hSplitOther.2]
  refine hMore.afterBlanks?_bind ?_ fun comment => rfl
  intro cs csOther hCs hRest
  rw [hRest.identifier?_eq]
  cases hName : Elixir.identifier? cs with
  | none => exact .none
  | some name =>
    obtain ⟨hWord, rest, rfl⟩ := identifier?_eq_some hName
    obtain ⟨remark, hRemark, rfl⟩ := hRest
    obtain ⟨mark, inner, rfl, hMark, hFull, hFullOther⟩ := exists_withMark (p := p) name rest
    have hFullName : withMark name (((name ++ (mark ++ inner)) ++ remark).drop name.length) =
        name ++ mark := by
      rw [List.append_assoc, List.drop_left]
      exact hFullOther remark hRemark
    have hDrop : (name ++ (mark ++ inner)).drop (name ++ mark).length = inner := by
      rw [← List.append_assoc, List.drop_left]
    have hDropOther : (name ++ (mark ++ inner) ++ remark).drop (name ++ mark).length =
        inner ++ remark := by
      rw [← List.append_assoc name, List.append_assoc (name ++ mark), List.drop_left]
    simp only [Option.bind_eq_bind, Option.bind_some, List.drop_left, hFull, hFullName, hDrop,
      hDropOther]
    have hParenthesis : IsSolid fun c => "(".toList.contains c :=
      isSolid_of_list (by decide)
    refine rel_bind (Remarked.stripPrefix? ⟨remark, hRemark, rfl⟩ hParenthesis) ?_
    intro own ownOther hOpening hOwnRest
    have hInner : inner = '(' :: own :=
      (List.isPrefixOf?_eq_some_iff_append_eq.mp hOpening).symm
    have hNameWay : IsBehind (name ++ (mark ++ inner)) inner := by
      refine ⟨name ++ mark, ?_, (List.append_assoc ..).symm⟩
      intro c hc
      have hChar : continuesWord c = true := (List.mem_append.mp hc).elim (hWord c) (hMark c)
      exact ⟨isPlain_of_continuesWord hChar, bracketStep_of_continuesWord hChar⟩
    have hDefWay := (IsBehind.trimStart text).trans (.stripPrefix? hDef hOwn)
    have hWhole := (hDefWay.trans hWay).trans ((IsBehind.afterBlanks? hCs).trans hNameWay)
    exact .some ⟨rfl, rfl, hOwnRest, hInner ▸ hWhole⟩

theorem RemarkedHead.arguments?_eq {head other : DefinitionHead}
    (h : RemarkedHead p text head other) (hWhole : IsWhole text) :
    other.arguments? = head.arguments? := by
  obtain ⟨-, -, ⟨remark, hRemark, hRest⟩, hBehind⟩ := h
  obtain ⟨closed, hClosed⟩ := hWhole.exists_beforeClosing? hBehind
  have hOther : beforeClosing? other.rest = some closed := by
    rw [hRest]
    exact beforeClosing?_go_append hClosed remark
  rw [DefinitionHead.arguments?, DefinitionHead.arguments?, hClosed, hOther]

/-! ### Modules -/

theorem Remarked.isLineEnd_eq (hp : ∀ c, p c → c ≠ '\n') (h : Remarked p text other)
    (hCode : EndsInCode text) : isLineEnd other = isLineEnd text := by
  obtain ⟨remark, hRemark, rfl⟩ := h
  have hRest : EndsInCode (Text.trimStart text) := (IsBehind.trimStart text).endsInCode hCode
  rw [Elixir.isLineEnd, Elixir.isLineEnd, Text.trimStart, List.dropWhile_append]
  cases hText : Text.trimStart text with
  | nil =>
    obtain ⟨comment, hComment, hTrim⟩ := hRemark.trimStart
    have hNoBreak : '\n' ∉ comment := fun hBreak => hp _ (hComment _ hBreak) rfl
    rw [Text.trimStart] at hText hTrim
    rw [hText, List.isEmpty_nil, if_pos rfl, hTrim]
    simp [hNoBreak]
  | cons c rest =>
    have hHash : (c == '#') = false := by
      rw [← Bool.not_eq_true]
      intro hc
      rw [hText, eq_of_beq hc] at hRest
      cases hRest
    rw [Text.trimStart] at hText
    simp [hText, hHash]

theorem isMild_isWord : IsMild Text.isWord :=
  isMild_of_not_isBlank (fun _ => Text.not_isBlank_of_isWord) (by decide)

theorem isMild_moduleNameChar : IsMild fun c => Text.isWord c || c == '.' := by
  intro c hc
  rcases (Bool.or_eq_true _ _).mp hc with hWord | hDot
  · exact isMild_isWord c hWord
  · rw [eq_of_beq hDot]
    decide

theorem Remarked.moduleOpening?_eq (hp : ∀ c, p c → c ≠ '\n') (h : Remarked p text other)
    (hCode : EndsInCode text) : moduleOpening? other = moduleOpening? text := by
  have hModule : IsMild fun c => "defmodule".toList.contains c := isMild_name (by decide)
  have hDo : IsMild fun c => "do".toList.contains c := isMild_name (by decide)
  refine (eq_of_rel ?_).symm
  refine rel_bind (h.trimStart.stripPrefix? hModule.isSolid) ?_
  intro behind behindOther hOwn hBehind
  refine hBehind.afterBlanks?_bind ?_ ?_
  · intro cs csOther hCs hRest
    refine (hRest.dropWhile isMild_moduleNameChar.isSolid).afterBlanks?_bind ?_ ?_
    · intro rest restOther hGap hMore
      refine rel_bind (hMore.stripPrefix? hDo.isSolid) ?_
      intro last lastOther hLast hLine
      have hStart := (IsBehind.trimStart text).trans (.stripPrefix? hModule hOwn)
      have hName := (IsBehind.afterBlanks? hCs).trans (.dropWhile isMild_moduleNameChar cs)
      have hEnd := (IsBehind.afterBlanks? hGap).trans (.stripPrefix? hDo hLast)
      have hLastCode := ((hStart.trans hName).trans hEnd).endsInCode hCode
      rw [hRest.takeWhile isMild_moduleNameChar.isSolid, hLine.isLineEnd_eq hp hLastCode]
      exact rel_of_eq rfl
    · intro comment
      rfl
  · intro comment
    rfl

theorem Remarked.advance_eq (hp : ∀ c, p c → c ≠ '\n') (h : Remarked p text other)
    (hCode : EndsInCode text) (tracker : BlockTracker) :
    tracker.advance other = tracker.advance text := by
  rw [BlockTracker.advance, BlockTracker.advance, BlockTracker.opened?, BlockTracker.opened?,
    h.moduleOpening?_eq hp hCode, h.blockDelta_eq hCode]

/-! ### Names of macros -/

theorem isMild_macroNameChar : IsMild fun c => Text.isAsciiLower c || c == '_' :=
  isMild_of (by decide) (by decide)

theorem Remarked.macroName?_eq (h : Remarked p text other) :
    macroName? other = macroName? text := by
  have hChars := isMild_macroNameChar.isSolid
  have hRest := (h.trimStart.dropWhile hChars).head?_any isMild_isWord.isSolid
  simp only [Elixir.macroName?, h.trimStart.takeWhile hChars]
  cases (Text.trimStart text).takeWhile fun c => Text.isAsciiLower c || c == '_' with
  | nil => rfl
  | cons c name => simp only [hRest]

theorem continuesWord_of_macroName? {name : List Char} (h : macroName? text = some name) :
    ∀ c ∈ name, continuesWord c = true := by
  have hName : name = (Text.trimStart text).takeWhile fun c => Text.isAsciiLower c || c == '_' := by
    rw [Elixir.macroName?] at h
    cases hTake : (Text.trimStart text).takeWhile fun c => Text.isAsciiLower c || c == '_' with
    | nil =>
      rw [hTake] at h
      cases h
    | cons c rest =>
      simp only [hTake] at h
      split at h
      · cases h
      · exact (Option.some.inj h).symm
  intro c hc
  rw [hName] at hc
  have hChar := List.all_eq_true.mp List.all_takeWhile c hc
  rw [Bool.or_eq_true] at hChar
  refine continuesWord_of_isAsciiWord (isAsciiWord_of_startsIdentifier ?_)
  rw [Text.startsIdentifier, Bool.or_eq_true]
  exact hChar

theorem isSome_callArguments? {name : String} {rest : List Char}
    (hRest : Text.stripPrefix? name (Text.trimStart text) = some rest) :
    (callArguments? text name).isSome =
      (rest.isEmpty || rest.head? == some ' ' || rest.head? == some '(') := by
  simp only [callArguments?, hRest, Option.bind_eq_bind, Option.bind_some]
  cases rest.isEmpty || rest.head? == some ' ' || rest.head? == some '(' with
  | false => rfl
  | true =>
    simp only [Bool.not_true, Bool.false_eq_true, if_false]
    split <;> rfl

/-- With something behind the name, it is a call in both texts or in neither. -/
theorem Remarked.isSome_callArguments?_eq (h : Remarked p text other) {name : String}
    (hName : ∀ c ∈ name.toList, continuesWord c = true)
    (hRest : Text.stripPrefix? name (Text.trimStart text) ≠ some []) :
    (callArguments? other name).isSome = (callArguments? text name).isSome := by
  have hRel := h.trimStart.stripPrefix? (isMild_name hName).isSolid
  cases hOwn : Text.stripPrefix? name (Text.trimStart text) with
  | none =>
    rw [hOwn] at hRel
    rw [callArguments?, callArguments?, hOwn, eq_none_of_rel hRel]
  | some rest =>
    rw [hOwn] at hRel hRest
    obtain ⟨_, hOther, remark, hRemark, rfl⟩ := exists_of_rel hRel
    rw [isSome_callArguments? hOwn, isSome_callArguments? hOther]
    cases rest with
    | nil => exact absurd rfl hRest
    | cons c rest => rfl

/-! ### Calls inside a line -/

theorem callsOf_go_eq_nil {name : String} {cs : List Char}
    (h : ∀ c ∈ cs, isClosing c = false) (previous : Option Char) :
    callsOf.go name previous cs = [] := by
  induction cs generalizing previous with
  | nil => rfl
  | cons c cs ih =>
    have hInner : (Text.stripPrefix? name (c :: cs) >>= Text.stripPrefix? "(" >>=
        beforeClosing?) = none := by
      simp only [Option.bind_eq_bind, Option.bind_eq_none_iff]
      intro inner hOpening
      obtain ⟨rest, hName, hRest⟩ := Option.bind_eq_some_iff.mp hOpening
      refine beforeClosing?_go_eq_none fun d hd => h d ?_
      rw [← List.isPrefixOf?_eq_some_iff_append_eq.mp hName,
        ← List.isPrefixOf?_eq_some_iff_append_eq.mp hRest]
      exact List.mem_append_right _ (List.mem_append_right _ hd)
    rw [callsOf.go, ih fun d hd => h d (List.mem_cons_of_mem _ hd), hInner]
    simp

theorem beforeClosing?_append_eq {rest : List Char} (h : ∀ c ∈ rest, isClosing c = false)
    (cs : List Char) : beforeClosing? (cs ++ rest) = beforeClosing? cs := by
  cases hOwn : beforeClosing? cs with
  | some inner => exact beforeClosing?_go_append hOwn rest
  | none =>
    cases hAll : beforeClosing? (cs ++ rest) with
    | none => rfl
    | some inner =>
      have hInner := beforeClosing?_go_of_append h hAll
      rw [← beforeClosing?, hOwn] at hInner
      cases hInner

theorem IsRemark.not_isClosing (hp : ∀ c, p c → isClosing c = false) {remark : List Char}
    (h : IsRemark p remark) : ∀ c ∈ remark, isClosing c = false := by
  obtain ⟨blanks, comment, hBlanks, hComment, rfl⟩ := h
  intro c hc
  rcases List.mem_append.mp hc with hc | hc
  · exact EndsCall.not_isClosing (.inl (hBlanks c hc))
  · rcases List.mem_cons.mp hc with rfl | hc
    · rfl
    · exact hp c (hComment c hc)

/-- A comment without closing brackets closes no call, so that every call stands before it. -/
theorem Remarked.callsOf_eq (hp : ∀ c, p c → isClosing c = false) (h : Remarked p text other)
    {name : String} (hName : ∀ c ∈ name.toList, continuesWord c = true) :
    callsOf name other = callsOf name text := by
  obtain ⟨remark, hRemark, rfl⟩ := h
  have hClosing := hRemark.not_isClosing hp
  rw [callsOf, callsOf]
  generalize (none : Option Char) = previous
  induction text generalizing previous with
  | nil => rw [List.nil_append, callsOf_go_eq_nil hClosing, callsOf.go]
  | cons c text ih =>
    have hInner : (Text.stripPrefix? name (c :: text ++ remark) >>= Text.stripPrefix? "(" >>=
          beforeClosing?) =
        (Text.stripPrefix? name (c :: text) >>= Text.stripPrefix? "(" >>= beforeClosing?) := by
      have hParenthesis : IsSolid fun c => "(".toList.contains c := isSolid_of_list (by decide)
      have hBoth : Remarked p (c :: text) (c :: text ++ remark) := ⟨remark, hRemark, rfl⟩
      have hOpening := rel_bind (hBoth.stripPrefix? (isMild_name hName).isSolid)
        fun _ _ _ hRest => hRest.stripPrefix? hParenthesis
      refine (eq_of_rel (rel_bind hOpening ?_)).symm
      rintro rest _ - ⟨more, hMore, rfl⟩
      exact rel_of_eq (beforeClosing?_append_eq (hMore.not_isClosing hp) rest).symm
    rw [List.cons_append, callsOf.go, callsOf.go, ih, ← List.cons_append, hInner]

end Reading

end PhoenixLens.Elixir
