import PhoenixLens.Elixir.Definition
import PhoenixLens.Proofs.Elixir.Argument

/-!
# Lines with one call

A line names what is called, with its arguments behind a blank or in parentheses, and may open a
block. The line stands for itself and gives its arguments back.
-/

namespace PhoenixLens.Elixir

/-! ### Names at the beginning of a line -/

section

variable {name tail rest : List Char} {other : String}

/-- A word at the beginning of a text is not mistaken for another one: behind that one the word
would go on. -/
theorem head?_of_stripPrefix? (hName : ∀ c ∈ name, continuesWord c = true)
    (hTail : ∀ c ∈ tail.head?, c = ' ' ∨ c = '(')
    (hOther : ∀ c ∈ other.toList, continuesWord c = true) (hNe : name ≠ other.toList)
    (h : Text.stripPrefix? other (name ++ tail) = some rest) :
    ∃ c, rest.head? = some c ∧ continuesWord c = true := by
  rw [Text.stripPrefix?, List.isPrefixOf?_eq_some_iff_append_eq] at h
  rcases List.append_eq_append_iff.mp h with ⟨more, hMore, hRest⟩ | ⟨more, hMore, hRest⟩
  · cases more with
    | nil => exact absurd (hMore.trans (List.append_nil _)) hNe
    | cons c more =>
      refine ⟨c, by rw [hRest]; rfl, hName c ?_⟩
      rw [hMore]
      exact List.mem_append_right _ List.mem_cons_self
  · cases more with
    | nil => exact absurd ((hMore.trans (List.append_nil _)).symm) hNe
    | cons c more =>
      have hWord : continuesWord c = true := by
        refine hOther c ?_
        rw [hMore]
        exact List.mem_append_right _ List.mem_cons_self
      rcases hTail c (by rw [hRest]; rfl) with rfl | rfl <;> cases hWord

theorem callArguments?_of_name_ne (hName : IsWordRun name) (hTail : ∀ c ∈ tail.head?, c = ' ' ∨ c = '(')
    (hOther : ∀ c ∈ other.toList, continuesWord c = true) (hNe : name ≠ other.toList) :
    callArguments? (name ++ tail) other = none := by
  have hStart : Text.trimStart (name ++ tail) = name ++ tail :=
    hName.trimStart_append (List.forall_mem_nil _) tail
  rw [callArguments?, hStart]
  cases hStrip : Text.stripPrefix? other (name ++ tail) with
  | none => rfl
  | some rest =>
    obtain ⟨c, hHead, hWord⟩ := head?_of_stripPrefix? hName.all hTail hOther hNe hStrip
    have hNot {d : Char} (hd : continuesWord d = false) : c ≠ d := by
      rintro rfl
      rw [hWord] at hd
      cases hd
    have hSome : rest ≠ [] := by
      rintro rfl
      cases hHead
    have hBegins : (rest.isEmpty || rest.head? == some ' ' || rest.head? == some '(') = false := by
      simp [hSome, hHead, hNot (show continuesWord ' ' = false by decide),
        hNot (show continuesWord '(' = false by decide)]
    simp only [Option.bind_eq_bind, Option.bind_some, hBegins]
    rfl

/-- Only `defmodule` begins a module. -/
theorem moduleOpening?_eq_none (hName : IsWordRun name)
    (hTail : ∀ c ∈ tail.head?, c = ' ' ∨ c = '(') (hNe : name ≠ "defmodule".toList)
    {blanks : List Char} (hBlanks : ∀ c ∈ blanks, Text.isBlank c = true) :
    moduleOpening? (blanks ++ (name ++ tail)) = none := by
  rw [moduleOpening?, hName.trimStart_append hBlanks]
  cases hStrip : Text.stripPrefix? "defmodule" (name ++ tail) with
  | none => rfl
  | some rest =>
    obtain ⟨c, hHead, hWord⟩ := head?_of_stripPrefix? hName.all hTail (by decide) hNe hStrip
    cases rest with
    | nil => cases hHead
    | cons d rest =>
      cases hHead
      simp [afterBlanks?, not_isBlank_of_continuesWord hWord]

/-- A line that begins with a word is no documentation. -/
theorem docOf?_eq_none (hName : IsWordRun name) {blanks : List Char}
    (hBlanks : ∀ c ∈ blanks, Text.isBlank c = true) (n : Nat) (heredoc : Option (List Char)) :
    docOf? { line := n, text := blanks ++ (name ++ tail), heredoc } = none := by
  have hStart := hName.trimStart_append hBlanks tail
  obtain ⟨first, more, rfl, hFirst⟩ := hName.first
  have hSign : '@' ≠ first := by
    rintro rfl
    cases hFirst
  rw [docOf?, hStart, List.cons_append, Text.stripPrefix?_eq_none rfl hSign]
  rfl

end

/-! ### Ends of lines -/

namespace IsExpression

variable {commas : Bool} {text : List Char}

theorem opensDoBlock_do (h : IsExpression commas text) (opens : Bool) :
    opensDoBlock (text ++ if opens then " do".toList else []) = opens := by
  cases opens with
  | false =>
    rw [if_neg Bool.false_ne_true, List.append_nil]
    exact h.noDo
  | true =>
    have hCode : codeOf (text ++ " do".toList) = (codeOf text ++ " d".toList) ++ ['o'] := by
      rw [List.append_assoc]
      exact h.balanced.codeOf_go_eq _
    rw [if_pos rfl, opensDoBlock_iff, hCode, Text.trimEnd, Text.dropEndWhile_concat_of_neg (by decide)]
    exact ⟨codeOf text ++ [' '], by simp, by simp⟩

end IsExpression

/-! ### Calls -/

structure CallLine where
  name : String
  arguments : List (List Char)
  parens : Bool := false
  opens : Bool := false

namespace CallLine

def body (line : CallLine) : List Char := Text.join ", ".toList line.arguments

def tail (line : CallLine) : List Char :=
  if line.parens then '(' :: line.body ++ [')']
  else if line.arguments.isEmpty then [] else ' ' :: line.body

def call (line : CallLine) : List Char := line.name.toList ++ line.tail

def text (line : CallLine) : List Char := line.call ++ if line.opens then " do".toList else []

structure WellFormed (line : CallLine) : Prop where
  name : IsWordRun line.name.toList
  isIdle : IsIdle line.name.toList
  arguments : ∀ t ∈ line.arguments, IsArgument t
  /-- What begins with a parenthesis behind a blank would be read as the list of arguments. -/
  noParen : line.parens = false → ∀ t ∈ line.arguments.head?, t.head? ≠ some '('

variable {line : CallLine}

theorem text_eq (line : CallLine) :
    line.text = line.name.toList ++ (line.tail ++ if line.opens then " do".toList else []) := by
  rw [text, call, List.append_assoc]

theorem head?_tail (line : CallLine) :
    ∀ c ∈ (line.tail ++ if line.opens then " do".toList else []).head?, c = ' ' ∨ c = '(' := by
  intro c hc
  rw [tail] at hc
  split at hc
  · cases hc
    exact .inr rfl
  · split at hc
    · split at hc
      · cases hc
        exact .inl rfl
      · cases hc
    · cases hc
      exact .inl rfl

/-! #### Arguments that are given back -/

/-- The arguments can be told apart: each closes its strings and brackets and has no comma outside of
them. Without parentheses the first must not begin with one, and the last must not end in a `do`
unless the line adds one. -/
structure Separates (line : CallLine) : Prop where
  name : ∃ c rest, line.name.toList = c :: rest ∧ Text.isBlank c = false
  arguments_ne_nil : line.arguments ≠ []
  arguments : ∀ t ∈ line.arguments, IsBracketed false .code 0 t ∧ Text.IsTrimmed t
  noParen : line.parens = false → ∀ t ∈ line.arguments.head?, t.head? ≠ some '('
  noDo : line.parens = false → line.opens = false → ∀ t ∈ line.arguments.getLast?, ¬EndsInDo t

namespace Separates

theorem isBracketed_body (h : line.Separates) : IsBracketed true .code 0 line.body := by
  obtain ⟨t, texts, hArguments⟩ := List.exists_cons_of_ne_nil h.arguments_ne_nil
  rw [CallLine.body, hArguments]
  refine .join fun u hu => ?_
  rw [← hArguments] at hu
  exact (h.arguments u hu).1

theorem body_begins (h : line.Separates) :
    ∃ t ∈ line.arguments.head?, ∃ rest, line.body = t ++ rest := by
  obtain ⟨t, texts, hArguments⟩ := List.exists_cons_of_ne_nil h.arguments_ne_nil
  refine ⟨t, by rw [hArguments]; rfl, ?_⟩
  rw [CallLine.body, hArguments]
  cases texts with
  | nil => exact ⟨[], by rw [Text.join_singleton, List.append_nil]⟩
  | cons u texts =>
    rw [Text.join_cons _ _ (List.cons_ne_nil _ _), List.append_assoc]
    exact ⟨_, rfl⟩

theorem body_ends (h : line.Separates) :
    ∃ t ∈ line.arguments.getLast?, line.body = t ∨ ∃ front, line.body = front ++ ' ' :: t := by
  have hNil := h.arguments_ne_nil
  rw [CallLine.body]
  generalize line.arguments = arguments at hNil
  induction arguments using List.reverseRecOn with
  | nil => exact absurd rfl hNil
  | append_singleton texts t _ =>
    refine ⟨t, List.getLast?_concat, ?_⟩
    by_cases hOne : texts = []
    · exact .inl (by rw [hOne, List.nil_append, Text.join_singleton])
    · exact .inr ⟨Text.join ", ".toList texts ++ [','], by rw [Text.join_concat _ hOne]; simp⟩

theorem isTrimmed_body (h : line.Separates) : Text.IsTrimmed line.body := by
  obtain ⟨first, hFirst, rest, hBegin⟩ := h.body_begins
  obtain ⟨last, hLast, hEnd⟩ := h.body_ends
  obtain ⟨c, more, rfl, hHead⟩ := (h.arguments _ (List.mem_of_mem_head? hFirst)).2.first
  obtain ⟨before, d, rfl, hTail⟩ := (h.arguments _ (List.mem_of_mem_getLast? hLast)).2.last
  refine ⟨⟨c, more ++ rest, by rw [hBegin, List.cons_append], hHead⟩, ?_⟩
  rcases hEnd with hWhole | ⟨front, hBehind⟩
  · exact ⟨before, d, hWhole, hTail⟩
  · exact ⟨front ++ ' ' :: before, d, by rw [hBehind]; simp, hTail⟩

theorem stripTrailingDo_body (h : line.Separates) (hParens : line.parens = false) :
    stripTrailingDo (line.body ++ if line.opens then " do".toList else []) = line.body := by
  obtain ⟨last, hLast, hEnd⟩ := h.body_ends
  obtain ⟨hBracketed, hTrimmed⟩ := h.arguments last (List.mem_of_mem_getLast? hLast)
  obtain ⟨before, c, rfl, hBlank⟩ := hTrimmed.last
  have hComma : c ≠ ',' := hBracketed.last_ne_comma isReached_code
  have hText : ∃ front, line.body = front ++ [c] := by
    rcases hEnd with hWhole | ⟨front, hBehind⟩
    · exact ⟨before, hWhole⟩
    · exact ⟨front ++ ' ' :: before, by rw [hBehind]; simp⟩
  obtain ⟨front, hText⟩ := hText
  refine stripTrailingDo_do hText hBlank hComma fun hOpens hDo => ?_
  refine h.noDo hParens hOpens _ hLast ?_
  rcases hEnd with hWhole | ⟨front, hBehind⟩
  · rwa [hWhole] at hDo
  · rw [hBehind] at hDo
    exact hDo.of_behind (by decide)

theorem noParen_body (h : line.Separates) (hParens : line.parens = false) :
    Text.stripPrefix? "(" line.body = none := by
  obtain ⟨t, hFirst, rest, hBody⟩ := h.body_begins
  obtain ⟨c, more, rfl, -⟩ := (h.arguments t (List.mem_of_mem_head? hFirst)).2.first
  rw [hBody, List.cons_append]
  refine Text.stripPrefix?_eq_none rfl ?_
  rintro rfl
  exact h.noParen hParens _ hFirst rfl

theorem beforeClosing?_body (h : line.Separates) (rest : List Char) :
    beforeClosing? (line.body ++ ')' :: rest) = some line.body :=
  h.isBracketed_body.beforeClosing?_go_eq rest

theorem splitArguments_body (h : line.Separates) : splitArguments line.body = line.arguments :=
  splitArguments_join fun t ht => ⟨(h.arguments t ht).1.isClosed, (h.arguments t ht).2⟩

theorem trimStart_text (h : line.Separates) : Text.trimStart line.text = line.text := by
  obtain ⟨c, more, hName, hBlank⟩ := h.name
  rw [line.text_eq, hName, List.cons_append, Text.trimStart,
    List.dropWhile_cons_of_neg (by simp [hBlank])]

theorem callArguments?_text (h : line.Separates) {blanks : List Char}
    (hBlanks : ∀ c ∈ blanks, Text.isBlank c = true) :
    callArguments? (blanks ++ line.text) line.name = some line.body := by
  have hHead := line.head?_tail
  have hStart : Text.trimStart (blanks ++ line.text) = line.text := by
    rw [Text.trimStart, List.dropWhile_append_of_pos hBlanks]
    exact h.trimStart_text
  rw [callArguments?, hStart, line.text_eq, Text.stripPrefix?_append]
  simp only [Option.bind_eq_bind, Option.bind_some]
  generalize hRest : line.tail ++ (if line.opens then " do".toList else []) = rest at hHead
  have hBegins : (rest.isEmpty || rest.head? == some ' ' || rest.head? == some '(') = true := by
    cases rest with
    | nil => rfl
    | cons c rest => rcases hHead c rfl with rfl | rfl <;> rfl
  rw [hBegins]
  rw [CallLine.tail] at hRest
  cases hParens : line.parens with
  | true =>
    have hInner : Text.stripPrefix? "(" ('(' :: line.body ++ [')']) = some (line.body ++ [')']) :=
      Text.stripPrefix?_append "(" _
    have hTrimmed : Text.IsTrimmed ('(' :: line.body ++ [')']) :=
      ⟨⟨'(', _, rfl, by decide⟩, '(' :: line.body, ')', rfl, by decide⟩
    have hNoDo : ¬EndsInDo ('(' :: line.body ++ [')']) :=
      not_endsInDo_of_last (List.nil_append [')']).symm (by decide) ('(' :: line.body)
    have hStrip : stripTrailingDo (('(' :: line.body ++ [')']) ++
        if line.opens then " do".toList else []) = '(' :: line.body ++ [')'] :=
      stripTrailingDo_do rfl (by decide) (by decide) fun _ => hNoDo
    rw [hParens, if_pos rfl] at hRest
    rw [← hRest, (isTrimmed_append_do hTrimmed line.opens).trim_eq, hStrip]
    simp only [hInner]
    rw [h.beforeClosing?_body [], Option.getD_some, h.isTrimmed_body.trim_eq]
    rfl
  | false =>
    have hSpace : ∀ c ∈ [' '], Text.isBlank c = true := by decide
    have hTrim : Text.trim rest = line.body ++ if line.opens then " do".toList else [] := by
      rw [hParens, if_neg Bool.false_ne_true, if_neg (by simp [h.arguments_ne_nil])] at hRest
      rw [← hRest]
      exact (isTrimmed_append_do h.isTrimmed_body line.opens).trim_append hSpace
    rw [hTrim, h.stripTrailingDo_body hParens]
    simp only [h.noParen_body hParens]
    rfl

/-- With and without parentheses and a `do`, at any indentation, the arguments of a call are read
back, and the search for the closing parenthesis ends where they end. -/
theorem readsBack (h : line.Separates) {blanks : List Char}
    (hBlanks : ∀ c ∈ blanks, Text.isBlank c = true) :
    (callArguments? (blanks ++ line.text) line.name).map splitArguments = some line.arguments ∧
      ∀ rest, beforeClosing? (line.body ++ ')' :: rest) = some line.body := by
  rw [h.callArguments?_text hBlanks, Option.map_some, h.splitArguments_body]
  exact ⟨rfl, h.beforeClosing?_body⟩

/-- Commas, brackets and quotes in strings in brackets. -/
theorem readsBack_nested :
    let line : CallLine :=
      { name := "plug", arguments := ["\"a, (b\"".toList, "['],', ~w(x), \"\\\",(\"]".toList,
          "&f.(&1, ')')".toList], opens := true }
    line.text = "plug \"a, (b\", ['],', ~w(x), \"\\\",(\"], &f.(&1, ')') do".toList ∧
      line.Separates ∧ (∀ c ∈ "  ".toList, Text.isBlank c = true) ∧
      (callArguments? ("  ".toList ++ line.text) line.name).map splitArguments =
        some line.arguments ∧
      ∀ rest, beforeClosing? (line.body ++ ')' :: rest) = some line.body := by
  intro line
  have hArguments : ∀ t ∈ line.arguments,
      balances false .code 0 t = true ∧ Text.IsTrimmed t := by decide
  have hSeparates : line.Separates :=
    { name := ⟨'p', "lug".toList, by decide, by decide⟩
      arguments_ne_nil := by decide
      arguments := fun t ht =>
        ⟨(isBalanced_of_balances (hArguments t ht).1).isBracketed, (hArguments t ht).2⟩
      noParen := by decide
      noDo := fun _ hOpens => by cases hOpens }
  exact ⟨by decide, hSeparates, by decide, hSeparates.readsBack (by decide)⟩

end Separates

namespace WellFormed

theorem isPhrase_body (h : line.WellFormed) (hSome : line.arguments ≠ []) :
    IsPhrase true line.body := by
  obtain ⟨t, texts, hArguments⟩ := List.exists_cons_of_ne_nil hSome
  rw [CallLine.body, hArguments]
  exact .join (hArguments ▸ h.arguments)

theorem isPhrase (h : line.WellFormed) : IsPhrase true line.call := by
  rw [CallLine.call, CallLine.tail]
  cases line.parens with
  | true => exact .enclosed (.inr ⟨h.name, h.isIdle⟩) rfl rfl (isInner_join h.arguments)
  | false =>
    by_cases hNone : line.arguments = []
    · simp only [hNone, List.isEmpty_nil, if_neg Bool.false_ne_true, if_true, List.append_nil]
      exact .word h.name h.isIdle
    · simp only [List.isEmpty_eq_false_iff.mpr hNone, if_neg Bool.false_ne_true]
      refine (h.isPhrase_body hNone).behind (.word h.name) ?_
      rw [codeOf_word h.name]
      exact .word h.name h.isIdle

/-- With any number of blanks before it, the line stands for itself and opens the block that it
says. -/
theorem isOwnLine (h : line.WellFormed) (width : Nat) :
    IsOwnLine (List.replicate width ' ' ++ line.text) (line.opens.toNat, 0) := by
  rw [CallLine.text]
  cases line.opens with
  | false =>
    have hLine := h.isPhrase.isOwnLine width
    rw [h.isPhrase.blockDelta_eq] at hLine
    rwa [if_neg Bool.false_ne_true, List.append_nil]
  | true =>
    rw [if_pos rfl, ← List.append_assoc]
    exact .of_opening (h.isPhrase.isPiece.indent width)

theorem isTrimmed (h : line.WellFormed) : Text.IsTrimmed line.text :=
  isTrimmed_append_do h.isPhrase.trimmed line.opens

theorem opensDoBlock_text (h : line.WellFormed) : opensDoBlock line.text = line.opens :=
  h.isPhrase.opensDoBlock_do line.opens

theorem separates (h : line.WellFormed) (hSome : line.arguments ≠ []) : line.Separates where
  name := by
    obtain ⟨c, rest, hName, hFirst⟩ := h.name.first
    exact ⟨c, rest, hName, not_isBlank_of_continuesWord (continuesWord_of_startsWord hFirst)⟩
  arguments_ne_nil := hSome
  arguments t ht := ⟨(h.arguments t ht).balanced.isBracketed, (h.arguments t ht).trimmed⟩
  noParen := h.noParen
  noDo _ _ t ht := (h.arguments t (List.mem_of_mem_getLast? ht)).not_endsInDo

theorem callArguments?_text (h : line.WellFormed) :
    callArguments? line.text line.name = some line.body := by
  by_cases hNone : line.arguments = []
  · have hBody : line.body = [] := by rw [CallLine.body, hNone]; rfl
    have hStart : Text.trimStart line.text = line.text := h.isTrimmed.trimStart_eq
    rw [callArguments?, hStart, line.text_eq, Text.stripPrefix?_append, CallLine.tail, hNone, hBody]
    cases line.parens <;> cases line.opens <;> rfl
  · exact (h.separates hNone).callArguments?_text (List.forall_mem_nil _)

theorem splitArguments_body (h : line.WellFormed) : splitArguments line.body = line.arguments :=
  splitArguments_join_eq h.arguments

theorem callArguments?_other (h : line.WellFormed) {other : String}
    (hOther : ∀ c ∈ other.toList, continuesWord c = true) (hNe : line.name.toList ≠ other.toList) :
    callArguments? line.text other = none := by
  rw [line.text_eq]
  exact callArguments?_of_name_ne h.name line.head?_tail hOther hNe

theorem moduleOpening?_text (h : line.WellFormed) (hName : line.name ≠ "defmodule")
    {blanks : List Char} (hBlanks : ∀ c ∈ blanks, Text.isBlank c = true) :
    moduleOpening? (blanks ++ line.text) = none := by
  rw [line.text_eq]
  exact moduleOpening?_eq_none h.name line.head?_tail (fun hSame => hName (String.toList_inj.mp hSame))
    hBlanks

theorem docOf?_text (h : line.WellFormed) {blanks : List Char}
    (hBlanks : ∀ c ∈ blanks, Text.isBlank c = true) (n : Nat) (heredoc : Option (List Char)) :
    docOf? { line := n, text := blanks ++ line.text, heredoc } = none := by
  rw [line.text_eq]
  exact docOf?_eq_none h.name hBlanks n heredoc

theorem takeWhile_text (h : line.WellFormed) :
    line.text.takeWhile (fun c => c != ' ' && c != '(') = line.name.toList := by
  rw [line.text_eq]
  refine Text.takeWhile_append_of_stop (fun c hc => ?_) fun c hc => ?_
  · have hWord := h.name.all c hc
    have hNot {d : Char} (hd : continuesWord d = false) : (c != d) = true := by
      rw [bne_iff_ne]
      rintro rfl
      rw [hWord] at hd
      cases hd
    rw [hNot (by decide), hNot (by decide)]
    rfl
  · rcases line.head?_tail c hc with rfl | rfl <;> rfl

end WellFormed

end CallLine

/-! ### Modules -/

/-- The name of a module: parts of ASCII letters, digits and underscores. -/
abbrev ModuleAlias :=
  { name : List Char // IsModule name ∧ ∀ c ∈ name, Text.isAsciiWord c = true ∨ c = '.' }

def moduleCall (name : ModuleAlias) : CallLine :=
  { name := "defmodule", arguments := [name.1], opens := true }

section

variable (name : ModuleAlias)

theorem moduleCall_text :
    (moduleCall name).text = "defmodule".toList ++ ' ' :: (name.1 ++ " do".toList) := by
  simp [moduleCall, CallLine.text, CallLine.call, CallLine.tail, CallLine.body, Text.join_singleton]

theorem moduleCall_wellFormed : (moduleCall name).WellFormed := by
  have hWord : IsWordRun "defmodule".toList ∧ IsIdle "defmodule".toList := by decide
  obtain ⟨c, rest, hName, hUpper⟩ := name.2.1.first
  refine ⟨hWord.1, hWord.2, ?_, fun _ => ?_⟩
  · exact List.forall_mem_singleton.mpr (.module name.2.1)
  · intro t ht
    cases ht
    rw [hName]
    rintro ⟨⟩
    cases hUpper

theorem moduleOpening?_moduleCall {blanks : List Char}
    (hBlanks : ∀ c ∈ blanks, Text.isBlank c = true) :
    moduleOpening? (blanks ++ (moduleCall name).text) = some name.1 := by
  have hStart : Text.trimStart (blanks ++ (moduleCall name).text) = (moduleCall name).text := by
    rw [Text.trimStart, List.dropWhile_append_of_pos hBlanks]
    exact (moduleCall_wellFormed name).isTrimmed.trimStart_eq
  obtain ⟨c, rest, hName, hUpper⟩ := name.2.1.first
  have hTrimmed : Text.trimStart (name.1 ++ " do".toList) = name.1 ++ " do".toList := by
    have hModule : IsArgument name.1 := .module name.2.1
    exact (isTrimmed_append_do hModule.trimmed true).trimStart_eq
  have hBehind : afterBlanks? (' ' :: (name.1 ++ " do".toList)) = some (name.1 ++ " do".toList) := by
    rw [afterBlanks?, if_pos (by decide), hTrimmed]
  have hChars : ∀ c ∈ name.1, (Text.isWord c || c == '.') = true := by
    intro c hc
    rcases name.2.2 c hc with hWord | rfl
    · rw [Text.isWord_of_isAsciiWord hWord, Bool.true_or]
    · decide
  have hStop : ∀ c ∈ " do".toList.head?, (Text.isWord c || c == '.') = false := by
    rintro c ⟨⟩
    decide
  rw [moduleOpening?, hStart, moduleCall_text, Text.stripPrefix?_append]
  simp only [Option.bind_eq_bind, Option.bind_some, hBehind, Text.takeWhile_append_of_stop hChars hStop,
    Text.dropWhile_append_of_stop hChars hStop]
  have hUpperFirst : name.1.head?.any Text.isAsciiUpper = true := by
    rw [hName]
    exact hUpper
  simp only [hUpperFirst]
  rfl

end

end PhoenixLens.Elixir
