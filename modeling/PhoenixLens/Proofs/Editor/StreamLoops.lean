import PhoenixLens.Editor.Diagnostics
import PhoenixLens.Proofs.Elixir.Balanced
import PhoenixLens.Proofs.Markup.Names
import PhoenixLens.Proofs.Markup.UseOffsets

/-!
# Loops over streams

The items of a stream need the variable of its loop as their identifiers. The check takes a loop for
one over a stream if no brace closes in the pattern of its items; behind another pattern it asks for
any identifier at all, as it does for lists.
-/

namespace PhoenixLens

open Elixir (IsBalanced isPlain bracketStep isOpening isClosing)
open Markup (AttributeName ClosedText LooseAttribute LooseAttributes NameMark OpenTag TagBlanks
  TagGap expressionEnd? filter_openTags find?_given find?_given?_toList find?_given_append lengthOf
  nameEndAt tagEnding)

/-! ### Expressions that close -/

/-- The search for the end of an expression passes over balanced text. -/
theorem Elixir.IsBalanced.expressionEnd?_go {commas : Bool} {state : Elixir.Quoting} {depth : Nat}
    {text : List Char} (h : IsBalanced commas state depth text) {outer : Nat} (hOuter : 0 < outer)
    (pos : Nat) (rest : List Char) :
    expressionEnd?.go state (depth + outer) pos (text ++ rest) =
      expressionEnd?.go .code outer (pos + Text.byteLength text) rest := by
  induction h generalizing pos with
  | nil => rw [Nat.zero_add]; rfl
  | quoted _ ih =>
    rw [List.cons_append, expressionEnd?.go, ih, Text.byteLength_cons, Nat.add_assoc]
    · rintro ⟨⟩
  | @opening c depth text hOpening _ ih =>
    rw [List.cons_append, expressionEnd?.go, if_pos hOpening, Nat.add_right_comm, ih,
      Text.byteLength_cons, Nat.add_assoc]
  | @closing c depth text hClosing _ ih =>
    have hDepth : ¬depth + 1 + outer ≤ 1 := by omega
    have hOne : depth + 1 + outer - 1 = depth + outer := by omega
    rw [List.cons_append, expressionEnd?.go,
      if_neg (by simp [Elixir.not_isOpening_of_isClosing hClosing]), if_pos hClosing,
      if_neg hDepth, hOne, ih, Text.byteLength_cons, Nat.add_assoc]
  | other hStep _ _ _ ih =>
    obtain ⟨hOpening, hClosing⟩ := Elixir.bracketStep_eq_zero_iff.mp hStep
    rw [List.cons_append, expressionEnd?.go, if_neg (by simp [hOpening]),
      if_neg (by simp [hClosing]), ih, Text.byteLength_cons, Nat.add_assoc]

theorem Elixir.IsBalanced.expressionEnd? {commas : Bool} {text : List Char}
    (h : IsBalanced commas .code 0 text) :
    expressionEnd? 0 ('{' :: (text ++ ['}'])) =
      some (Text.byteLength ('{' :: (text ++ ['}']))) := by
  have hGo := h.expressionEnd?_go Nat.one_pos 1 ['}']
  rw [Nat.zero_add] at hGo
  have hBraces : ('{' : Char).utf8Size = 1 ∧ ('}' : Char).utf8Size = 1 := ⟨rfl, rfl⟩
  change expressionEnd?.go .code 1 1 (text ++ ['}']) = _
  rw [hGo]
  change some (1 + Text.byteLength text + 1) = _
  simp only [Text.byteLength_cons, Text.byteLength_append, Text.byteLength_nil, hBraces]
  rw [← Nat.add_assoc, Nat.add_zero]

/-! ### Names -/

/-- White space in an expression. -/
abbrev Blanks := { blanks : List Char // ∀ c ∈ blanks, Text.isBlank c = true }

/-- The name of a variable or of a stream. -/
structure WrittenVariable where
  first : Char
  body : List Char
  mark : NameMark
  isFirst : Text.isWord first = true
  isBody : ∀ c ∈ body, Text.isWord c = true

namespace WrittenVariable

def text (name : WrittenVariable) : List Char := name.first :: (name.body ++ name.mark.1)

/-- The name begins with a small letter or underscore of ASCII and ends without a mark. -/
def isPlain (name : WrittenVariable) : Bool :=
  Text.startsIdentifier name.first && name.mark.1.isEmpty

end WrittenVariable

/-- Characters of a class without quotes, brackets and the sign of comments. -/
theorem isPlain_of {p : Char → Bool} (h : ∀ d ∈ "\"'#()[]\x7b\x7d".toList, p d = false) {c : Char}
    (hc : p c = true) : Elixir.isPlain c = true ∧ bracketStep c = 0 := by
  have hNot : c ∉ "\"'#()[]\x7b\x7d".toList := by
    intro hMem
    rw [h c hMem] at hc
    cases hc
  have hList : "\"'#()[]\x7b\x7d".toList = ['"', '\'', '#', '(', ')', '[', ']', '{', '}'] := rfl
  simp only [hList, List.mem_cons, List.not_mem_nil, or_false, not_or] at hNot
  simp [Elixir.isPlain, Elixir.isQuote, bracketStep, isOpening, isClosing, hNot]

namespace WrittenVariable

/-- What the names of variables consist of. -/
def isChar (c : Char) : Bool := Text.isWord c || c == '?' || c == '!'

theorem isChar_of_mem (name : WrittenVariable) : ∀ c ∈ name.text, isChar c = true := by
  have hMarks : ∀ mark ∈ [[], ['?'], ['!']], ∀ c ∈ mark, isChar c = true := by decide
  intro c hc
  rcases List.mem_cons.mp hc with rfl | hRest
  · simp [isChar, name.isFirst]
  · rcases List.mem_append.mp hRest with hBody | hEnd
    · simp [isChar, name.isBody c hBody]
    · exact hMarks name.mark.1 name.mark.2 c hEnd

theorem isPlain_of_mem (name : WrittenVariable) :
    ∀ c ∈ name.text, Elixir.isPlain c = true ∧ bracketStep c = 0 :=
  fun c hc => isPlain_of (p := isChar) (by decide) (name.isChar_of_mem c hc)

theorem isTrimmed (name : WrittenVariable) : Text.IsTrimmed name.text := by
  refine .of_all (List.cons_ne_nil _ _) fun c hc => ?_
  have hChar := name.isChar_of_mem c hc
  simp only [isChar, Bool.or_eq_true, beq_iff_eq] at hChar
  rcases hChar with (hWord | rfl) | rfl
  · exact Text.not_isBlank_of_isWord hWord
  · decide
  · decide

end WrittenVariable

theorem Blanks.isPlain_of_mem (blanks : Blanks) :
    ∀ c ∈ blanks.1, Elixir.isPlain c = true ∧ bracketStep c = 0 :=
  fun c hc => isPlain_of (p := Text.isBlank) (by decide) (blanks.2 c hc)

/-! ### Generators -/

/-- A loop over a stream, with what stands between its parts. -/
structure StreamLoop where
  outer : Blanks
  inner : Blanks
  identifier : WrittenVariable
  beforeComma : Blanks
  /-- The pattern of the items, with the white space around it. -/
  pattern : { text : List Char // IsBalanced true .code 0 text }
  beforeArrow : Blanks
  afterArrow : Blanks
  stream : WrittenVariable
  ending : Blanks

namespace StreamLoop

def opening (loop : StreamLoop) : List Char :=
  loop.inner.1 ++ (loop.identifier.text ++ (loop.beforeComma.1 ++ [',']))

/-- What stands behind the brace that closes the pattern. -/
def arrow (loop : StreamLoop) : List Char :=
  loop.beforeArrow.1 ++
    ("<-".toList ++ (loop.afterArrow.1 ++ ("@streams.".toList ++ loop.stream.text)))

def text (loop : StreamLoop) : List Char :=
  '{' :: (loop.opening ++ (loop.pattern.1 ++ '}' :: loop.arrow))

theorem isBalanced (loop : StreamLoop) :
    IsBalanced true .code 0 (loop.outer.1 ++ (loop.text ++ loop.ending.1)) := by
  have hPlain {text : List Char}
      (h : ∀ c ∈ text, Elixir.isPlain c = true ∧ bracketStep c = 0) :
      IsBalanced true .code 0 text := .of_plain h fun _ => rfl
  have hBlanks (blanks : Blanks) : IsBalanced true .code 0 blanks.1 :=
    hPlain blanks.isPlain_of_mem
  have hName (name : WrittenVariable) : IsBalanced true .code 0 name.text :=
    hPlain name.isPlain_of_mem
  have hComma : IsBalanced true .code 0 [','] := by decide
  have hArrow : IsBalanced true .code 0 "<-".toList := by decide
  have hStreams : IsBalanced true .code 0 "@streams.".toList := by decide
  have hOpening : IsBalanced true .code 0 loop.opening :=
    (hBlanks _).code_append ((hName _).code_append ((hBlanks _).code_append hComma))
  have hRest : IsBalanced true .code 0 loop.arrow :=
    (hBlanks _).code_append (hArrow.code_append ((hBlanks _).code_append
      (hStreams.code_append (hName _))))
  have hBraces : IsBalanced true .code 0 ('{' :: (loop.opening ++ loop.pattern.1) ++ ['}']) :=
    .brackets rfl rfl (hOpening.code_append loop.pattern.2)
  have hText : loop.text = '{' :: (loop.opening ++ loop.pattern.1) ++ ['}'] ++ loop.arrow := by
    simp [text]
  rw [hText]
  exact (hBlanks _).code_append ((hBraces.code_append hRest).code_append (hBlanks _))

/-- The value of the attribute, behind its first brace. -/
def closed (loop : StreamLoop) : ClosedText :=
  ⟨loop.outer.1 ++ (loop.text ++ loop.ending.1) ++ ['}'], loop.isBalanced.expressionEnd?⟩

/-- The value of the attribute with its braces. -/
def value (loop : StreamLoop) : List Char := '{' :: loop.closed.1

theorem isTrimmed_text (loop : StreamLoop) : Text.IsTrimmed loop.text := by
  have hBrace : Text.IsTrimmed ['{'] := .singleton (by decide)
  have hForm : loop.text = ['{'] ++ (loop.opening ++ (loop.pattern.1 ++ '}' ::
      (loop.beforeArrow.1 ++ ("<-".toList ++ (loop.afterArrow.1 ++ "@streams.".toList))))) ++
      loop.stream.text := by simp [text, arrow]
  rw [hForm]
  exact hBrace.append _ loop.stream.isTrimmed

theorem generatorOf_value (loop : StreamLoop) :
    DiagnosticsConfig.generatorOf (String.ofList loop.value) = loop.text := by
  have hFront : Text.stripPrefix? "\x7b" loop.value = some loop.closed.1 :=
    Text.stripPrefix?_append "\x7b" loop.closed.1
  have hBack : Text.stripSuffix? "\x7d" loop.closed.1 =
      some (loop.outer.1 ++ (loop.text ++ loop.ending.1)) := Text.stripSuffix?_append "\x7d" _
  have hStart : Text.trimStart (loop.outer.1 ++ (loop.text ++ loop.ending.1)) =
      loop.text ++ loop.ending.1 := by
    obtain ⟨c, rest, hText, hBlank⟩ := loop.isTrimmed_text.first
    refine Text.dropWhile_append_of_stop loop.outer.2 ?_
    rw [hText]
    rintro d ⟨⟩
    exact hBlank
  rw [DiagnosticsConfig.generatorOf, String.toList_ofList, hFront, Option.bind_some, hBack,
    Option.getD_some, Text.trim, hStart, Text.trimEnd,
    Text.dropEndWhile_append_of_pos loop.ending.2]
  exact loop.isTrimmed_text.trimEnd_eq

end StreamLoop

/-! ### Variables -/

/-- The text goes on as a loop over a stream does behind its pattern. -/
def goesOverStream (cs : List Char) : Bool :=
  ((Text.stripPrefix? "<-" (Text.trimStart cs)).bind fun rest =>
    Text.stripPrefix? "@streams." (Text.trimStart rest)).isSome

/-- What stands behind the first closing brace of a text. -/
def behindBrace (cs : List Char) : List Char := (cs.dropWhile (· != '\x7d')).tail

theorem stripPrefix?_append_cons {start : String} {c : Char} (h : c ∉ start.toList)
    (cs rest : List Char) :
    Text.stripPrefix? start (cs ++ c :: rest) =
      (Text.stripPrefix? start cs).map (· ++ c :: rest) := by
  rw [Text.stripPrefix?, Text.stripPrefix?]
  generalize start.toList = front at h
  induction front generalizing cs with
  | nil => rfl
  | cons d front ih =>
    obtain ⟨hNe, hFront⟩ := not_or.mp (mt List.mem_cons.mpr h)
    cases cs with
    | nil =>
      have hDiffers : (d == c) = false := by simpa using Ne.symm hNe
      simp [List.isPrefixOf?, hDiffers]
    | cons e cs =>
      rw [List.cons_append, List.isPrefixOf?, List.isPrefixOf?]
      split
      · exact ih cs hFront
      · rfl

theorem trimStart_append_cons {c : Char} (h : Text.isBlank c = false) (cs rest : List Char) :
    Text.trimStart (cs ++ c :: rest) = Text.trimStart cs ++ c :: rest := by
  rw [Text.trimStart, Text.trimStart, List.dropWhile_append]
  split
  · rename_i hEmpty
    rw [List.isEmpty_iff.mp hEmpty, List.dropWhile_cons_of_neg (by simp [h])]
    rfl
  · rfl

/-- A brace behind the text does not matter. -/
theorem goesOverStream_append (cs rest : List Char) :
    goesOverStream (cs ++ '}' :: rest) = goesOverStream cs := by
  have hBlank : Text.isBlank '}' = false := by decide
  rw [goesOverStream, goesOverStream, trimStart_append_cons hBlank,
    stripPrefix?_append_cons (by decide)]
  cases Text.stripPrefix? "<-" (Text.trimStart cs) with
  | none => rfl
  | some behind =>
    simp only [Option.map_some, Option.bind_some]
    rw [trimStart_append_cons hBlank, stripPrefix?_append_cons (by decide), Option.isSome_map]

namespace StreamLoop

theorem goesOverStream_arrow (loop : StreamLoop) : goesOverStream loop.arrow = true := by
  have hArrow : Text.trimStart loop.arrow =
      "<-".toList ++ (loop.afterArrow.1 ++ ("@streams.".toList ++ loop.stream.text)) := by
    refine Text.dropWhile_append_of_stop loop.beforeArrow.2 ?_
    rintro c ⟨⟩
    decide
  have hStreams : Text.trimStart (loop.afterArrow.1 ++ ("@streams.".toList ++ loop.stream.text)) =
      "@streams.".toList ++ loop.stream.text := by
    refine Text.dropWhile_append_of_stop loop.afterArrow.2 ?_
    rintro c ⟨⟩
    decide
  rw [goesOverStream, hArrow, Text.stripPrefix?_append, Option.bind_some, hStreams,
    Text.stripPrefix?_append]
  rfl

/-- The check sees that the loop goes over a stream. -/
def isSeen (loop : StreamLoop) : Bool :=
  loop.identifier.isPlain &&
    (!loop.pattern.1.contains '}' || goesOverStream (behindBrace loop.pattern.1))

/-- Behind the first closing brace of a generator stands the rest of its pattern or the arrow. -/
theorem dropWhile_pattern (loop : StreamLoop) :
    ∃ rest, (loop.pattern.1 ++ '}' :: loop.arrow).dropWhile (· != '}') = '}' :: rest ∧
      goesOverStream rest =
        (!loop.pattern.1.contains '}' || goesOverStream (behindBrace loop.pattern.1)) := by
  have hOpen {front : List Char} (h : '}' ∉ front) : ∀ c ∈ front, (c != '}') = true := by
    intro c hc
    rw [bne_iff_ne]
    rintro rfl
    exact h hc
  have hStop (behind : List Char) : ∀ c ∈ ('}' :: behind).head?, (c != '}') = false := by
    rintro c ⟨⟩
    decide
  by_cases hBrace : '}' ∈ loop.pattern.1
  · obtain ⟨front, behind, hPattern, hFront⟩ := List.eq_append_cons_of_mem hBrace
    have hDrop (more : List Char) :
        (front ++ '}' :: more).dropWhile (· != '}') = '}' :: more :=
      Text.dropWhile_append_of_stop (hOpen hFront) (hStop more)
    refine ⟨behind ++ '}' :: loop.arrow, ?_, ?_⟩
    · rw [hPattern, List.append_assoc, List.cons_append, hDrop]
    · rw [goesOverStream_append, behindBrace, hPattern, hDrop]
      simp
  · refine ⟨loop.arrow, Text.dropWhile_append_of_stop (hOpen hBrace) (hStop _), ?_⟩
    simp [hBrace, loop.goesOverStream_arrow]

/-- The variable is read up to its mark. -/
theorem takeSome?_identifier (name : WrittenVariable) {rest : List Char}
    (h : ∀ c ∈ rest.head?, Text.isWord c = false) :
    Text.takeSome? Text.isWord (name.text ++ rest) =
      some (name.first :: name.body, name.mark.1 ++ rest) := by
  have hForm : name.text ++ rest = (name.first :: name.body) ++ (name.mark.1 ++ rest) := by
    simp [WrittenVariable.text]
  have hAll : ∀ c ∈ name.first :: name.body, Text.isWord c = true :=
    List.forall_mem_cons.mpr ⟨name.isFirst, name.isBody⟩
  have hStop : ∀ c ∈ (name.mark.1 ++ rest).head?, Text.isWord c = false :=
    name.mark.forall_head (by decide) (by decide) h
  rw [hForm, Text.takeSome?, Text.takeWhile_append_of_stop hAll hStop,
    Text.dropWhile_append_of_stop hAll hStop]

/-- The comma is found behind a name without a mark only. -/
theorem stripPrefix?_comma (mark : NameMark) (blanks : Blanks) (rest : List Char) :
    Text.stripPrefix? "," (Text.trimStart (mark.1 ++ (blanks.1 ++ ',' :: rest))) =
      if mark.1.isEmpty then some rest else none := by
  rcases mark.eq_cases with hNone | hQuestion | hExclamation
  · have hComma : Text.trimStart (blanks.1 ++ ',' :: rest) = ',' :: rest := by
      refine Text.dropWhile_append_of_stop blanks.2 ?_
      rintro c ⟨⟩
      decide
    rw [hNone, List.nil_append, hComma]
    exact Text.stripPrefix?_append "," rest
  · rw [hQuestion]
    rfl
  · rw [hExclamation]
    rfl

theorem stripPrefix?_arrow (name rest : List Char) :
    ((Text.stripPrefix? "<-" (Text.trimStart rest)).bind fun behind =>
      (Text.stripPrefix? "@streams." (Text.trimStart behind)).bind fun _ => some name) =
      if goesOverStream rest then some name else none := by
  rw [goesOverStream]
  cases Text.stripPrefix? "<-" (Text.trimStart rest) with
  | none => rfl
  | some behind =>
    simp only [Option.bind_some]
    obtain hNone | ⟨found, hSome⟩ :=
      Option.eq_none_or_eq_some (Text.stripPrefix? "@streams." (Text.trimStart behind))
    · simp [hNone]
    · simp [hSome]

theorem streamVariable?_text (loop : StreamLoop) :
    DiagnosticsConfig.streamVariable? loop.text =
      if loop.isSeen then some loop.identifier.text else none := by
  obtain ⟨rest, hDrop, hStream⟩ := loop.dropWhile_pattern
  have hBrace : Text.stripPrefix? "\x7b" loop.text =
      some (loop.opening ++ (loop.pattern.1 ++ '}' :: loop.arrow)) :=
    Text.stripPrefix?_append "\x7b" _
  have hClosing : Text.stripPrefix? "\x7d" ('}' :: rest) = some rest :=
    Text.stripPrefix?_append "\x7d" rest
  have hStart : Text.trimStart (loop.opening ++ (loop.pattern.1 ++ '}' :: loop.arrow)) =
      loop.identifier.text ++ (loop.beforeComma.1 ++ ',' ::
        (loop.pattern.1 ++ '}' :: loop.arrow)) := by
    obtain ⟨c, more, hText, hBlank⟩ := loop.identifier.isTrimmed.first
    have hForm : loop.opening ++ (loop.pattern.1 ++ '}' :: loop.arrow) =
        loop.inner.1 ++ (loop.identifier.text ++ (loop.beforeComma.1 ++ ',' ::
          (loop.pattern.1 ++ '}' :: loop.arrow))) := by simp [opening]
    rw [hForm]
    refine Text.dropWhile_append_of_stop loop.inner.2 ?_
    rw [hText]
    rintro d ⟨⟩
    exact hBlank
  have hWord : ∀ c ∈ (loop.beforeComma.1 ++ ',' ::
      (loop.pattern.1 ++ '}' :: loop.arrow)).head?, Text.isWord c = false := by
    cases hBlanks : loop.beforeComma.1 with
    | nil =>
      rintro c ⟨⟩
      decide
    | cons d blanks =>
      rintro c ⟨⟩
      have hBlank := loop.beforeComma.2 _ (hBlanks ▸ List.mem_cons_self)
      by_contra hWord
      have hNot := Text.not_isBlank_of_isWord (by simpa using hWord)
      rw [hBlank] at hNot
      cases hNot
  rw [DiagnosticsConfig.streamVariable?, hBrace, isSeen, WrittenVariable.isPlain, ← hStream]
  simp only [Option.bind_eq_bind, Option.bind_some, hStart, takeSome?_identifier _ hWord,
    List.head?_cons, Option.any_some, stripPrefix?_comma]
  cases hFirst : Text.startsIdentifier loop.identifier.first with
  | false => rfl
  | true =>
    cases hMark : loop.identifier.mark.1 with
    | cons c mark => rfl
    | nil =>
      have hText : loop.identifier.text = loop.identifier.first :: loop.identifier.body := by
        simp [WrittenVariable.text, hMark]
      simp only [Bool.not_true, Bool.false_eq_true, if_false, List.isEmpty_nil, if_true,
        Option.bind_some, hDrop, hClosing, Bool.and_self, Bool.true_and, hText]
      exact stripPrefix?_arrow _ rest

end StreamLoop

/-! ### Attributes -/

/-- The value of the attribute is a variable in braces. -/
def Markup.LooseAttribute.Gives (given : LooseAttribute) (name : List Char) : Prop :=
  ∃ before behind : Blanks,
    given.content? = some ('{' :: (before.1 ++ (name ++ (behind.1 ++ ['}']))))

theorem trim_eq_iff {cs name : List Char} (h : Text.IsTrimmed name) :
    Text.trim cs = name ↔ ∃ before behind : Blanks, cs = before.1 ++ (name ++ behind.1) := by
  constructor
  · rintro rfl
    obtain ⟨ending, hEnding, hForm⟩ :=
      Text.exists_dropEndWhile_append Text.isBlank (Text.trimStart cs)
    have hFront : ∀ c ∈ cs.takeWhile Text.isBlank, Text.isBlank c = true :=
      fun c hc => List.all_eq_true.mp List.all_takeWhile c hc
    refine ⟨⟨_, hFront⟩, ⟨ending, hEnding⟩, ?_⟩
    rw [Text.trim, Text.trimEnd, ← hForm, Text.trimStart, List.takeWhile_append_dropWhile]
  · rintro ⟨before, behind, rfl⟩
    have hStart : Text.trimStart (before.1 ++ (name ++ behind.1)) = name ++ behind.1 := by
      obtain ⟨c, rest, hText, hBlank⟩ := h.first
      refine Text.dropWhile_append_of_stop before.2 ?_
      rw [hText]
      rintro d ⟨⟩
      exact hBlank
    rw [Text.trim, hStart, Text.trimEnd, Text.dropEndWhile_append_of_pos behind.2]
    exact h.trimEnd_eq

/-- An attribute gives a variable where the expression in its value is the variable. -/
theorem expression?_eq_some_iff {given : UsageAttribute} {own : LooseAttribute} {name : List Char}
    (hName : Text.IsTrimmed name) (h : given.value = own.content?.map String.ofList) :
    given.expression? = some (String.ofList name) ↔ own.Gives name := by
  rw [UsageAttribute.expression?, h, LooseAttribute.Gives]
  cases own.content? with
  | none => simp
  | some content =>
    simp only [Option.map_some, Option.bind_eq_bind, Option.bind_some, String.toList_ofList,
      Option.bind_eq_some_iff, Option.some.injEq, Text.stripPrefix?, Text.stripSuffix?,
      List.isPrefixOf?_eq_some_iff_append_eq, List.isSuffixOf?_eq_some_iff_append_eq]
    constructor
    · rintro ⟨inner, rfl, middle, rfl, hTrim⟩
      have hMiddle : Text.trim middle = name := String.ofList_inj.mp (by simpa using hTrim)
      obtain ⟨before, behind, rfl⟩ := (trim_eq_iff hName).mp hMiddle
      exact ⟨before, behind, by simp⟩
    · rintro ⟨before, behind, rfl⟩
      refine ⟨_, rfl, before.1 ++ (name ++ behind.1), by simp, ?_⟩
      rw [(trim_eq_iff hName).mpr ⟨before, behind, rfl⟩]
      rfl

/-! ### Tags -/

/-- The name of an element or a component. -/
structure OpenName where
  first : Char
  body : List Char
  mark : NameMark
  isFirst : (Text.isAsciiLetter first || first == '.') = true
  isBody : ∀ c ∈ body, (Text.isAsciiWord c || c == '.' || c == ':' || c == '-') = true

namespace OpenName

def text (name : OpenName) : List Char := name.first :: name.body ++ name.mark.1

theorem tagName?_text (name : OpenName) {rest : List Char} (h : Markup.EndsName rest) :
    Markup.tagName? (name.text ++ rest) = some name.text := by
  have hStop : ∀ c ∈ (name.mark.1 ++ rest).head?,
      (Text.isAsciiWord c || c == '.' || c == ':' || c == '-') = false := by
    refine name.mark.forall_head (by decide) (by decide) fun c hc => ?_
    have hNot := h.isNameChar c hc
    simp only [Markup.isNameChar, Markup.isElementChar, Bool.or_eq_false_iff] at hNot
    simp [hNot]
  have hFirst : (Text.isAsciiLetter name.first || name.first == '.' || name.first == ':') = true := by
    rw [name.isFirst, Bool.true_or]
  have hForm : name.text ++ rest = name.first :: (name.body ++ (name.mark.1 ++ rest)) := by
    simp [text]
  simp only [hForm, Markup.tagName?, hFirst, if_true,
    Text.takeWhile_append_of_stop name.isBody hStop, Text.dropWhile_append_of_stop name.isBody hStop,
    h.withMark_append]
  rfl

theorem head_ne_colon (name : OpenName) : (name.text.head? == some ':') = false := by
  have hFirst := name.isFirst
  rw [beq_eq_false_iff_ne, text, List.cons_append, List.head?_cons, ne_eq, Option.some.injEq]
  intro hColon
  rw [hColon] at hFirst
  revert hFirst
  decide

end OpenName

/-- An open tag whose first `:for` goes over a stream. -/
structure StreamTag where
  name : OpenName
  front : List (TagGap × LooseAttribute)
  gap : TagGap
  beforeEquals : TagBlanks
  afterEquals : TagBlanks
  loop : StreamLoop
  back : List (TagGap × LooseAttribute)
  ending : TagBlanks
  selfClosing : Bool
  isFirst : ∀ given ∈ front, given.2.isNamed ":for" = false

namespace StreamTag

def forName : AttributeName := ⟨":for".toList, by decide⟩

def own (tag : StreamTag) : LooseAttribute :=
  .valued forName tag.beforeEquals tag.afterEquals (.expression tag.loop.closed)

def attributes (tag : StreamTag) : LooseAttributes :=
  ⟨tag.front ++ (tag.gap, tag.own) :: tag.back, tag.ending⟩

def text (tag : StreamTag) : List Char :=
  '<' :: (tag.name.text ++ (tag.attributes.text ++ tagEnding tag.selfClosing))

/-- The first of the other attributes that has the name. -/
def find? (tag : StreamTag) (name : String) : Option LooseAttribute :=
  ((tag.front ++ tag.back).map (·.2)).find? (·.isNamed name)

/-- The offset of the attribute of the loop in a tag that begins at `start`. -/
def place (tag : StreamTag) (start : Nat) : Nat :=
  nameEndAt start tag.name.text + lengthOf tag.front + Text.byteLength tag.gap.1

/-- The diagnostic at the attribute of the loop. -/
def report (tag : StreamTag) (start : Nat) (finding : Finding) : Diagnostic :=
  { start := tag.place start, stop := tag.place start + 4, finding }

/-- The first identifier of the tag is the variable of the loop. -/
def IsIdentified (tag : StreamTag) : Prop :=
  ∃ given, tag.find? "id" = some given ∧ given.Gives tag.loop.identifier.text

variable (tag : StreamTag)

/-- The tag as it is read where it begins. -/
def read (start : Nat) : OpenTag :=
  Markup.looseTag tag.selfClosing start tag.name.text tag.attributes

theorem find?_for (start : Nat) :
    ∃ given, (tag.read start).attributes.find? (·.name == ":for") = some given ∧
      given.nameStart = tag.place start ∧ given.nameEnd = tag.place start + 4 ∧
      given.value = some (String.ofList tag.loop.value) := by
  have hNamed : tag.own.isNamed ":for" = true := by
    change (String.ofList ":for".toList == ":for") = true
    decide
  obtain ⟨given, hGiven, hStart, hEnd, hValue⟩ : ∃ given, tag.own.given? (tag.place start) =
      some given ∧ given.nameStart = tag.place start ∧ given.nameEnd = tag.place start + 4 ∧
        given.value = some (String.ofList tag.loop.value) := ⟨_, rfl, rfl, rfl, rfl⟩
  refine ⟨given, (find?_given_append tag.isFirst _ _).trans ?_, hStart, hEnd, hValue⟩
  rw [LooseAttributes.given, List.find?_append, find?_given?_toList, hNamed, if_pos rfl]
  exact Option.or_eq_some_iff.mpr (.inl hGiven)

theorem find?_other {name : String} (h : tag.own.isNamed name = false) (start : Nat) :
    ((tag.read start).attributes.find? (·.name == name)).map (·.value) =
      (tag.find? name).map fun given => given.content?.map String.ofList := by
  refine (find?_given name _ _).trans ?_
  rw [attributes, List.map_append, List.map_cons, List.find?_append, List.find?_cons, h, find?,
    List.map_append, List.find?_append]

structure Checks (start : Nat) (found : List Diagnostic) : Prop where
  /-- A key of its own is enough. -/
  keyed : (tag.find? ":key").isSome = true → found = []
  /-- Where the loop is seen to go over a stream, the variable has to be the identifier. -/
  identified : tag.loop.isSeen = true → tag.IsIdentified → found = []
  unidentified : tag.find? ":key" = none → tag.loop.isSeen = true → ¬tag.IsIdentified →
    found = [tag.report start (.missingStreamKey (String.ofList tag.loop.identifier.text))]
  /-- Elsewhere any identifier is enough. -/
  unseen : tag.find? ":key" = none → tag.loop.isSeen = false →
    found = if (tag.find? "id").isSome then [] else [tag.report start .missingLoopKey]

/-- The identifier that is read is that of the tag. -/
theorem bind_expression?_iff (start : Nat) :
    ((tag.read start).attributes.find? (·.name == "id")).bind UsageAttribute.expression? =
        some (String.ofList tag.loop.identifier.text) ↔ tag.IsIdentified := by
  have hOther : tag.own.isNamed "id" = false := by
    change (String.ofList ":for".toList == "id") = false
    decide
  have hId := tag.find?_other hOther start
  rw [IsIdentified]
  cases hRead : (tag.read start).attributes.find? (·.name == "id") with
  | none =>
    rw [hRead] at hId
    have hNone : tag.find? "id" = none := by simpa using hId.symm
    simp [hNone]
  | some given =>
    rw [hRead] at hId
    obtain ⟨written, hWritten, hValue⟩ := Option.map_eq_some_iff.mp hId.symm
    rw [Option.bind_some, expression?_eq_some_iff tag.loop.identifier.isTrimmed hValue.symm,
      hWritten]
    simp

theorem isSome_find? {name : String} (h : tag.own.isNamed name = false) (start : Nat) :
    ((tag.read start).attributes.find? (·.name == name)).isSome = (tag.find? name).isSome := by
  have hOther := congrArg Option.isSome (tag.find?_other h start)
  rwa [Option.isSome_map, Option.isSome_map] at hOther

theorem checkLoop_read (start : Nat) :
    tag.Checks start (DiagnosticsConfig.checkLoop (tag.read start)).toList := by
  obtain ⟨loop, hFor, hStart, hEnd, hValue⟩ := tag.find?_for start
  have hKeyName : tag.own.isNamed ":key" = false := by
    change (String.ofList ":for".toList == ":key") = false
    decide
  have hIdName : tag.own.isNamed "id" = false := by
    change (String.ofList ":for".toList == "id") = false
    decide
  have hKey := tag.isSome_find? hKeyName start
  have hId := tag.isSome_find? hIdName start
  have hIdentified := tag.bind_expression?_iff start
  have hVariable : DiagnosticsConfig.streamVariable? (DiagnosticsConfig.generatorOf
      (loop.value.getD "")) = if tag.loop.isSeen then some tag.loop.identifier.text else none := by
    rw [hValue, Option.getD_some, tag.loop.generatorOf_value, tag.loop.streamVariable?_text]
  have hName : ((tag.read start).name.head? == some ':') = false := tag.name.head_ne_colon
  rw [DiagnosticsConfig.checkLoop]
  simp only [hFor, Option.bind_eq_bind, Option.bind_some, hName, hKey, hVariable, hId,
    Bool.false_or]
  cases hKeyed : tag.find? ":key" with
  | some key =>
    have hNot : tag.find? ":key" ≠ none := by simp [hKeyed]
    exact ⟨fun _ => rfl, fun _ _ => rfl, fun h => absurd h hNot, fun h => absurd h hNot⟩
  | none =>
    have hUnkeyed : (tag.find? ":key").isSome ≠ true := by simp [hKeyed]
    cases hSeen : tag.loop.isSeen with
    | true =>
      have hNot : tag.loop.isSeen ≠ false := by simp [hSeen]
      by_cases hIs : tag.IsIdentified
      · have hGives := beq_iff_eq.mpr (hIdentified.mpr hIs)
        simp only [Option.isSome_none, Bool.false_eq_true, if_false, if_true, hGives]
        exact ⟨fun _ => rfl, fun _ _ => rfl, fun _ _ h => absurd hIs h, fun _ h => absurd h hNot⟩
      · have hGives := mt beq_iff_eq.mp (mt hIdentified.mp hIs)
        simp only [Option.isSome_none, Bool.false_eq_true, if_false, if_true, hGives, hStart, hEnd]
        exact ⟨fun h => absurd h hUnkeyed, fun _ h => absurd h hIs, fun _ _ _ => rfl,
          fun _ h => absurd h hNot⟩
    | false =>
      have hNot : tag.loop.isSeen ≠ true := by simp [hSeen]
      simp only [Option.isSome_none, Bool.false_eq_true, if_false, hStart, hEnd]
      refine ⟨fun h => absurd h hUnkeyed, fun h => absurd h hNot, fun _ h => absurd h hNot,
        fun _ _ => ?_⟩
      cases (tag.find? "id").isSome <;> rfl

/-! ### Texts -/

theorem readOpenTag?_text (start : Nat) (rest : List Char) :
    Markup.readOpenTag? start tag.name.text
        (tag.attributes.text ++ (tagEnding tag.selfClosing ++ rest)) = some (tag.read start) :=
  Markup.readOpenTag?_loose tag.selfClosing start tag.name.text tag.attributes rest

end StreamTag

/-- Wherever the tag stands in a text: what the check finds in it depends on its attributes alone, and
on whether the loop is seen to go over a stream. -/
theorem checks_streamTag (tag : StreamTag) (before rest : List Char) :
    tag.Checks (Text.byteLength before)
      (((Markup.openTags 0 (before ++ (tag.text ++ rest))).filter
        (fun read => read.start == Text.byteLength before)).filterMap
          DiagnosticsConfig.checkLoop) := by
  have hForm : tag.text ++ rest = '<' :: (tag.name.text ++ (tag.attributes.text ++
      (tagEnding tag.selfClosing ++ rest))) := by simp [StreamTag.text]
  have hName := tag.name.tagName?_text
    (Markup.endsName_loose tag.attributes tag.selfClosing rest)
  have hTags := filter_openTags (Text.RestAt.self (before ++ '<' :: (tag.name.text ++
    (tag.attributes.text ++ (tagEnding tag.selfClosing ++ rest)))))
  rw [Nat.zero_add, hName, Option.bind_some, List.drop_left, tag.readOpenTag?_text] at hTags
  rw [hForm, hTags, Option.toList_some]
  have hOne : [tag.read (Text.byteLength before)].filterMap DiagnosticsConfig.checkLoop =
      (DiagnosticsConfig.checkLoop (tag.read (Text.byteLength before))).toList := by
    rw [List.filterMap_cons]
    cases DiagnosticsConfig.checkLoop (tag.read (Text.byteLength before)) <;> rfl
  rw [hOne]
  exact tag.checkLoop_read _

/-- Behind the pattern of a map the loop is taken for one over a list, and any identifier is
enough. -/
theorem unreported_streamLoop :
    (Markup.openTags 0 ("<li :for=\x7b\x7bid, %\x7bname: n\x7d\x7d <- @streams.users\x7d " ++
        "id=\"row\">").toList).filterMap DiagnosticsConfig.checkLoop = [] ∧
      (Markup.openTags 0 ("<li :for=\x7b\x7bid, user\x7d <- @streams.users\x7d " ++
        "id=\"row\">").toList).filterMap DiagnosticsConfig.checkLoop =
          [{ start := 4, stop := 8, finding := .missingStreamKey "id" }] := by
  decide +kernel

end PhoenixLens
