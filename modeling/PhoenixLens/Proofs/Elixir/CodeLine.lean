import PhoenixLens.Proofs.Elixir.Remark

/-!
# Lines of code

A line of code is made of words, strings and other characters, and may end in a comment. Which of
its words open and close blocks is told by the words and by what stands on both sides of them; what
strings and the comment contain does not count.
-/

namespace PhoenixLens.Elixir

/-! ### Tokens -/

/-- What stands between the quotes of a string. A backslash takes the next character with it. -/
inductive IsQuotedBody (quote : Char) : List Char → Prop where
  | nil : IsQuotedBody quote []
  | char {c : Char} {rest : List Char} (hQuote : c ≠ quote) (hEscape : c ≠ '\\')
      (hRest : IsQuotedBody quote rest) : IsQuotedBody quote (c :: rest)
  | escaped (c : Char) {rest : List Char} (hRest : IsQuotedBody quote rest) :
      IsQuotedBody quote ('\\' :: c :: rest)

inductive LineToken where
  | word (text : List Char) (isWordRun : IsWordRun text)
  /-- A character that stands for itself. -/
  | sign (c : Char) (plain : isPlain c = true) (apart : startsWord c = false)
  | string (quote : Char) (body : List Char) (isQuote : isQuote quote = true)
      (isBody : IsQuotedBody quote body)

namespace LineToken

def text : LineToken → List Char
  | word text _ => text
  | sign c _ _ => [c]
  | string quote body _ _ => quote :: body ++ [quote]

/-- What is left of a token when strings lose their insides. -/
def code : LineToken → List Char
  | word text _ => text
  | sign c _ _ => [c]
  | string quote _ _ _ => [quote, quote]

def isBlank : LineToken → Bool
  | sign c _ _ => Text.isBlank c
  | _ => false

end LineToken

variable {tokens more : List LineToken}

def tokensText (tokens : List LineToken) : List Char := tokens.flatMap LineToken.text

def tokensCode (tokens : List LineToken) : List Char := tokens.flatMap LineToken.code

/-- Behind each word stands something that is no part of it. -/
def IsSeparated : List LineToken → Prop
  | [] => True
  | .word _ _ :: tokens => IsApart (tokensCode tokens) ∧ IsSeparated tokens
  | _ :: tokens => IsSeparated tokens

/-- The words among tokens with what stands next to them; `before` stands before the first token. -/
def wordsAmong (before : Option Char) : List LineToken → List Word
  | [] => []
  | .word text _ :: tokens => ⟨text, before, (tokensCode tokens).head?⟩ :: wordsAmong none tokens
  | .sign c _ _ :: tokens => wordsAmong (some c) tokens
  | .string quote _ _ _ :: tokens => wordsAmong (some quote) tokens

theorem not_startsWord_of_isQuote {c : Char} (h : isQuote c = true) : startsWord c = false := by
  simp only [isQuote, Bool.or_eq_true, beq_iff_eq] at h
  rcases h with rfl | rfl <;> decide

theorem codeOf_go_body {quote : Char} (hQuote : isQuote quote = true) {body : List Char}
    (h : IsQuotedBody quote body) (rest : List Char) :
    codeOf.go (.quoted quote false) (body ++ quote :: rest) = quote :: codeOf.go .code rest := by
  induction h with
  | nil =>
    have hEscape : quote ≠ '\\' := by
      rintro rfl
      revert hQuote
      decide
    simp [codeOf.go, Quoting.step, Quoting.isCode, hEscape]
  | @char c body hNe hEscape _ ih =>
    have hStep : (Quoting.quoted quote false).step c = .quoted quote false := by
      simp [Quoting.step, hNe, hEscape]
    simp only [List.cons_append, codeOf.go, hStep, Quoting.isCode]
    exact ih
  | escaped c _ ih =>
    simp only [List.cons_append, codeOf.go, Quoting.step, Quoting.isCode]
    exact ih

theorem codeOf_go_token (token : LineToken) (rest : List Char) :
    codeOf.go .code (token.text ++ rest) = token.code ++ codeOf.go .code rest := by
  cases token with
  | word text hText =>
    exact codeOf_go_append (fun c hc => isPlain_of_continuesWord (hText.all c hc)) rest
  | sign c hPlain hApart =>
    exact codeOf_go_append (List.forall_mem_singleton.mpr hPlain) rest
  | string quote body hQuote hBody =>
    have hHash : (quote == '#') = false := by
      rw [beq_eq_false_iff_ne]
      rintro rfl
      revert hQuote
      decide
    simp only [LineToken.text, LineToken.code, List.cons_append, List.append_assoc, codeOf.go,
      hHash, Quoting.step, hQuote, if_true, List.nil_append]
    exact congrArg (List.cons quote) (codeOf_go_body hQuote hBody rest)

theorem tokensText_cons (token : LineToken) (tokens : List LineToken) :
    tokensText (token :: tokens) = token.text ++ tokensText tokens := List.flatMap_cons

theorem tokensCode_cons (token : LineToken) (tokens : List LineToken) :
    tokensCode (token :: tokens) = token.code ++ tokensCode tokens := List.flatMap_cons

theorem tokensCode_append (tokens more : List LineToken) :
    tokensCode (tokens ++ more) = tokensCode tokens ++ tokensCode more := List.flatMap_append

theorem codeOf_go_tokens (tokens : List LineToken) (rest : List Char) :
    codeOf.go .code (tokensText tokens ++ rest) = tokensCode tokens ++ codeOf.go .code rest := by
  induction tokens with
  | nil => rfl
  | cons token tokens ih =>
    rw [tokensText_cons, List.append_assoc, codeOf_go_token, ih, tokensCode_cons, List.append_assoc]

theorem words_go_tokens (h : IsSeparated tokens) (before : Option Char) :
    words.go before none (tokensCode tokens) = wordsAmong before tokens := by
  induction tokens generalizing before with
  | nil => rfl
  | cons token tokens ih =>
    rw [tokensCode_cons]
    cases token with
    | word text hText =>
      rw [LineToken.code, words_go_append hText h.1, ih h.2, wordsAmong]
    | sign c hPlain hApart =>
      rw [LineToken.code, List.singleton_append, words_go_cons hApart, ih h, wordsAmong]
    | string quote body hQuote hBody =>
      have hStart := not_startsWord_of_isQuote hQuote
      rw [LineToken.code, List.cons_append, List.cons_append, List.nil_append,
        words_go_cons hStart, words_go_cons hStart, ih h, wordsAmong]

theorem not_startsWord_of_wordsAmong {before : Option Char} (h : wordsAmong before tokens = []) :
    ∀ c ∈ tokensCode tokens, startsWord c = false := by
  induction tokens generalizing before with
  | nil => nofun
  | cons token tokens ih =>
    rw [tokensCode_cons]
    cases token with
    | word text hText => cases h
    | sign c hPlain hApart => exact List.forall_mem_cons.mpr ⟨hApart, ih h⟩
    | string quote body hQuote hBody =>
      have hStart := not_startsWord_of_isQuote hQuote
      exact List.forall_mem_cons.mpr ⟨hStart, List.forall_mem_cons.mpr ⟨hStart, ih h⟩⟩

/-- Behind the last word stand no words. -/
theorem exists_last_word {before : Option Char} {word : Word}
    (h : (wordsAmong before tokens).getLast? = some word) :
    ∃ front isWordRun back, tokens = front ++ .word word.text isWordRun :: back ∧
      ∀ c ∈ tokensCode back, startsWord c = false := by
  induction tokens generalizing before with
  | nil => cases h
  | cons token tokens ih =>
    have hLater {before : Option Char} (hWord : (wordsAmong before tokens).getLast? = some word) :
        ∃ front isWordRun back, token :: tokens = front ++ .word word.text isWordRun :: back ∧
          ∀ c ∈ tokensCode back, startsWord c = false := by
      obtain ⟨front, isWordRun, back, hTokens, hBack⟩ := ih hWord
      exact ⟨token :: front, isWordRun, back, by rw [hTokens, List.cons_append], hBack⟩
    cases token with
    | word text hText =>
      rw [wordsAmong] at h
      cases hWords : wordsAmong none tokens with
      | nil =>
        rw [hWords] at h
        cases h
        exact ⟨[], hText, tokens, rfl, not_startsWord_of_wordsAmong hWords⟩
      | cons other words =>
        rw [hWords, List.getLast?_cons_cons, ← hWords] at h
        exact hLater h
    | sign c hPlain hApart => exact hLater h
    | string quote body hQuote hBody => exact hLater h

/-! ### Lines -/

/-- A line with all its strings closed, and perhaps a comment at its end. -/
structure CodeLine where
  tokens : List LineToken
  separated : IsSeparated tokens
  comment? : Option (List Char) := none

namespace CodeLine

variable {line : CodeLine}

def text (line : CodeLine) : List Char :=
  tokensText line.tokens ++ (line.comment?.map (List.cons '#')).getD []

def words (line : CodeLine) : List Word := wordsAmong none line.tokens

theorem codeOf_text (line : CodeLine) : codeOf line.text = tokensCode line.tokens := by
  have hComment : codeOf.go .code ((line.comment?.map (List.cons '#')).getD []) = [] := by
    cases line.comment? <;> rfl
  rw [codeOf, text, codeOf_go_tokens, hComment, List.append_nil]

theorem words_codeOf_text (line : CodeLine) :
    Elixir.words (codeOf line.text) = line.words := by
  rw [codeOf_text, Elixir.words, words_go_tokens line.separated, words]

end CodeLine

/-! ### Which texts are lines of code -/

theorem stateAfter?_body {quote : Char} (hQuote : isQuote quote = true) {body : List Char}
    (h : IsQuotedBody quote body) (rest : List Char) :
    stateAfter? (.quoted quote false) (body ++ quote :: rest) = stateAfter? .code rest := by
  have hEscape : quote ≠ '\\' := by
    rintro rfl
    revert hQuote
    decide
  induction h with
  | nil => simp [stateAfter?, Quoting.step, Quoting.isCode, hEscape]
  | @char c body hNe hEscape _ ih =>
    have hStep : (Quoting.quoted quote false).step c = .quoted quote false := by
      simp [Quoting.step, hNe, hEscape]
    rw [List.cons_append, stateAfter?, hStep]
    exact ih
  | escaped c _ ih => exact ih

theorem stateAfter?_code_cons {c : Char} (h : isQuote c = true) (rest : List Char) :
    stateAfter? .code (c :: rest) = stateAfter? (.quoted c false) rest := by
  have hHash : (c == '#') = false := by
    rw [beq_eq_false_iff_ne]
    rintro rfl
    revert h
    decide
  rw [stateAfter?, hHash, Bool.and_false, if_neg Bool.false_ne_true, Quoting.step, if_pos h]

theorem stateAfter?_token (token : LineToken) (rest : List Char) :
    stateAfter? .code (token.text ++ rest) = stateAfter? .code rest := by
  have hPlain {text : List Char} (h : ∀ c ∈ text, isPlain c = true) :
      stateAfter? .code (text ++ rest) = stateAfter? .code rest := by
    rw [stateAfter?_append, stateAfter?_of_plain h, Option.bind_some]
  cases token with
  | word text hText => exact hPlain fun c hc => isPlain_of_continuesWord (hText.all c hc)
  | sign c hSign hApart => exact hPlain (List.forall_mem_singleton.mpr hSign)
  | string quote body hQuote hBody =>
    have hText : (LineToken.string quote body hQuote hBody).text ++ rest =
        quote :: (body ++ quote :: rest) := by simp [LineToken.text]
    rw [hText, stateAfter?_code_cons hQuote, stateAfter?_body hQuote hBody]

theorem stateAfter?_tokens (tokens : List LineToken) (rest : List Char) :
    stateAfter? .code (tokensText tokens ++ rest) = stateAfter? .code rest := by
  induction tokens with
  | nil => rfl
  | cons token tokens ih => rw [tokensText_cons, List.append_assoc, stateAfter?_token, ih]

/-- The text does not end inside of a string. -/
def ClosesStrings (state : Quoting) (text : List Char) : Prop :=
  ∀ quote escaped, stateAfter? state text ≠ some (.quoted quote escaped)

instance (state : Quoting) (text : List Char) : Decidable (ClosesStrings state text) :=
  decidable_of_iff ((stateAfter? state text).all Quoting.isCode = true) (by
    rw [ClosesStrings]
    match stateAfter? state text with
    | none | some .code | some (.quoted _ _) => simp [Quoting.isCode])

theorem exists_body {quote : Char} {text : List Char} {escaped : Bool}
    (h : ClosesStrings (.quoted quote escaped) text) :
    ∃ body rest, IsQuotedBody quote ((if escaped then ['\\'] else []) ++ body) ∧
      text = body ++ quote :: rest := by
  induction text generalizing escaped with
  | nil => exact absurd rfl (h quote escaped)
  | cons c text ih =>
    cases escaped with
    | true =>
      have hRest : ClosesStrings (.quoted quote false) text := h
      obtain ⟨body, rest, hBody, rfl⟩ := ih hRest
      exact ⟨c :: body, rest, .escaped c hBody, rfl⟩
    | false =>
      by_cases hEscape : c = '\\'
      · subst hEscape
        have hRest : ClosesStrings (.quoted quote true) text := h
        obtain ⟨body, rest, hBody, rfl⟩ := ih hRest
        exact ⟨'\\' :: body, rest, hBody, rfl⟩
      by_cases hQuote : c = quote
      · exact ⟨[], text, .nil, by rw [hQuote]; rfl⟩
      have hRest : ClosesStrings (.quoted quote false) text := by
        simpa [ClosesStrings, stateAfter?, Quoting.step, Quoting.isCode, hEscape, hQuote] using h
      obtain ⟨body, rest, hBody, rfl⟩ := ih hRest
      exact ⟨c :: body, rest, .char hQuote hEscape hBody, rfl⟩

theorem head?_tokensCode (tokens : List LineToken) :
    (tokensCode tokens).head? = (tokensText tokens).head? := by
  cases tokens with
  | nil => rfl
  | cons token tokens =>
    rw [tokensCode_cons, tokensText_cons]
    cases token with
    | word text hText =>
      obtain ⟨c, rest, rfl, -⟩ := hText.first
      rfl
    | sign c hSign hApart => rfl
    | string quote body hQuote hBody => rfl

namespace CodeLine

def cons (token : LineToken) (line : CodeLine) (separated : IsSeparated (token :: line.tokens)) :
    CodeLine :=
  { line with tokens := token :: line.tokens, separated }

theorem text_cons (token : LineToken) (line : CodeLine)
    (separated : IsSeparated (token :: line.tokens)) :
    (cons token line separated).text = token.text ++ line.text := by
  rw [text, cons, tokensText_cons, List.append_assoc, text]

theorem isApart_tokensCode (line : CodeLine) (h : IsApart line.text) :
    IsApart (tokensCode line.tokens) := by
  intro c hc
  rw [head?_tokensCode] at hc
  refine h c ?_
  rw [text, List.head?_append, hc, Option.some_or]
  rfl

theorem exists_text_eq {text : List Char} (h : ClosesStrings .code text) :
    ∃ line : CodeLine, line.text = text := by
  induction hLength : text.length using Nat.strongRecOn generalizing text with
  | ind n ih =>
  subst hLength
  cases text with
  | nil => exact ⟨{ tokens := [], separated := trivial }, rfl⟩
  | cons c text =>
    -- A token at the front leaves a shorter text, which closes its strings as well.
    have hFront (token : LineToken) (rest : List Char) (hText : c :: text = token.text ++ rest)
        (hLess : rest.length ≤ text.length)
        (hApart : ∀ line : CodeLine, line.text = rest → IsSeparated (token :: line.tokens)) :
        ∃ line : CodeLine, line.text = c :: text := by
      have hRest : ClosesStrings .code rest := fun quote escaped => by
        rw [← stateAfter?_token token, ← hText]
        exact h quote escaped
      obtain ⟨line, hLine⟩ := ih rest.length (Nat.lt_succ_of_le hLess) hRest rfl
      exact ⟨cons token line (hApart line hLine), by rw [text_cons, hLine, hText]⟩
    by_cases hHash : c = '#'
    · exact ⟨{ tokens := [], separated := trivial, comment? := some text }, by rw [hHash]; rfl⟩
    by_cases hQuote : isQuote c = true
    · have hInside : ClosesStrings (.quoted c false) text := fun quote escaped => by
        rw [← stateAfter?_code_cons hQuote]
        exact h quote escaped
      obtain ⟨body, rest, hBody, hText⟩ := exists_body hInside
      refine hFront (.string c body hQuote hBody) rest ?_ ?_ ?_
      · rw [hText]
        simp [LineToken.text]
      · rw [hText, List.length_append, List.length_cons]
        omega
      · exact fun line _ => line.separated
    by_cases hStart : startsWord c = true
    · have hRun : IsWordRun (c :: text.takeWhile continuesWord) :=
        ⟨⟨c, _, rfl, hStart⟩, List.forall_mem_cons.mpr
          ⟨continuesWord_of_startsWord hStart, List.all_eq_true.mp List.all_takeWhile⟩⟩
      refine hFront (.word _ hRun) (text.dropWhile continuesWord) ?_ ?_ ?_
      · rw [LineToken.text, List.cons_append, List.takeWhile_append_dropWhile]
      · exact (List.dropWhile_suffix _).length_le
      · intro line hLine
        refine ⟨line.isApart_tokensCode ?_, line.separated⟩
        rw [hLine]
        intro d hd
        have hStop := List.head?_dropWhile_not continuesWord text
        rw [hd] at hStop
        simpa using hStop
    · have hPlain : isPlain c = true := by simp [isPlain, hQuote, hHash]
      exact hFront (.sign c hPlain (by simpa using hStart)) text rfl (Nat.le_refl _)
        fun line _ => line.separated

/-- The lines of code are the texts that close their strings. -/
theorem exists_text_eq_iff {text : List Char} :
    (∃ line : CodeLine, line.text = text) ↔ ClosesStrings .code text := by
  refine ⟨?_, exists_text_eq⟩
  rintro ⟨line, rfl⟩ quote escaped
  rw [CodeLine.text, stateAfter?_tokens]
  cases line.comment? with
  | none => nofun
  | some comment => simp [stateAfter?, Quoting.isCode]

end CodeLine

/-! ### Words that open and close blocks -/

inductive BlockWord where
  | opensDo
  | opensFn
  | closes
deriving DecidableEq

namespace BlockWord

def text : BlockWord → List Char
  | opensDo => "do".toList
  | opensFn => "fn".toList
  | closes => "end".toList

def ofText? (text : List Char) : Option BlockWord :=
  [opensDo, opensFn, closes].find? fun w => w.text == text

theorem ofText?_eq_some_iff {text : List Char} {w : BlockWord} :
    ofText? text = some w ↔ text = w.text := by
  constructor
  · intro h
    rw [ofText?] at h
    have hFound := List.find?_some h
    exact (beq_iff_eq.mp hFound).symm
  · rintro rfl
    cases w <;> decide

theorem ofText?_eq_none {text : List Char} (h : IsIdle text) : ofText? text = none := by
  rw [Option.eq_none_iff_forall_ne_some]
  intro w hw
  rw [ofText?_eq_some_iff] at hw
  cases w with
  | opensDo => exact h.1 hw
  | opensFn => exact h.2.1 hw
  | closes => exact h.2.2 hw

theorem count_ofText? (words : List (List Char)) (w : BlockWord) :
    (words.filterMap ofText?).count w = words.count w.text := by
  rw [List.count_filterMap, List.count]
  refine List.countP_congr fun text _ => ?_
  rw [beq_iff_eq, beq_iff_eq, ofText?_eq_some_iff]

end BlockWord

/-- The word is neither an atom, nor a key, nor called on something. -/
def Word.isFree (word : Word) : Bool :=
  !(word.before == some ':' || word.before == some '.' || word.after == some ':')

def Word.blockWord? (word : Word) : Option BlockWord :=
  if word.isFree then BlockWord.ofText? word.text else none

theorem Word.blockWord?_eq (word : Word) :
    word.blockWord? = BlockWord.ofText? (keywordOf word) := by
  rw [blockWord?, isFree, keywordOf]
  cases word.before == some ':' || word.before == some '.' || word.after == some ':' <;> rfl

namespace CodeLine

variable {line : CodeLine}

/-- What opens and closes blocks in a line, from left to right. -/
def blockWords (line : CodeLine) : List BlockWord := line.words.filterMap Word.blockWord?

def lastBlockWord? (line : CodeLine) : Option BlockWord :=
  line.words.getLast?.bind Word.blockWord?

theorem getLast?_blockWords {w : BlockWord} (h : line.lastBlockWord? = some w) :
    line.blockWords.getLast? = some w := by
  obtain ⟨word, hLast, hWord⟩ := Option.bind_eq_some_iff.mp h
  obtain ⟨front, hWords⟩ := List.getLast?_eq_some_iff.mp hLast
  rw [blockWords, hWords, List.filterMap_append, List.filterMap_cons_some hWord,
    List.filterMap_nil, List.getLast?_concat]

theorem keywords_text (line : CodeLine) :
    ((Elixir.words (codeOf line.text)).map keywordOf).filterMap BlockWord.ofText? =
      line.blockWords := by
  rw [words_codeOf_text, List.filterMap_map, blockWords]
  exact List.filterMap_congr fun word _ => (word.blockWord?_eq).symm

/-- A text that closes its strings is a line with the block words that are read in it. -/
theorem exists_blockWords_eq {text : List Char} {words : List BlockWord}
    (h : ClosesStrings .code text)
    (hWords : ((Elixir.words (codeOf text)).map keywordOf).filterMap BlockWord.ofText? = words) :
    ∃ line : CodeLine, line.text = text ∧ line.blockWords = words := by
  obtain ⟨line, rfl⟩ := exists_text_eq h
  exact ⟨line, rfl, line.keywords_text.symm.trans hWords⟩

theorem getLast?_keywords (line : CodeLine) :
    ((Elixir.words (codeOf line.text)).map keywordOf).getLast? = some "do".toList ↔
      line.lastBlockWord? = some .opensDo := by
  rw [words_codeOf_text, List.getLast?_map, lastBlockWord?]
  cases line.words.getLast? with
  | none => simp
  | some word =>
    rw [Option.map_some, Option.bind_some, word.blockWord?_eq, BlockWord.ofText?_eq_some_iff,
      Option.some_inj]
    rfl

theorem endsWith_do {blanks : List Char} (h : ∀ c ∈ blanks, Text.isBlank c = true)
    (front : List Char) :
    Text.endsWith "do" (Text.trimEnd (front ++ ("do".toList ++ blanks))) = true := by
  have hFront : front ++ "do".toList = front ++ ['d'] ++ ['o'] := by simp
  rw [← List.append_assoc, trimEnd_append_blanks h, hFront, Text.trimEnd,
    Text.dropEndWhile_concat_of_neg (by decide), Text.endsWith_iff]
  exact ⟨front, by simp⟩

/-- The last word of the line is a `do`, and at most blanks and a comment follow. -/
structure EndsInDo (line : CodeLine) : Prop where
  last : ∃ front isWordRun blanks, line.tokens = front ++ .word "do".toList isWordRun :: blanks ∧
    ∀ token ∈ blanks, token.isBlank = true
  opens : line.lastBlockWord? = some .opensDo

theorem EndsInDo.endsWith (h : line.EndsInDo) :
    Text.endsWith "do" (Text.trimEnd (codeOf line.text)) = true := by
  obtain ⟨front, hRun, blanks, hTokens, hBlanks⟩ := h.last
  have hBlank : ∀ c ∈ tokensCode blanks, Text.isBlank c = true := by
    intro c hc
    obtain ⟨token, hToken, hChar⟩ := List.mem_flatMap.mp hc
    cases token with
    | word text hText => cases hBlanks _ hToken
    | sign d hPlain hApart =>
      rw [List.mem_singleton.mp hChar]
      exact hBlanks _ hToken
    | string quote body hQuote hBody => cases hBlanks _ hToken
  rw [codeOf_text, hTokens, tokensCode_append, tokensCode_cons]
  exact endsWith_do hBlank (tokensCode front)

theorem isBlank_of_tokensCode (h : ∀ c ∈ tokensCode tokens, Text.isBlank c = true)
    (hStart : ∀ c ∈ tokensCode tokens, startsWord c = false) :
    ∀ token ∈ tokens, token.isBlank = true := by
  intro token hMem
  have hCode {c : Char} (hc : c ∈ token.code) : c ∈ tokensCode tokens :=
    List.mem_flatMap.mpr ⟨token, hMem, hc⟩
  cases token with
  | word text hText =>
    obtain ⟨c, rest, rfl, hFirst⟩ := hText.first
    have hNot := hStart c (hCode List.mem_cons_self)
    rw [hFirst] at hNot
    cases hNot
  | sign c hPlain hApart => exact h c (hCode List.mem_cons_self)
  | string quote body hQuote hBody =>
    have hBlank := isPlain_of_isBlank (h quote (hCode List.mem_cons_self))
    simp [isPlain, hQuote] at hBlank

/-- The end of its code tells whether a line ends in `do`. -/
theorem EndsInDo.of_text (hOpens : line.lastBlockWord? = some .opensDo)
    (hEnd : Text.endsWith "do" (Text.trimEnd (codeOf line.text)) = true) : line.EndsInDo := by
  refine ⟨?_, hOpens⟩
  obtain ⟨word, hLast, hWord⟩ := Option.bind_eq_some_iff.mp hOpens
  obtain ⟨front, hRun, back, hTokens, hBack⟩ := exists_last_word hLast
  have hText : word.text = "do".toList := by
    rw [Word.blockWord?] at hWord
    exact BlockWord.ofText?_eq_some_iff.mp (Option.ite_none_right_eq_some.mp hWord).2
  refine ⟨front, hText ▸ hRun, back, ?_, isBlank_of_tokensCode (fun c hc => ?_) hBack⟩
  · simpa only [hText] using hTokens
  rw [codeOf_text, hTokens, tokensCode_append, tokensCode_cons, ← List.append_assoc] at hEnd
  by_contra hNot
  -- What is left of `back` at the end of the trimmed code would end in the last letter of `do`.
  obtain ⟨before, after, hSplit⟩ := List.append_of_mem hc
  obtain ⟨blanks, -, hAfter⟩ := Text.exists_dropEndWhile_append Text.isBlank after
  rw [hSplit, ← List.append_assoc, Text.trimEnd,
    Text.dropEndWhile_append_cons (by simpa using hNot)] at hEnd
  obtain ⟨code, hCode⟩ := Text.endsWith_iff.mp hEnd
  have hLetter := congrArg List.getLast? hCode
  rw [List.getLast?_append_of_ne_nil _ (by decide),
    List.getLast?_append_of_ne_nil _ (List.cons_ne_nil _ _)] at hLetter
  have hMem : 'o' ∈ c :: Text.dropEndWhile Text.isBlank after := List.mem_of_getLast? hLetter.symm
  have hInBack : 'o' ∈ tokensCode back := by
    rw [hSplit, hAfter]
    exact List.mem_append_right _ (List.mem_append_left blanks hMem)
  exact absurd (hBack _ hInBack) (by decide)

/-- A line that ends in `do` opens a block besides those of its `fn`s. -/
theorem EndsInDo.blockDelta_text (h : line.EndsInDo) :
    blockDelta line.text =
      (line.blockWords.count .opensFn + 1, line.blockWords.count .closes) := by
  rw [blockDelta_eq, h.endsWith, line.getLast?_keywords.mpr h.opens, ← keywords_text,
    BlockWord.count_ofText?, BlockWord.count_ofText?]
  rfl

/-- Other lines open the blocks of their `fn`s only, whatever `do`s they have. -/
theorem blockDelta_text (h : line.lastBlockWord? ≠ some .opensDo) :
    blockDelta line.text = (line.blockWords.count .opensFn, line.blockWords.count .closes) := by
  have hLast : (((Elixir.words (codeOf line.text)).map keywordOf).getLast? ==
      some ['d', 'o']) = false :=
    beq_eq_false_iff_ne.mpr fun hDo => h (line.getLast?_keywords.mp hDo)
  rw [blockDelta_eq, hLast, ← keywords_text, BlockWord.count_ofText?, BlockWord.count_ofText?]
  rfl

end CodeLine

end PhoenixLens.Elixir
