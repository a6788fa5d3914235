import PhoenixLens.Elixir.Literal
import PhoenixLens.Proofs.Elixir.Piece

/-!
# Values in routers

The literals that the macros of a router take, as they are written, and what each reader of
arguments makes of them.
-/

namespace PhoenixLens.Elixir

/-- A literal as an argument of a macro. -/
inductive RouterValue where
  | string (text : List Char)
  | atom (name : List Char)
  | atoms (names : List (List Char))
  | module (name : List Char)
  | flag (value : Bool)

/-! ### Names -/

/-- The name of an atom; a star stands for every verb. -/
def IsAtomName (name : List Char) : Prop := IsWordRun name ∨ name = ['*']

structure IsModulePart (part : List Char) : Prop where
  first : ∃ c rest, part = c :: rest ∧ Text.isAsciiUpper c = true
  all : ∀ c ∈ part, startsWord c = true

/-- The dotted name of a module. -/
inductive IsModule : List Char → Prop where
  | part {part : List Char} (hPart : IsModulePart part) : IsModule part
  | dot {part rest : List Char} (hPart : IsModulePart part) (hRest : IsModule rest) :
      IsModule (part ++ '.' :: rest)

abbrev AtomName := { name : List Char // IsAtomName name }

abbrev ModuleName := { name : List Char // IsModule name }

/-- A character of a path: a letter, a digit or one of `_/:*.-`. -/
def isPathChar (c : Char) : Bool :=
  startsWord c || c == '/' || c == ':' || c == '*' || c == '.' || c == '-'

namespace RouterValue

/-- Atoms between commas. -/
def listBody (names : List (List Char)) : List Char :=
  Text.join ", ".toList (names.map (':' :: ·))

def text : RouterValue → List Char
  | string text => '"' :: text ++ ['"']
  | atom name => ':' :: name
  | atoms names => '[' :: listBody names ++ [']']
  | module name => name
  | flag true => "true".toList
  | flag false => "false".toList

/-- What is left of the value where only code counts. -/
def code : RouterValue → List Char
  | string _ => ['"', '"']
  | value => value.text

def WellFormed : RouterValue → Prop
  | string text => ∀ c ∈ text, isPathChar c = true
  | atom name => IsAtomName name
  | atoms names => ∀ name ∈ names, IsAtomName name
  | module name => IsModule name
  | flag _ => True

end RouterValue

/-! ### Characters of names -/

theorem ne_of_startsWord {c d : Char} (h : startsWord c = true) (hd : startsWord d = false) :
    c ≠ d := by
  rintro rfl
  rw [h] at hd
  cases hd

theorem ne_of_isPathChar {c d : Char} (h : isPathChar c = true) (hd : isPathChar d = false) :
    c ≠ d := by
  rintro rfl
  rw [h] at hd
  cases hd

theorem startsWord_of_isAsciiUpper {c : Char} (h : Text.isAsciiUpper c = true) :
    startsWord c = true := by
  rw [startsWord, Text.isLetterOrNumber_of_isAsciiAlphanumeric, Bool.true_or]
  simp [Text.isAsciiAlphanumeric, Text.isAsciiLetter, h]

namespace IsModulePart

variable {part : List Char}

theorem isWordRun (h : IsModulePart part) : IsWordRun part := by
  obtain ⟨c, rest, rfl, hUpper⟩ := h.first
  exact ⟨⟨c, rest, rfl, startsWord_of_isAsciiUpper hUpper⟩,
    fun d hd => continuesWord_of_startsWord (h.all d hd)⟩

theorem isIdle (h : IsModulePart part) : IsIdle part := by
  obtain ⟨c, rest, rfl, hUpper⟩ := h.first
  refine ⟨?_, ?_, ?_⟩
  all_goals
    intro hWord
    rw [(List.cons.inj hWord).1] at hUpper
    revert hUpper
    decide

end IsModulePart

namespace IsModule

variable {name : List Char}

theorem all (h : IsModule name) : ∀ c ∈ name, startsWord c = true ∨ c = '.' := by
  induction h with
  | part hPart => exact fun c hc => .inl (hPart.all c hc)
  | dot hPart _ ih =>
    intro c hc
    rcases List.mem_append.mp hc with hOwn | hMore
    · exact .inl (hPart.all c hOwn)
    · rcases List.mem_cons.mp hMore with rfl | hRest
      · exact .inr rfl
      · exact ih c hRest

theorem first (h : IsModule name) : ∃ c rest, name = c :: rest ∧ Text.isAsciiUpper c = true := by
  cases h with
  | part hPart => exact hPart.first
  | dot hPart _ =>
    obtain ⟨c, rest, rfl, hUpper⟩ := hPart.first
    exact ⟨c, _, rfl, hUpper⟩

theorem last (h : IsModule name) : ∃ before c, name = before ++ [c] ∧ startsWord c = true := by
  induction h with
  | @part part hPart =>
    have hNe := hPart.isWordRun.ne_nil
    exact ⟨part.dropLast, part.getLast hNe, (List.dropLast_concat_getLast hNe).symm,
      hPart.all _ (List.getLast_mem hNe)⟩
  | @dot part rest _ _ ih =>
    obtain ⟨before, c, rfl, hWord⟩ := ih
    exact ⟨part ++ '.' :: before, c, by simp, hWord⟩

theorem not_mem (h : IsModule name) {c : Char} (hc : startsWord c = false) (hDot : c ≠ '.') :
    c ∉ name := by
  intro hMem
  rcases h.all c hMem with hWord | rfl
  · rw [hWord] at hc
    cases hc
  · exact hDot rfl

theorem isTrimmed (h : IsModule name) : Text.IsTrimmed name := by
  obtain ⟨c, rest, rfl, hUpper⟩ := h.first
  refine .of_all (List.cons_ne_nil c rest) fun d hd => ?_
  rcases h.all d hd with hWord | rfl
  · exact not_isBlank_of_continuesWord (continuesWord_of_startsWord hWord)
  · decide

theorem isQuiet (h : IsModule name) : IsQuiet name := by
  have hAfter : ∀ {name : List Char}, IsModule name → IsQuiet ('.' :: name) := by
    intro name h
    induction h with
    | part hPart => exact .after (.inr rfl) hPart.isWordRun
    | dot hPart _ ih =>
      exact (IsQuiet.after (.inr rfl) hPart.isWordRun).append ih (by simp [IsApart]; decide)
  cases h with
  | part hPart => exact .word hPart.isWordRun hPart.isIdle
  | dot hPart hRest =>
    exact (IsQuiet.word hPart.isWordRun hPart.isIdle).append (hAfter hRest)
      (by simp [IsApart]; decide)

end IsModule

namespace IsAtomName

variable {name : List Char}

theorem ne_nil (h : IsAtomName name) : name ≠ [] := by
  rcases h with hWord | rfl
  · exact hWord.ne_nil
  · exact List.cons_ne_nil _ _

theorem all (h : IsAtomName name) : ∀ c ∈ name, continuesWord c = true ∨ c = '*' := by
  intro c hc
  rcases h with hWord | rfl
  · exact .inl (hWord.all c hc)
  · exact .inr (List.mem_singleton.mp hc)

theorem not_mem (h : IsAtomName name) {c : Char} (hc : continuesWord c = false) (hStar : c ≠ '*') :
    c ∉ name := by
  intro hMem
  rcases h.all c hMem with hWord | rfl
  · rw [hWord] at hc
    cases hc
  · exact hStar rfl

theorem isQuiet (h : IsAtomName name) : IsQuiet (':' :: name) := by
  rcases h with hWord | rfl
  · exact .after (.inl rfl) hWord
  · exact .of_all (by decide)

theorem isPlain (h : IsAtomName name) : ∀ c ∈ ':' :: name, isPlain c = true ∧ c ≠ '\n' := by
  intro c hc
  rcases List.mem_cons.mp hc with rfl | hMem
  · decide
  · refine ⟨?_, ?_⟩
    · rcases h.all c hMem with hWord | rfl
      · exact isPlain_of_continuesWord hWord
      · decide
    · rintro rfl
      exact h.not_mem (by decide) (by decide) hMem

theorem bracketStep (h : IsAtomName name) : ∀ c ∈ ':' :: name, bracketStep c = 0 := by
  intro c hc
  rcases List.mem_cons.mp hc with rfl | hMem
  · rfl
  · rcases h.all c hMem with hWord | rfl
    · exact bracketStep_of_continuesWord hWord
    · rfl

theorem isPiece (h : IsAtomName name) : IsPiece (':' :: name) (':' :: name) :=
  .of_plain h.isPlain h.isQuiet (bracketDepth_of_all h.bracketStep)

theorem isTrimmed (h : IsAtomName name) : Text.IsTrimmed (':' :: name) := by
  refine .of_all (List.cons_ne_nil _ _) fun c hc => ?_
  rcases List.mem_cons.mp hc with rfl | hMem
  · decide
  · rcases h.all c hMem with hWord | rfl
    · exact not_isBlank_of_continuesWord hWord
    · decide

end IsAtomName

/-! ### Values as pieces -/

namespace RouterValue

theorem isPiece {value : RouterValue} (h : value.WellFormed) : IsPiece value.text value.code := by
  cases value with
  | string text =>
    have hChars : ∀ c ∈ text, c ≠ '"' ∧ c ≠ '\\' := fun c hc =>
      ⟨ne_of_isPathChar (h c hc) (by decide), ne_of_isPathChar (h c hc) (by decide)⟩
    have hQuiet : IsQuiet ['"', '"'] := .of_all (by decide)
    refine ⟨?_, hQuiet, rfl, ?_⟩
    · intro rest
      have hForm : (string text).text ++ rest = '"' :: text ++ '"' :: rest := by
        simp [RouterValue.text]
      rw [hForm, codeOf_go_string hChars]
      rfl
    · simp only [RouterValue.text, List.cons_append, List.mem_cons, List.mem_append,
        List.not_mem_nil, or_false, not_or]
      exact ⟨by decide, fun hBreak => ne_of_isPathChar (h _ hBreak) (by decide) rfl, by decide⟩
  | atom name => exact IsAtomName.isPiece h
  | atoms names =>
    cases names with
    | nil => exact .of_plain (by decide) (.of_all (by decide)) rfl
    | cons name names =>
      let pieces := names.map fun n => (':' :: n, ':' :: n)
      have hAll : ∀ p ∈ (':' :: name, ':' :: name) :: pieces, IsPiece p.1 p.2 := by
        intro p hp
        rcases List.mem_cons.mp hp with rfl | hMem
        · exact (h name List.mem_cons_self).isPiece
        · obtain ⟨n, hn, rfl⟩ := List.mem_map.mp hMem
          exact (h n (List.mem_cons_of_mem _ hn)).isPiece
      have hJoin := (IsPiece.join hAll).brackets
      simpa [pieces, RouterValue.text, code, listBody, List.map_map, Function.comp_def] using hJoin
  | module name =>
    refine .of_plain ?_ (IsModule.isQuiet h) (bracketDepth_of_all ?_)
    · intro c hc
      refine ⟨?_, ?_⟩
      · rcases IsModule.all h c hc with hWord | rfl
        · exact isPlain_of_continuesWord (continuesWord_of_startsWord hWord)
        · decide
      · rintro rfl
        exact IsModule.not_mem h (by decide) (by decide) hc
    · intro c hc
      rcases IsModule.all h c hc with hWord | rfl
      · exact bracketStep_of_continuesWord (continuesWord_of_startsWord hWord)
      · rfl
  | flag value =>
    cases value with
    | true => exact .word ⟨⟨'t', _, rfl, by decide⟩, by decide⟩ ⟨by decide, by decide, by decide⟩
    | false => exact .word ⟨⟨'f', _, rfl, by decide⟩, by decide⟩ ⟨by decide, by decide, by decide⟩

theorem isTrimmed {value : RouterValue} (h : value.WellFormed) : Text.IsTrimmed value.text := by
  cases value with
  | string text => exact (Text.IsTrimmed.singleton (by decide)).append text (.singleton (by decide))
  | atom name => exact IsAtomName.isTrimmed h
  | atoms names => exact (Text.IsTrimmed.singleton (by decide)).append _ (.singleton (by decide))
  | module name => exact IsModule.isTrimmed h
  | flag value => cases value <;> exact .of_all (by decide) (by decide)

/-- Only an empty string ends in two quotes, and no third one stands before it. -/
theorem string_noHeredoc {text : List Char} (h : '"' ∉ text) (before : List Char) {c : Char}
    (hc : c ≠ '"') (front : List Char) :
    before ++ c :: (string text).text ≠ front ++ ['"', '"', '"'] := by
  intro hEq
  induction text using List.reverseRecOn with
  | nil => exact hc (List.cons.inj (List.append_inj_right' hEq rfl)).1
  | append_singleton text d _ =>
    have hLeft : before ++ c :: (string (text ++ [d])).text =
        (before ++ c :: '"' :: text) ++ [d, '"'] := by simp [RouterValue.text]
    have hRight : front ++ ['"', '"', '"'] = (front ++ ['"']) ++ ['"', '"'] := by simp
    rw [hLeft, hRight] at hEq
    have hSame := (List.cons.inj (List.append_inj_right' hEq rfl)).1
    simp [hSame] at h

theorem isEnd_atom {name : List Char} (hName : IsAtomName name) :
    IsEnd (atom name).text (atom name).code := by
  have hLast := List.dropLast_concat_getLast hName.ne_nil
  have hText : (atom name).text = (':' :: name.dropLast) ++ [name.getLast hName.ne_nil] := by
    rw [List.cons_append, hLast]
    rfl
  have hEnd := hName.all _ (List.getLast_mem hName.ne_nil)
  generalize name.getLast hName.ne_nil = c at hText hEnd
  have hNot : ∀ d, continuesWord d = false → d ≠ '*' → c ≠ d := by
    rintro d hd hStar rfl
    rcases hEnd with hWord | rfl
    · rw [hWord] at hd
      cases hd
    · exact hStar rfl
  have hMem : c ∈ ':' :: name := by
    have hSame : ':' :: name = (':' :: name.dropLast) ++ [c] := hText
    simp [hSame]
  have hBlank : Text.isBlank c = false := by
    rcases hEnd with hWord | rfl
    · exact not_isBlank_of_continuesWord hWord
    · decide
  refine .of_plain hText hBlank (hNot _ (by decide) (by decide)) (hNot _ (by decide) (by decide))
    (hName.isPlain c hMem).1 (not_endsInDo_of_all ?_ nofun nofun nofun)
  intro d hd
  have hDiffers : ∀ e, continuesWord e = false → e ≠ '*' → e ≠ ':' → d ≠ e := by
    rintro e he hStar hColon rfl
    rcases List.mem_cons.mp hd with rfl | hIn
    · exact hColon rfl
    · exact hName.not_mem he hStar hIn
  exact ⟨hDiffers _ (by decide) (by decide) (by decide),
    hDiffers _ (by decide) (by decide) (by decide),
    hDiffers _ (by decide) (by decide) (by decide)⟩

theorem isEnd_module {name : List Char} (hName : IsModule name) :
    IsEnd (module name).text (module name).code := by
  obtain ⟨before, c, hText, hWord⟩ := hName.last
  have hBlank := not_isBlank_of_continuesWord (continuesWord_of_startsWord hWord)
  have hPlain := isPlain_of_continuesWord (continuesWord_of_startsWord hWord)
  obtain ⟨first, rest, hFirst, hUpper⟩ := hName.first
  have hHead : ∀ d more, Text.isAsciiUpper d = false → name ≠ d :: more := by
    rintro d more hd rfl
    rw [(List.cons.inj hFirst).1, hUpper] at hd
    cases hd
  refine .of_plain hText hBlank (ne_of_startsWord hWord (by decide))
    (ne_of_startsWord hWord (by decide)) hPlain
    (not_endsInDo_of_all ?_ (hFirst ▸ List.cons_ne_nil _ _) (hHead _ _ (by decide))
      (hHead _ _ (by decide)))
  intro d hd
  have hDiffers : ∀ e, startsWord e = false → e ≠ '.' → d ≠ e := by
    rintro e he hDot rfl
    exact hName.not_mem he hDot hd
  exact ⟨hDiffers _ (by decide) (by decide), hDiffers _ (by decide) (by decide),
    hDiffers _ (by decide) (by decide)⟩

theorem isEnd {value : RouterValue} (h : value.WellFormed) : IsEnd value.text value.code := by
  cases value with
  | string text =>
    have hQuote : '"' ∉ text := fun hMem => ne_of_isPathChar (h _ hMem) (by decide) rfl
    have hText : (string text).text = ('"' :: text) ++ ['"'] := rfl
    have hCode : (string text).code = ['"'] ++ ['"'] := rfl
    exact ⟨⟨'"' :: text, ['"'], '"', hText, hCode, by decide⟩,
      not_endsInDo_of_last hText (by decide), not_endsInDo_of_last hCode (by decide),
      fun before c hc front => string_noHeredoc hQuote before hc front⟩
  | atom name => exact isEnd_atom h
  | atoms names =>
    have hText : (atoms names).text = ('[' :: listBody names) ++ [']'] := rfl
    exact .of_plain hText (by decide) (by decide) (by decide) (by decide)
      (not_endsInDo_of_last hText (by decide))
  | module name => exact isEnd_module h
  | flag value =>
    cases value with
    | true =>
      have hText : (flag true).text = ['t', 'r', 'u'] ++ ['e'] := rfl
      exact .of_plain hText (by decide) (by decide) (by decide) (by decide)
        (not_endsInDo_of_last hText (by decide))
    | false =>
      have hText : (flag false).text = ['f', 'a', 'l', 's'] ++ ['e'] := rfl
      exact .of_plain hText (by decide) (by decide) (by decide) (by decide)
        (not_endsInDo_of_last hText (by decide))

theorem isClosed_atoms {names : List (List Char)} (h : ∀ name ∈ names, IsAtomName name) :
    IsClosed (atoms names).text := by
  intro seen rest
  have hInner : ∀ c ∈ listBody names,
      isQuote c = false ∧ bracketStep c = 0 ∧ (c = ',' → (1 : Int) ≠ 0) := by
    intro c hc
    rcases Text.mem_join hc with hGap | ⟨piece, hPiece, hMem⟩
    · have hAll : ∀ d ∈ ", ".toList,
          isQuote d = false ∧ bracketStep d = 0 ∧ (d = ',' → (1 : Int) ≠ 0) := by decide
      exact hAll c hGap
    · obtain ⟨name, hName, rfl⟩ := List.mem_map.mp hPiece
      have hPlain := ((h name hName).isPlain c hMem).1
      simp only [isPlain, Bool.and_eq_true, Bool.not_eq_true'] at hPlain
      exact ⟨hPlain.1, (h name hName).bracketStep c hMem, fun _ => by decide⟩
  have hForm : (atoms names).text ++ rest = '[' :: (listBody names ++ ']' :: rest) := by
    simp [RouterValue.text]
  have hOpen : splitAtCommas.go .code 0 seen ('[' :: (listBody names ++ ']' :: rest)) =
      splitAtCommas.go .code 1 ('[' :: seen) (listBody names ++ ']' :: rest) := by
    rw [splitAtCommas.go, if_neg (by decide)]
    rfl
  have hClose : splitAtCommas.go .code 1 ((listBody names).reverse ++ '[' :: seen) (']' :: rest) =
      splitAtCommas.go .code 0 (']' :: ((listBody names).reverse ++ '[' :: seen)) rest := by
    rw [splitAtCommas.go, if_neg (by decide)]
    rfl
  rw [hForm, hOpen, splitAtCommas_go_append hInner, hClose]
  simp [RouterValue.text]

theorem isClosed {value : RouterValue} (h : value.WellFormed) : IsClosed value.text := by
  have hPlain : ∀ text : List Char,
      (∀ c ∈ text, isPlain c = true ∧ bracketStep c = 0 ∧ c ≠ ',') → IsClosed text := by
    intro text hText
    refine splitAtCommas_go_append fun c hc => ?_
    obtain ⟨hPlain, hStep, hComma⟩ := hText c hc
    simp only [isPlain, Bool.and_eq_true, Bool.not_eq_true'] at hPlain
    exact ⟨hPlain.1, hStep, fun hSame => absurd hSame hComma⟩
  cases value with
  | string text =>
    have hChars : ∀ c ∈ text, c ≠ '"' ∧ c ≠ '\\' := fun c hc =>
      ⟨ne_of_isPathChar (h c hc) (by decide), ne_of_isPathChar (h c hc) (by decide)⟩
    intro seen rest
    have hForm : (string text).text ++ rest = '"' :: (text ++ '"' :: rest) := by
      simp [RouterValue.text]
    have hOpen : splitAtCommas.go .code 0 seen ('"' :: (text ++ '"' :: rest)) =
        splitAtCommas.go (.quoted '"' false) 0 ('"' :: seen) (text ++ '"' :: rest) := by
      rw [splitAtCommas.go, if_neg (by decide)]
      rfl
    rw [hForm, hOpen, splitAtCommas_go_quoted hChars]
    simp [RouterValue.text]
  | atom name =>
    have hName : IsAtomName name := h
    refine hPlain _ fun c hc => ⟨(hName.isPlain c hc).1, hName.bracketStep c hc, ?_⟩
    rintro rfl
    rcases List.mem_cons.mp hc with hColon | hMem
    · exact absurd hColon (by decide)
    · exact hName.not_mem (by decide) (by decide) hMem
  | atoms names => exact isClosed_atoms h
  | module name =>
    have hName : IsModule name := h
    refine hPlain _ fun c hc => ?_
    refine ⟨?_, ?_, ?_⟩
    · rcases hName.all c hc with hWord | rfl
      · exact isPlain_of_continuesWord (continuesWord_of_startsWord hWord)
      · decide
    · rcases hName.all c hc with hWord | rfl
      · exact bracketStep_of_continuesWord (continuesWord_of_startsWord hWord)
      · rfl
    · rintro rfl
      exact hName.not_mem (by decide) (by decide) hc
  | flag value =>
    cases value with
    | true => exact hPlain _ (by decide)
    | false => exact hPlain _ (by decide)

/-! ### What readers find -/

def string? : RouterValue → Option (List Char)
  | string text => some text
  | _ => none

def atom? : RouterValue → Option (List Char)
  | atom name => some name
  | _ => none

def module? : RouterValue → Option (List Char)
  | module name => some name
  | _ => none

def names : RouterValue → List (List Char)
  | string text => [text]
  | atom name => [name]
  | atoms names => names
  | _ => []

end RouterValue

/-! #### Strings -/

theorem parseString?_string {text : List Char} (h : '\\' ∉ text) :
    parseString? ('"' :: text ++ ['"']) = some text := by
  have hTrimmed : Text.IsTrimmed ('"' :: text ++ ['"']) :=
    (Text.IsTrimmed.singleton (by decide)).append text (.singleton (by decide))
  have hUnquote : unquote? "\"" ('"' :: text ++ ['"']) = some text := by
    rw [unquote?, List.cons_append]
    exact (congrArg (· >>= Text.stripSuffix? "\"")
      (Text.stripPrefix?_append "\"" (text ++ ['"']))).trans
      (Text.stripSuffix?_append "\"" text)
  rw [parseString?, hTrimmed.trim_eq, hUnquote, Option.some_or, Option.map_some,
    Text.replaceAll_of_not_mem h]

theorem parseString?_eq_none {c : Char} {rest : List Char} (hTrimmed : Text.IsTrimmed (c :: rest))
    (h : isQuote c = false) : parseString? (c :: rest) = none := by
  simp only [isQuote, Bool.or_eq_false_iff, beq_eq_false_iff_ne] at h
  have hDouble : Text.stripPrefix? "\"" (c :: rest) = none :=
    Text.stripPrefix?_eq_none rfl (Ne.symm h.1)
  have hSingle : Text.stripPrefix? "'" (c :: rest) = none :=
    Text.stripPrefix?_eq_none rfl (Ne.symm h.2)
  rw [parseString?, hTrimmed.trim_eq, unquote?, unquote?, hDouble, hSingle]
  rfl

/-! #### Atoms -/

theorem isAtomChar_of_isAtomName {name : List Char} (h : IsAtomName name) :
    name.all isAtomChar = true := by
  rw [List.all_eq_true]
  intro c hc
  rcases h.all c hc with hWord | rfl
  · simp only [continuesWord, startsWord, Bool.or_eq_true] at hWord
    simp only [isAtomChar, isKeyChar, Bool.or_eq_true]
    tauto
  · decide

theorem parseAtom?_atom {name : List Char} (h : IsAtomName name) :
    parseAtom? (':' :: name) = some name := by
  have hStrip : Text.stripPrefix? ":" (':' :: name) = some name := Text.stripPrefix?_append ":" name
  obtain ⟨c, rest, rfl⟩ := List.exists_cons_of_ne_nil h.ne_nil
  have hQuote : isQuote c = false := by
    have hPlain := (h.isPlain c (by simp)).1
    simp only [isPlain, Bool.and_eq_true, Bool.not_eq_true'] at hPlain
    exact hPlain.1
  have hTrimmed : Text.IsTrimmed (c :: rest) := by
    refine .of_all (List.cons_ne_nil _ _) fun d hd => ?_
    rcases h.all d hd with hWord | rfl
    · exact not_isBlank_of_continuesWord hWord
    · decide
  have hAll := isAtomChar_of_isAtomName h
  rw [parseAtom?, h.isTrimmed.trim_eq, hStrip]
  simp only [Option.bind_eq_bind, Option.bind_some, parseString?_eq_none hTrimmed hQuote, hAll]
  rfl

theorem parseAtom?_eq_none {c : Char} {rest : List Char} (hTrimmed : Text.IsTrimmed (c :: rest))
    (h : c ≠ ':') : parseAtom? (c :: rest) = none := by
  have hStrip : Text.stripPrefix? ":" (c :: rest) = none :=
    Text.stripPrefix?_eq_none rfl (Ne.symm h)
  rw [parseAtom?, hTrimmed.trim_eq, hStrip]
  rfl

/-! #### Modules -/

theorem isModuleName_module {name : List Char} (h : IsModule name) : isModuleName name = true := by
  have hPart : ∀ part : List Char, IsModulePart part →
      (part.head?.any Text.isAsciiUpper && part.all startsWord) = true := by
    intro part hPart
    obtain ⟨c, rest, rfl, hUpper⟩ := hPart.first
    simpa [hUpper] using hPart.all
  have hDot : ∀ part : List Char, IsModulePart part → '.' ∉ part := by
    intro part hPart hMem
    have hWord := hPart.all '.' hMem
    revert hWord
    decide
  have hParts : (Text.splitAt '.' name).all
      (fun part => part.head?.any Text.isAsciiUpper && part.all startsWord) = true := by
    induction h with
    | part hOwn =>
      rw [Text.splitAt_of_not_mem (hDot _ hOwn), List.all_cons, hPart _ hOwn]
      rfl
    | dot hOwn _ ih => rw [Text.splitAt_append (hDot _ hOwn), List.all_cons, hPart _ hOwn, ih]; rfl
  rw [isModuleName, h.isTrimmed.trim_eq, hParts]
  simp [h.isTrimmed.ne_nil]

theorem isModuleName_eq_false {c : Char} {rest : List Char} (hTrimmed : Text.IsTrimmed (c :: rest))
    (h : Text.isAsciiUpper c = false) (hDot : c ≠ '.') : isModuleName (c :: rest) = false := by
  have hHead : (c == '.') = false := by simpa using hDot
  rw [isModuleName, hTrimmed.trim_eq, Text.splitAt, hHead]
  cases Text.splitAt '.' rest <;> simp [h]

/-! #### Keywords -/

theorem parseKeyword?_eq_none {c : Char} {rest : List Char} (h : isKeyChar c = false) :
    parseKeyword? (c :: rest) = none := by
  rw [parseKeyword?, cutAtColon?]
  cases hCut : Text.cutAt? [':'] (c :: rest) with
  | none => rfl
  | some parts =>
    obtain ⟨key, after⟩ := parts
    have hParts := Text.append_of_cutAt? hCut
    cases key with
    | nil => rfl
    | cons d key =>
      have hSame : d = c := (List.cons.inj hParts).1
      have hStop : ((d :: key).isEmpty || !(d :: key).all isKeyChar) = true := by
        rw [List.all_cons, hSame, h, Bool.false_and]
        rfl
      simp only [Option.bind_eq_bind, Option.bind_some, hStop, if_true]
      rfl

theorem parseKeyword?_of_not_mem {text : List Char} (h : ':' ∉ text) :
    parseKeyword? text = none := by
  rw [parseKeyword?, cutAtColon?, Text.cutAt?_singleton_eq_none h]
  rfl

theorem parseKeyword?_keyword {key value : List Char} (hNe : key ≠ [])
    (hKey : key.all isKeyChar = true) (hValue : Text.IsTrimmed value) :
    parseKeyword? (key ++ ": ".toList ++ value) = some (key, value) := by
  have hColon : ':' ∉ key := by
    intro hMem
    have hChar := List.all_eq_true.mp hKey _ hMem
    revert hChar
    decide
  have hBlank : ∀ c ∈ [' '], Text.isBlank c = true := by decide
  have hForm : key ++ ": ".toList ++ value = key ++ ':' :: ([' '] ++ value) := by simp
  have hEmpty : key.isEmpty = false := by simpa using hNe
  rw [hForm, parseKeyword?, cutAtColon?, Text.cutAt?_singleton_append hColon]
  simp only [Option.bind_eq_bind, Option.bind_some, hEmpty, hKey, hValue.trim_append hBlank]
  rfl

theorem keywordArguments_of_noList {texts : List (List Char)}
    (h : ∀ t ∈ texts, keywordListBody? t = none) :
    keywordArguments texts = texts.filterMap parseKeyword? := by
  induction texts with
  | nil => rfl
  | cons t texts ih =>
    have hRest := ih fun u hu => h u (List.mem_cons_of_mem _ hu)
    rw [keywordArguments] at hRest ⊢
    rw [List.flatMap_cons, hRest, h t List.mem_cons_self, List.filterMap_cons]
    cases parseKeyword? t <;> rfl

/-! #### Values -/

namespace RouterValue

variable {value : RouterValue}

theorem isQuote_of_isModule {c : Char} {rest : List Char} (h : IsModule (c :: rest)) :
    isQuote c = false := by
  rcases h.all c List.mem_cons_self with hWord | rfl
  · have hPlain := isPlain_of_continuesWord (continuesWord_of_startsWord hWord)
    simp only [isPlain, Bool.and_eq_true, Bool.not_eq_true'] at hPlain
    exact hPlain.1
  · decide

theorem parseString?_text (h : value.WellFormed) : parseString? value.text = value.string? := by
  have hTrimmed := isTrimmed h
  cases value with
  | string text =>
    refine parseString?_string fun hMem => ?_
    exact ne_of_isPathChar (h _ hMem) (by decide) rfl
  | atom name => exact parseString?_eq_none hTrimmed (by decide)
  | atoms names => exact parseString?_eq_none hTrimmed (by decide)
  | module name =>
    obtain ⟨c, rest, rfl, _⟩ := IsModule.first h
    exact parseString?_eq_none hTrimmed (isQuote_of_isModule h)
  | flag value =>
    cases value with
    | true => exact parseString?_eq_none hTrimmed (by decide)
    | false => exact parseString?_eq_none hTrimmed (by decide)

theorem parseAtom?_text (h : value.WellFormed) : parseAtom? value.text = value.atom? := by
  have hTrimmed := isTrimmed h
  cases value with
  | string text => exact parseAtom?_eq_none hTrimmed (by decide)
  | atom name => exact parseAtom?_atom h
  | atoms names => exact parseAtom?_eq_none hTrimmed (by decide)
  | module name =>
    obtain ⟨c, rest, rfl, hUpper⟩ := IsModule.first h
    refine parseAtom?_eq_none hTrimmed ?_
    rintro rfl
    revert hUpper
    decide
  | flag value =>
    cases value with
    | true => exact parseAtom?_eq_none hTrimmed (by decide)
    | false => exact parseAtom?_eq_none hTrimmed (by decide)

theorem parseName?_text (h : value.WellFormed) :
    parseName? value.text = value.atom?.or value.string? := by
  rw [parseName?, parseAtom?_text h, parseString?_text h]

theorem isModuleName_text (h : value.WellFormed) :
    isModuleName value.text = value.module?.isSome := by
  have hTrimmed := isTrimmed h
  cases value with
  | string text => exact isModuleName_eq_false hTrimmed (by decide) (by decide)
  | atom name => exact isModuleName_eq_false hTrimmed (by decide) (by decide)
  | atoms names => exact isModuleName_eq_false hTrimmed (by decide) (by decide)
  | module name => exact isModuleName_module h
  | flag value =>
    cases value with
    | true => exact isModuleName_eq_false hTrimmed (by decide) (by decide)
    | false => exact isModuleName_eq_false hTrimmed (by decide) (by decide)

theorem first (h : value.WellFormed) : ∃ c rest, value.text = c :: rest ∧
    c ≠ '~' ∧ c ≠ '(' ∧ (c = '[' → ∃ names, value = .atoms names) := by
  cases value with
  | string text => exact ⟨'"', _, rfl, by decide, by decide, nofun⟩
  | atom name => exact ⟨':', _, rfl, by decide, by decide, nofun⟩
  | atoms names => exact ⟨'[', _, rfl, by decide, by decide, fun _ => ⟨names, rfl⟩⟩
  | module name =>
    obtain ⟨c, rest, hName, hUpper⟩ := IsModule.first h
    have hNot : ∀ d, Text.isAsciiUpper d = false → c ≠ d := by
      rintro d hd rfl
      rw [hUpper] at hd
      cases hd
    exact ⟨c, rest, hName, hNot _ (by decide), hNot _ (by decide),
      fun hSame => absurd hSame (hNot _ (by decide))⟩
  | flag value =>
    cases value with
    | true => exact ⟨'t', _, rfl, by decide, by decide, nofun⟩
    | false => exact ⟨'f', _, rfl, by decide, by decide, nofun⟩

theorem stripPrefix?_atoms (names : List (List Char)) :
    Text.stripPrefix? "[" (atoms names).text = some (listBody names ++ [']']) :=
  Text.stripPrefix?_append "[" _

theorem stripSuffix?_listBody (names : List (List Char)) :
    Text.stripSuffix? "]" (listBody names ++ [']']) = some (listBody names) :=
  Text.stripSuffix?_append "]" _

theorem stripPrefix?_bracket (h : value.WellFormed) :
    (∃ names, value = atoms names) ∨ Text.stripPrefix? "[" value.text = none := by
  obtain ⟨c, rest, hText, _, _, hList⟩ := first h
  by_cases hBracket : c = '['
  · exact .inl (hList hBracket)
  · right
    rw [hText]
    exact Text.stripPrefix?_eq_none rfl (Ne.symm hBracket)

theorem splitArguments_listBody {names : List (List Char)} (h : (atoms names).WellFormed) :
    splitArguments (listBody names) = names.map (':' :: ·) := by
  refine splitArguments_join fun t ht => ?_
  obtain ⟨name, hName, rfl⟩ := List.mem_map.mp ht
  have hAtom : (atom name).WellFormed := h name hName
  exact ⟨isClosed hAtom, isTrimmed hAtom⟩

theorem parseNames_text (h : value.WellFormed) : parseNames value.text = value.names := by
  obtain ⟨c, rest, hText, hSigil, _, _⟩ := first h
  have hNoSigil : Text.stripPrefix? "~w" value.text = none := by
    rw [hText]
    exact Text.stripPrefix?_eq_none rfl (Ne.symm hSigil)
  rw [parseNames, (isTrimmed h).trim_eq, hNoSigil]
  rcases stripPrefix?_bracket h with ⟨names, rfl⟩ | hNoList
  · have hEach : ∀ name ∈ names, (parseName? ∘ (':' :: ·)) name = some name := by
      intro name hName
      have hAtom : (atom name).WellFormed := h name hName
      exact parseName?_text hAtom
    simp only [stripPrefix?_atoms, Option.bind_eq_bind, Option.bind_some, stripSuffix?_listBody,
      splitArguments_listBody h, List.filterMap_map, List.filterMap_congr hEach,
      List.filterMap_some]
    rfl
  · rw [hNoList, parseName?_text h]
    cases value with
    | atoms names => cases hNoList.symm.trans (stripPrefix?_atoms names)
    | _ => rfl

theorem parseKeyword?_text (h : value.WellFormed) : parseKeyword? value.text = none := by
  cases value with
  | string text => exact parseKeyword?_eq_none (by decide)
  | atom name => exact parseKeyword?_eq_none (by decide)
  | atoms names => exact parseKeyword?_eq_none (by decide)
  | module name => exact parseKeyword?_of_not_mem (IsModule.not_mem h (by decide) (by decide))
  | flag value =>
    cases value with
    | true => exact parseKeyword?_of_not_mem (by decide)
    | false => exact parseKeyword?_of_not_mem (by decide)

/-- A list of atoms is no list of keywords, as it begins with a colon. -/
theorem parseKeyword?_listBody (names : List (List Char)) (more : List Char)
    (hMore : more = [] ∨ more = [']']) :
    parseKeyword? (Text.trim (listBody names ++ more)) = none := by
  cases names with
  | nil => rcases hMore with rfl | rfl <;> exact parseKeyword?_of_not_mem (by decide)
  | cons name names =>
    have hFirst : ∃ rest, listBody (name :: names) = ':' :: rest := by
      cases names with
      | nil => exact ⟨name, Text.join_singleton _ _⟩
      | cons other names =>
        rw [listBody, List.map_cons, Text.join_cons _ _ (by simp)]
        exact ⟨_, rfl⟩
    obtain ⟨rest, hRest⟩ := hFirst
    rw [hRest, List.cons_append, Text.trim_cons (by decide)]
    exact parseKeyword?_eq_none (by decide)

theorem keywordListBody?_text (h : value.WellFormed) : keywordListBody? value.text = none := by
  rcases stripPrefix?_bracket h with ⟨names, rfl⟩ | hNoList
  · have hInner := parseKeyword?_listBody names [] (.inl rfl)
    rw [List.append_nil] at hInner
    simp only [keywordListBody?, stripPrefix?_atoms, Option.bind_eq_bind, Option.bind_some,
      stripSuffix?_listBody, hInner]
    rfl
  · rw [keywordListBody?, hNoList]
    rfl

theorem beginsKeywordList_text (h : value.WellFormed) : beginsKeywordList value.text = false := by
  rcases stripPrefix?_bracket h with ⟨names, rfl⟩ | hNoList
  · rw [beginsKeywordList, stripPrefix?_atoms, Option.any_some,
      parseKeyword?_listBody names _ (.inr rfl)]
    rfl
  · rw [beginsKeywordList, hNoList]
    rfl

end RouterValue

end PhoenixLens.Elixir
