import PhoenixLens.Proofs.Elixir.CodeLine
import PhoenixLens.Proofs.Elixir.RemarkReading
import PhoenixLens.Proofs.Elixir.RouterValue

/-!
# Lines that begin a module

The form of a line that begins a module: `defmodule`, a name and `do`, with blanks around them and
perhaps a comment at the end. The last word of such a line is its `do`.
-/

namespace PhoenixLens.Elixir

/-! ### Blanks -/

def AreBlank (text : List Char) : Prop := ∀ c ∈ text, Text.isBlank c = true

/-- The text is empty or begins with something else than a blank. -/
def BeginsSolid (text : List Char) : Prop := ∀ c ∈ text.head?, Text.isBlank c = false

variable {text blanks rest name ending : List Char}

theorem trimStart_append (h : AreBlank blanks) (hRest : BeginsSolid rest) :
    Text.trimStart (blanks ++ rest) = rest := by
  rw [Text.trimStart]
  exact Text.dropWhile_append_of_stop h hRest

theorem exists_trimStart (text : List Char) :
    ∃ blanks, AreBlank blanks ∧ BeginsSolid (Text.trimStart text) ∧
      text = blanks ++ Text.trimStart text := by
  refine ⟨text.takeWhile Text.isBlank, List.all_eq_true.mp List.all_takeWhile, fun c hc => ?_,
    List.takeWhile_append_dropWhile.symm⟩
  have hStop := List.head?_dropWhile_not Text.isBlank text
  rw [← Text.trimStart, hc] at hStop
  simpa using hStop

theorem afterBlanks?_eq_some_iff :
    afterBlanks? text = some rest ↔
      ∃ blanks, AreBlank blanks ∧ blanks ≠ [] ∧ BeginsSolid rest ∧ text = blanks ++ rest := by
  constructor
  · intro h
    cases text with
    | nil => cases h
    | cons c text =>
      rw [afterBlanks?] at h
      split at h
      · rename_i hBlank
        cases h
        obtain ⟨blanks, hBlanks, hSolid, hText⟩ := exists_trimStart text
        exact ⟨c :: blanks, List.forall_mem_cons.mpr ⟨hBlank, hBlanks⟩, List.cons_ne_nil _ _, hSolid,
          congrArg (List.cons c) hText⟩
      · cases h
  · rintro ⟨blanks, hBlanks, hNe, hSolid, rfl⟩
    obtain ⟨c, blanks, rfl⟩ := List.exists_cons_of_ne_nil hNe
    obtain ⟨hBlank, hMore⟩ := List.forall_mem_cons.mp hBlanks
    rw [List.cons_append, afterBlanks?, if_pos hBlank, trimStart_append hMore hSolid]

/-! ### The form of the line -/

/-- Blanks, and perhaps a comment in the same line. -/
inductive IsLineEnding : List Char → Prop where
  | blank {blanks : List Char} (h : AreBlank blanks) : IsLineEnding blanks
  | comment {blanks comment : List Char} (h : AreBlank blanks) (hComment : '\n' ∉ comment) :
      IsLineEnding (blanks ++ '#' :: comment)

theorem isLineEnd_iff : isLineEnd text = true ↔ IsLineEnding text := by
  constructor
  · intro h
    obtain ⟨blanks, hBlanks, -, hText⟩ := exists_trimStart text
    rw [isLineEnd] at h
    split at h
    · rename_i hEmpty
      rw [hText, hEmpty, List.append_nil]
      exact .blank hBlanks
    · rename_i c comment hRest
      obtain ⟨rfl, hComment⟩ : c = '#' ∧ '\n' ∉ comment := by simpa using h
      rw [hText, hRest]
      exact .comment hBlanks hComment
  · intro h
    cases h with
    | blank hBlanks =>
      have hTrim : Text.trimStart (text ++ []) = [] :=
        trimStart_append hBlanks (fun _ h => by cases h)
      rw [List.append_nil] at hTrim
      rw [isLineEnd, hTrim]
    | @comment blanks comment hBlanks hComment =>
      have hTrim : Text.trimStart (blanks ++ '#' :: comment) = '#' :: comment :=
        trimStart_append hBlanks (by rintro c ⟨⟩; decide)
      rw [isLineEnd, hTrim]
      simpa using hComment

/-- A name of a module as a line gives it. -/
structure IsGivenName (name : List Char) : Prop where
  upper : ∃ c rest, name = c :: rest ∧ Text.isAsciiUpper c = true
  chars : ∀ c ∈ name, (Text.isWord c || c == '.') = true

def IsModuleLine (name text : List Char) : Prop :=
  ∃ indent gap space ending, AreBlank indent ∧ (AreBlank gap ∧ gap ≠ []) ∧
    (AreBlank space ∧ space ≠ []) ∧ IsGivenName name ∧ IsLineEnding ending ∧
    text = indent ++ ("defmodule".toList ++ (gap ++ (name ++ (space ++ ("do".toList ++ ending)))))

theorem moduleOpening?_eq_some_iff : moduleOpening? text = some name ↔ IsModuleLine name text := by
  constructor
  · intro h
    rw [moduleOpening?] at h
    obtain ⟨behind, hWord, hRead⟩ := Option.bind_eq_some_iff.mp h
    obtain ⟨cs, hGap, hRead⟩ := Option.bind_eq_some_iff.mp hRead
    obtain ⟨last, hSpace, hRead⟩ := Option.bind_eq_some_iff.mp hRead
    obtain ⟨ending, hDo, hRead⟩ := Option.bind_eq_some_iff.mp hRead
    obtain ⟨hEnd, hName⟩ := Option.ite_none_right_eq_some.mp hRead
    obtain ⟨hUpper, hEnding⟩ := Bool.and_eq_true_iff.mp hEnd
    obtain ⟨indent, hIndent, -, hText⟩ := exists_trimStart text
    obtain ⟨gap, hGapBlank, hGapNe, -, hBehind⟩ := afterBlanks?_eq_some_iff.mp hGap
    obtain ⟨space, hSpaceBlank, hSpaceNe, -, hRest⟩ := afterBlanks?_eq_some_iff.mp hSpace
    have hWhole := List.takeWhile_append_dropWhile (p := fun c => Text.isWord c || c == '.') (l := cs)
    rw [hRest, ← List.isPrefixOf?_eq_some_iff_append_eq.mp hDo, Option.some.inj hName] at hWhole
    rw [Option.some.inj hName] at hUpper
    refine ⟨indent, gap, space, ending, hIndent, ⟨hGapBlank, hGapNe⟩, ⟨hSpaceBlank, hSpaceNe⟩,
      ⟨?_, ?_⟩, isLineEnd_iff.mp hEnding, ?_⟩
    · cases name with
      | nil => cases hUpper
      | cons c rest => exact ⟨c, rest, rfl, hUpper⟩
    · rw [← Option.some.inj hName]
      exact List.all_eq_true.mp List.all_takeWhile
    · rw [hText, ← List.isPrefixOf?_eq_some_iff_append_eq.mp hWord, hBehind, hWhole]
  · rintro ⟨indent, gap, space, ending, hIndent, ⟨hGap, hGapNe⟩, ⟨hSpace, hSpaceNe⟩, hName, hEnding,
      rfl⟩
    obtain ⟨c, rest, hUpperName, hUpper⟩ := hName.upper
    have hSolid {c : Char} (hc : (Text.isWord c || c == '.') = true) : Text.isBlank c = false :=
      (isMild_moduleNameChar c hc).1
    have hStart : Text.trimStart (indent ++ ("defmodule".toList ++
        (gap ++ (name ++ (space ++ ("do".toList ++ ending)))))) =
          "defmodule".toList ++ (gap ++ (name ++ (space ++ ("do".toList ++ ending)))) :=
      trimStart_append hIndent (by rintro c ⟨⟩; decide)
    have hBehind : afterBlanks? (gap ++ (name ++ (space ++ ("do".toList ++ ending)))) =
        some (name ++ (space ++ ("do".toList ++ ending))) := by
      refine afterBlanks?_eq_some_iff.mpr ⟨gap, hGap, hGapNe, ?_, rfl⟩
      rw [hUpperName]
      rintro d ⟨⟩
      exact hSolid (hName.chars c (hUpperName ▸ List.mem_cons_self))
    have hStop : ∀ c ∈ (space ++ ("do".toList ++ ending)).head?,
        (Text.isWord c || c == '.') = false := by
      obtain ⟨d, space, rfl⟩ := List.exists_cons_of_ne_nil hSpaceNe
      rintro c ⟨⟩
      exact isMild_moduleNameChar.isSolid.1 d (hSpace d List.mem_cons_self)
    have hLast : afterBlanks? (space ++ ("do".toList ++ ending)) = some ("do".toList ++ ending) :=
      afterBlanks?_eq_some_iff.mpr ⟨space, hSpace, hSpaceNe, by rintro c ⟨⟩; decide, rfl⟩
    have hFirst : name.head?.any Text.isAsciiUpper = true := by
      rw [hUpperName]
      exact hUpper
    rw [moduleOpening?, hStart, Text.stripPrefix?_append]
    simp only [Option.bind_eq_bind, Option.bind_some, hBehind,
      Text.takeWhile_append_of_stop hName.chars hStop,
      Text.dropWhile_append_of_stop hName.chars hStop, hLast, Text.stripPrefix?_append, hFirst,
      isLineEnd_iff.mpr hEnding, Bool.and_self, if_true]

/-! ### The last word of the line -/

theorem words_go_concat {c : Char} (h : continuesWord c = false) (previous : Option Char)
    (word : Option (Option Char × List Char)) (code rest : List Char) :
    ∃ found, words.go previous word (code ++ c :: rest) = found ++ words.go (some c) none rest := by
  have hStart := not_startsWord_of_not_continuesWord h
  induction code generalizing previous word with
  | nil =>
    cases word with
    | none => exact ⟨[], words_go_cons hStart previous rest⟩
    | some unfinished => exact ⟨[_], by rw [List.nil_append, words.go, if_neg (by simp [h])]; rfl⟩
  | cons d code ih =>
    rw [List.cons_append]
    cases word with
    | none =>
      rw [words.go]
      split
      · exact ih _ _
      · exact ih _ _
    | some unfinished =>
      rw [words.go]
      split
      · exact ih _ _
      · obtain ⟨found, hFound⟩ := ih (some d) none
        exact ⟨_ :: found, by rw [hFound]; rfl⟩

theorem IsLineEnding.codeOf (h : IsLineEnding ending) : AreBlank (codeOf.go .code ending) := by
  cases h with
  | blank hBlanks =>
    have hCode := codeOf_go_append (fun c hc => isPlain_of_isBlank (hBlanks c hc)) []
    rw [List.append_nil] at hCode
    rw [hCode]
    simpa [AreBlank, Elixir.codeOf.go] using hBlanks
  | comment hBlanks hComment =>
    rw [codeOf_go_append fun c hc => isPlain_of_isBlank (hBlanks c hc)]
    simpa [AreBlank, Elixir.codeOf.go] using hBlanks

namespace AreBlank

theorem isPlain (h : AreBlank text) : ∀ c ∈ text, isPlain c = true :=
  fun c hc => isPlain_of_isBlank (h c hc)

theorem isQuiet (h : AreBlank text) : IsQuiet text :=
  .of_all fun c hc => not_startsWord_of_isBlank (h c hc)

theorem isApart (h : AreBlank text) : IsApart text :=
  fun c hc => continuesWord_of_isBlank (h c (List.mem_of_mem_head? hc))

theorem isQuiet_append (h : AreBlank text) (hRest : IsQuiet rest) : IsQuiet (text ++ rest) := by
  induction text with
  | nil => exact hRest
  | cons c text ih =>
    obtain ⟨hBlank, hMore⟩ := List.forall_mem_cons.mp h
    exact .cons (not_startsWord_of_isBlank hBlank) (ih hMore)

end AreBlank

/-- The code of the line ends in its `do`, behind a blank. -/
theorem IsModuleLine.exists_codeOf (h : IsModuleLine name text) :
    ∃ front c blanks, Text.isBlank c = true ∧ AreBlank blanks ∧
      codeOf text = front ++ c :: ("do".toList ++ blanks) ∧ (IsModule name → IsQuiet front) := by
  obtain ⟨indent, gap, space, ending, hIndent, ⟨hGap, hGapNe⟩, ⟨hSpace, hSpaceNe⟩, hName, hEnding,
    rfl⟩ := h
  obtain ⟨blanks, c, rfl⟩ : ∃ blanks c, space = blanks ++ [c] :=
    ⟨_, _, (List.dropLast_append_getLast hSpaceNe).symm⟩
  have hBlanks : AreBlank blanks := fun d hd => hSpace d (List.mem_append_left _ hd)
  have hBlank : Text.isBlank c = true := hSpace c (by simp)
  let front := indent ++ ("defmodule".toList ++ (gap ++ (name ++ blanks)))
  have hPlain : ∀ d ∈ front ++ c :: "do".toList, isPlain d = true := by
    have hNamePlain : ∀ d ∈ name, isPlain d = true :=
      fun d hd => (isMild_moduleNameChar d (hName.chars d hd)).2.1
    simp only [front, List.forall_mem_append, List.forall_mem_cons]
    exact ⟨⟨hIndent.isPlain, by decide, hGap.isPlain, hNamePlain, hBlanks.isPlain⟩,
      isPlain_of_isBlank hBlank, by decide⟩
  have hText : indent ++ ("defmodule".toList ++ (gap ++ (name ++ ((blanks ++ [c]) ++
      ("do".toList ++ ending))))) = front ++ c :: "do".toList ++ ending := by
    simp [front]
  refine ⟨front, c, codeOf.go .code ending, hBlank, hEnding.codeOf, ?_, fun hModule => ?_⟩
  · rw [hText, codeOf, codeOf_go_append hPlain, List.append_assoc, List.cons_append]
  · have hWord : IsQuiet "defmodule".toList :=
      .word ⟨⟨'d', _, rfl, by decide⟩, by decide⟩ ⟨by decide, by decide, by decide⟩
    have hTail : IsQuiet (gap ++ (name ++ blanks)) :=
      hGap.isQuiet_append (hModule.isQuiet.append hBlanks.isQuiet hBlanks.isApart)
    have hApart : IsApart (gap ++ (name ++ blanks)) := by
      obtain ⟨d, gap, rfl⟩ := List.exists_cons_of_ne_nil hGapNe
      intro e he
      cases he
      exact continuesWord_of_isBlank (hGap _ List.mem_cons_self)
    exact hIndent.isQuiet_append (hWord.append hTail hApart)

/-- The last word of such a line, with the character before it. -/
theorem words_go_do {c : Char} (hBlank : Text.isBlank c = true) (hBlanks : AreBlank blanks)
    (previous : Option Char) :
    words.go previous none (c :: ("do".toList ++ blanks)) =
      [⟨"do".toList, some c, blanks.head?⟩] := by
  have hStart : startsWord c = false := not_startsWord_of_isBlank hBlank
  have hRun : IsWordRun "do".toList := ⟨⟨'d', ['o'], rfl, by decide⟩, by decide⟩
  rw [words_go_cons hStart, words_go_append hRun hBlanks.isApart, words_go_of_blanks hBlanks]

theorem keywordOf_do {c : Char} (hBlank : Text.isBlank c = true) (hBlanks : AreBlank blanks) :
    keywordOf ⟨"do".toList, some c, blanks.head?⟩ = "do".toList := by
  have hNot {d : Char} (hd : Text.isBlank d = true) : d ≠ ':' ∧ d ≠ '.' := by
    constructor <;> rintro rfl <;> revert hd <;> decide
  have hAfter : blanks.head? ≠ some ':' := fun hHead =>
    (hNot (hBlanks _ (List.mem_of_mem_head? hHead))).1 rfl
  simp [keywordOf, hNot hBlank, hAfter]

theorem IsModuleLine.getLast?_keywords (h : IsModuleLine name text) :
    ((words (codeOf text)).map keywordOf).getLast? = some "do".toList := by
  obtain ⟨front, c, blanks, hBlank, hBlanks, hCode, -⟩ := h.exists_codeOf
  obtain ⟨found, hFound⟩ := words_go_concat (continuesWord_of_isBlank hBlank) none none front
    ("do".toList ++ blanks)
  rw [hCode, words, hFound, ← words_go_cons (not_startsWord_of_isBlank hBlank) none,
    words_go_do hBlank hBlanks, List.map_append, List.map_singleton, List.getLast?_concat,
    keywordOf_do hBlank hBlanks]

theorem CodeLine.moduleOpening?_eq_none {line : CodeLine}
    (h : line.lastBlockWord? ≠ some .opensDo) : moduleOpening? line.text = none := by
  rw [Option.eq_none_iff_forall_ne_some]
  intro name hName
  have hModule := moduleOpening?_eq_some_iff.mp hName
  exact h (line.getLast?_keywords.mp hModule.getLast?_keywords)

end PhoenixLens.Elixir
