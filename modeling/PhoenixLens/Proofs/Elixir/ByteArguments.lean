import PhoenixLens.Elixir.Definition
import PhoenixLens.Proofs.Elixir.ByteLines
import PhoenixLens.Proofs.Elixir.Closed
import PhoenixLens.Proofs.Markup.UseOffsets
import PhoenixLens.Text.Casing

/-!
# Arguments in place

The second account of how calls, heads of definitions and their arguments are read, in the terms of
a reader that finds byte offsets in one text and cuts at them there: behind an opening parenthesis,
before the bracket that closes it, at the colon of a keyword, behind the first and before the last
character of a word list.
-/

namespace PhoenixLens.Elixir.InPlace

open Markup.ByteScanner (from? from?_eq)
open Text (RestAt)

/-! ### Brackets -/

/-- The offset of the bracket that closes one opened just before the text. -/
def closingAt? (text : List Char) : Option Nat :=
  go .code 0 0 text
where
  /-- Continues at an offset with the given number of brackets opened since. -/
  go : Quoting → Nat → Nat → List Char → Option Nat
    | _, _, _, [] => none
    | .code, depth, pos, c :: cs =>
      if isOpening c then go .code (depth + 1) (pos + c.utf8Size) cs
      else if isClosing c then
        match depth with
        | 0 => some pos
        | depth + 1 => go .code depth (pos + c.utf8Size) cs
      else go (Quoting.code.step c) depth (pos + c.utf8Size) cs
    | state, depth, pos, c :: cs => go (state.step c) depth (pos + c.utf8Size) cs

/-- The text before the bracket that closes one opened just before the text. -/
def beforeClosing (text : List Char) : Option (Option (List Char)) :=
  match closingAt? text with
  | some close => (before? text close).map some
  | none => some none

theorem closingAt?_go_eq (state : Quoting) (depth pos : Nat) (text : List Char) :
    closingAt?.go state depth pos text =
      (beforeClosing?.go state depth text).map fun inner => pos + Text.byteLength inner := by
  induction text generalizing state depth pos with
  | nil => cases state <;> rfl
  | cons c text ih =>
    have hNext (found : Option (List Char)) :
        (found.map fun inner => pos + c.utf8Size + Text.byteLength inner) =
          (found.map (c :: ·)).map fun inner => pos + Text.byteLength inner := by
      simp [Option.map_map, Function.comp_def, Nat.add_assoc]
    cases state with
    | quoted quote escaped => exact (ih _ depth _).trans (hNext _)
    | code =>
      simp only [closingAt?.go, beforeClosing?.go]
      split
      · rw [ih, hNext]
      · split
        · cases depth with
          | zero => rfl
          | succ depth => exact (ih _ depth _).trans (hNext _)
        · rw [ih, hNext]

theorem beforeClosing?_go_prefix {state : Quoting} {depth : Nat} {text inner : List Char}
    (h : beforeClosing?.go state depth text = some inner) : inner <+: text := by
  induction text generalizing state depth inner with
  | nil => cases state <;> cases h
  | cons c text ih =>
    rcases beforeClosing?_go_cons state depth c with ⟨-, hEnd⟩ | ⟨next, -, hNext⟩
    · rw [hEnd] at h
      cases h
      exact List.nil_prefix
    · rw [hNext] at h
      obtain ⟨tail, hTail, rfl⟩ := Option.map_eq_some_iff.mp h
      exact List.cons_prefix_cons.mpr ⟨rfl, ih hTail⟩

@[simp] theorem beforeClosing_eq (text : List Char) :
    beforeClosing text = some (beforeClosing? text) := by
  rw [beforeClosing, closingAt?, closingAt?_go_eq, ← beforeClosing?]
  cases hInner : beforeClosing? text with
  | none => rfl
  | some inner =>
    obtain ⟨rest, rfl⟩ := beforeClosing?_go_prefix hInner
    rw [Option.map_some, Nat.zero_add]
    exact congrArg (Option.map some) (before?_eq inner rest)

/-! ### Calls and definitions -/

/-- The arguments of a call of `name` that the text begins with. -/
def callArguments (text : List Char) (name : String) : Option (Option (List Char)) :=
  match Text.stripPrefix? name (Text.trimStart text) with
  | none => some none
  | some rest =>
    if rest.isEmpty || rest.head? == some ' ' || rest.head? == some '(' then
      let arguments := stripTrailingDo (Text.trim rest)
      match Text.stripPrefix? "(" arguments with
      | none => some (some arguments)
      | some inner => do return some (Text.trim ((← beforeClosing inner).getD (dropClosing inner)))
    else some none

/-- Whether a definition is private, its name, and the offset behind its opening parenthesis. -/
def headAt? (text : List Char) : Option (Bool × List Char × Nat) := do
  let behind ← Text.stripPrefix? "def" (Text.trimStart text)
  let isPrivate := behind.head? == some 'p'
  let spaced := if isPrivate then behind.tail else behind
  let cs ← afterBlanks? spaced
  let identifier ← identifier? cs
  let name := withMark identifier (cs.drop identifier.length)
  let _ ← Text.stripPrefix? "(" (cs.drop name.length)
  let start := Text.byteLength (text.takeWhile Text.isBlank) + 3 + isPrivate.toNat +
    Text.byteLength (spaced.takeWhile Text.isBlank)
  return (isPrivate, name, start + Text.byteLength name + 1)

def head (text : List Char) : Option (Option DefinitionHead) :=
  match headAt? text with
  | none => some none
  | some (isPrivate, name, stop) => do return some ⟨isPrivate, name, ← from? text stop⟩

def headArguments (found : DefinitionHead) : Option (Option (List (List Char))) := do
  return (← beforeClosing found.rest).map splitArguments

/-- The arguments of the calls of `name` in a text, of which the given characters are left at the
offset `pos`, behind the character `previous`. -/
def callsFrom (name : String) (text : List Char) (previous : Option Char) (pos : Nat) :
    List Char → Option (List (List (List Char)))
  | [] => some []
  | c :: cs => do
    let later ← callsFrom name text (some c) (pos + c.utf8Size) cs
    let isCall := !previous.any Text.isWord &&
      (Text.stripPrefix? name (c :: cs) >>= Text.stripPrefix? "(").isSome
    if isCall then do
      let inner ← from? text (pos + Text.byteLength name.toList + 1)
      return ((← beforeClosing inner).map splitArguments).toList ++ later
    else return later

def calls (name : String) (text : List Char) : Option (List (List (List Char))) :=
  callsFrom name text none 0 text

@[simp] theorem callArguments_eq (text : List Char) (name : String) :
    callArguments text name = some (callArguments? text name) := by
  rw [callArguments, callArguments?]
  cases Text.stripPrefix? name (Text.trimStart text) with
  | none => rfl
  | some rest =>
    dsimp only [Option.bind_eq_bind, Option.bind_some]
    cases hCall : rest.isEmpty || rest.head? == some ' ' || rest.head? == some '(' with
    | false => rfl
    | true =>
      cases Text.stripPrefix? "(" (stripTrailingDo (Text.trim rest)) with
      | none => rfl
      | some inner => simp [beforeClosing_eq]

section Heads

variable {text behind spaced cs name rest : List Char} {pos : Nat}

theorem restAt_of_def (h : Text.stripPrefix? "def" (Text.trimStart text) = some behind) :
    RestAt text (Text.byteLength (text.takeWhile Text.isBlank) + 3) behind := by
  rw [Text.stripPrefix?, List.isPrefixOf?_eq_some_iff_append_eq] at h
  have hDef : RestAt text (Text.byteLength (text.takeWhile Text.isBlank))
      ("def".toList ++ behind) :=
    ⟨_, by rw [h, Text.trimStart, List.takeWhile_append_dropWhile], rfl⟩
  exact hDef.append

theorem restAt_of_private (h : RestAt text pos behind) :
    RestAt text (pos + (behind.head? == some 'p').toNat)
      (if behind.head? == some 'p' then behind.tail else behind) := by
  cases behind with
  | nil => exact h
  | cons c behind =>
    by_cases hPrivate : c = 'p'
    · subst hPrivate
      exact h.tail
    · have hPublic : ((c :: behind).head? == some 'p') = false := by simpa using hPrivate
      rw [hPublic]
      exact h

theorem restAt_of_afterBlanks? (h : RestAt text pos spaced)
    (hBlanks : afterBlanks? spaced = some cs) :
    RestAt text (pos + Text.byteLength (spaced.takeWhile Text.isBlank)) cs := by
  cases spaced with
  | nil => cases hBlanks
  | cons c spaced =>
    rw [afterBlanks?] at hBlanks
    split at hBlanks
    · rename_i hBlank
      cases hBlanks
      rw [← List.takeWhile_append_dropWhile (p := Text.isBlank) (l := c :: spaced)] at h
      have hRest := h.append
      rwa [List.dropWhile_cons_of_pos hBlank] at hRest
    · cases hBlanks

theorem eq_name_append {identifier : List Char} (hIdentifier : identifier? cs = some identifier)
    (hName : withMark identifier (cs.drop identifier.length) = name)
    (hOpen : Text.stripPrefix? "(" (cs.drop name.length) = some rest) :
    cs = name ++ '(' :: rest := by
  obtain ⟨tail, rfl⟩ := identifier?_prefix hIdentifier
  obtain ⟨further, hFurther⟩ := withMark_prefix identifier tail
  rw [List.drop_left] at hName
  rw [hFurther, hName, List.drop_left, Text.stripPrefix?,
    List.isPrefixOf?_eq_some_iff_append_eq] at hOpen
  rw [hFurther, hName, ← hOpen]
  rfl

end Heads

theorem headAt?_eq (text : List Char) :
    (headAt? text = none ∧ definitionHead? text = none) ∨
      ∃ found stop, headAt? text = some (found.isPrivate, found.name, stop) ∧
        definitionHead? text = some found ∧ RestAt text stop found.rest := by
  rw [headAt?, definitionHead?]
  cases hDef : Text.stripPrefix? "def" (Text.trimStart text) with
  | none => exact .inl ⟨rfl, rfl⟩
  | some behind =>
    have hSpaced := restAt_of_private (restAt_of_def hDef)
    dsimp only [Option.bind_eq_bind, Option.bind_some]
    cases hBlanks : afterBlanks? (if behind.head? == some 'p' then behind.tail else behind) with
    | none => exact .inl ⟨rfl, rfl⟩
    | some cs =>
      have hCs := restAt_of_afterBlanks? hSpaced hBlanks
      dsimp only [Option.bind_some]
      cases hIdentifier : identifier? cs with
      | none => exact .inl ⟨rfl, rfl⟩
      | some identifier =>
        dsimp only [Option.bind_some]
        generalize hName : withMark identifier (cs.drop identifier.length) = name
        cases hOpen : Text.stripPrefix? "(" (cs.drop name.length) with
        | none => exact .inl ⟨rfl, rfl⟩
        | some rest =>
          refine .inr ⟨⟨_, name, rest⟩, _, rfl, rfl, ?_⟩
          rw [eq_name_append hIdentifier hName hOpen] at hCs
          exact hCs.append.tail

@[simp] theorem head_eq (text : List Char) : head text = some (definitionHead? text) := by
  rcases headAt?_eq text with ⟨hAt, hHead⟩ | ⟨found, stop, hAt, hHead, hRest⟩
  · rw [head, hAt, hHead]
  · have hFrom := from?_eq hRest
    rw [head, hAt, hHead]
    simp only [hFrom]
    rfl

@[simp] theorem headArguments_eq (found : DefinitionHead) :
    headArguments found = some found.arguments? := by
  rw [headArguments, beforeClosing_eq]
  rfl

theorem callsFrom_eq {name : String} {text rest : List Char} {pos : Nat}
    (h : RestAt text pos rest) (previous : Option Char) :
    callsFrom name text previous pos rest = some (callsOf.go name previous rest) := by
  induction rest generalizing previous pos with
  | nil => rfl
  | cons c rest ih =>
    rw [callsFrom, ih h.tail, callsOf.go]
    cases previous.any Text.isWord with
    | true => rfl
    | false =>
      cases hName : Text.stripPrefix? name (c :: rest) >>= Text.stripPrefix? "(" with
      | none => rfl
      | some inner =>
        have hRest : RestAt text (pos + Text.byteLength name.toList + 1) inner := by
          obtain ⟨piece, hPiece, hInner⟩ := Option.bind_eq_some_iff.mp hName
          rw [Text.stripPrefix?, List.isPrefixOf?_eq_some_iff_append_eq] at hPiece hInner
          rw [← hPiece, ← hInner] at h
          exact h.append.tail
        simp [from?_eq hRest, beforeClosing_eq]

@[simp] theorem calls_eq (name : String) (text : List Char) :
    calls name text = some (callsOf name text) :=
  callsFrom_eq (RestAt.self text) none

/-! ### Keywords -/

/-- An argument `key: value` as its two parts. -/
def parseKeyword (argument : List Char) : Option (Option (List Char × List Char)) :=
  match Text.offsetOf? [':'] 0 argument with
  | none => some none
  | some colon => do
    let key ← before? argument colon
    let rest ← from? argument (colon + 1)
    return if !key.isEmpty && key.all isKeyChar && (rest.isEmpty || rest.head? == some ' ') then
      some (key, Text.trim rest)
    else none

def keywordListBody (argument : List Char) : Option (Option (List Char)) :=
  match Text.stripPrefix? "[" argument >>= Text.stripSuffix? "]" with
  | none => some none
  | some inner => do return if (← parseKeyword (Text.trim inner)).isSome then some inner else none

def keywordsIn (argument : List Char) : Option (List (List Char × List Char)) := do
  match ← keywordListBody argument with
  | some inner => return (← (splitArguments inner).mapM parseKeyword).filterMap id
  | none => return (← parseKeyword argument).toList

def keywordArguments (arguments : List (List Char)) : Option (List (List Char × List Char)) := do
  return (← arguments.mapM keywordsIn).flatten

def beginsKeywordList (argument : List Char) : Option Bool :=
  match Text.stripPrefix? "[" argument with
  | none => some false
  | some inner => do return (← parseKeyword (Text.trim inner)).isSome

/-- The arguments before the first keyword. -/
def positionalArguments : List (List Char) → Option (List (List Char))
  | [] => some []
  | argument :: later => do
    let isKeyword := (← parseKeyword argument).isSome || (← beginsKeywordList argument)
    if isKeyword then return [] else return argument :: (← positionalArguments later)

@[simp] theorem parseKeyword_eq (argument : List Char) :
    parseKeyword argument = some (parseKeyword? argument) := by
  rw [parseKeyword, parseKeyword?, Text.offsetOf?, cutAtColon?]
  cases hCut : Text.cutAt? [':'] argument with
  | none => rfl
  | some cut =>
    obtain ⟨key, rest⟩ := cut
    have hArgument := Text.append_of_cutAt? hCut
    have hKey : before? argument (0 + Text.byteLength key) = some key := by
      rw [← hArgument, List.append_assoc, Nat.zero_add]
      exact before?_eq key _
    have hRest : from? argument (0 + Text.byteLength key + 1) = some rest := by
      refine from?_eq ⟨key ++ [':'], hArgument.symm, ?_⟩
      rw [Text.byteLength_append, Nat.zero_add]
      rfl
    simp only [Option.map_some, hKey, hRest, Option.bind_eq_bind, Option.bind_some]
    cases key.isEmpty <;> cases key.all isKeyChar <;>
      cases rest.isEmpty || rest.head? == some ' ' <;> rfl

@[simp] theorem keywordListBody_eq (argument : List Char) :
    keywordListBody argument = some (keywordListBody? argument) := by
  rw [keywordListBody, keywordListBody?]
  cases Text.stripPrefix? "[" argument with
  | none => rfl
  | some opened =>
    dsimp only [Option.bind_eq_bind, Option.bind_some]
    cases Text.stripSuffix? "]" opened with
    | none => rfl
    | some inner => simp only [parseKeyword_eq]; rfl

@[simp] theorem keywordsIn_eq (argument : List Char) :
    keywordsIn argument = some (match keywordListBody? argument with
      | some inner => (splitArguments inner).filterMap parseKeyword?
      | none => (parseKeyword? argument).toList) := by
  rw [keywordsIn, keywordListBody_eq, Option.bind_eq_bind, Option.bind_some]
  cases keywordListBody? argument with
  | none => rw [parseKeyword_eq]; rfl
  | some inner =>
    simp [mapM_some parseKeyword_eq]

@[simp] theorem keywordArguments_eq (arguments : List (List Char)) :
    keywordArguments arguments = some (Elixir.keywordArguments arguments) := by
  rw [keywordArguments, mapM_some keywordsIn_eq]
  rfl

@[simp] theorem beginsKeywordList_eq (argument : List Char) :
    beginsKeywordList argument = some (Elixir.beginsKeywordList argument) := by
  rw [beginsKeywordList, Elixir.beginsKeywordList]
  cases Text.stripPrefix? "[" argument with
  | none => rfl
  | some inner => simp only [parseKeyword_eq]; rfl

@[simp] theorem positionalArguments_eq (arguments : List (List Char)) :
    positionalArguments arguments = some (Elixir.positionalArguments arguments) := by
  induction arguments with
  | nil => rfl
  | cons argument later ih =>
    rw [positionalArguments, parseKeyword_eq, beginsKeywordList_eq, ih, Elixir.positionalArguments,
      Elixir.positionalArguments, List.takeWhile_cons]
    cases parseKeyword? argument <;> cases Elixir.beginsKeywordList argument <;> rfl

/-! ### Names -/

/-- What stands behind the first byte and before the last one, where these are characters. -/
def betweenEnds (cs : List Char) : Option (List Char) := do
  let stop ← atLeastZero (Text.byteLength cs) 1
  return (Text.span? cs 1 stop).getD []

def parseNames (text : List Char) : Option (List (List Char)) :=
  let trimmed := Text.trim text
  match Text.stripPrefix? "~w" trimmed with
  | some rest => do return Text.words (← betweenEnds (Text.dropEndWhile Text.isAsciiLetter rest))
  | none => some (
    match Text.stripPrefix? "[" trimmed >>= Text.stripSuffix? "]" with
    | some inner => (splitArguments inner).filterMap parseName?
    | none => (parseName? trimmed).toList)

def singular (word : List Char) : Option (List Char) :=
  match (Text.stripSuffix? "ies" word).filter (!·.isEmpty) with
  | some stem => some (stem ++ ['y'])
  | none =>
    if ["ses", "xes", "zes"].any (fun e => Text.endsWith e word && Text.byteLength word > 3) then do
      before? word (← minus? (Text.byteLength word) 2)
    else if Text.endsWith "ss" word then some word
    else some (((Text.stripSuffix? "s" word).filter (!·.isEmpty)).getD word)

/-- The rest of a name from the index `i` on in lower case, with underscores between its words. -/
def snakeFrom (name : List Char) (i : Nat) : List Char → Option (List Char)
  | [] => some []
  | c :: cs => do
    let later ← snakeFrom name (i + 1) cs
    if Text.isUppercase c then do
      let before ← charBefore name i
      let beginsWord := before.any fun p => Text.isLowercase p || Text.isAsciiDigit p ||
        (Text.isUppercase p && name[i + 1]?.any Text.isLowercase)
      return (if beginsWord then ['_'] else []) ++ Text.lowercase c ++ later
    else return c :: later

def snakeCase (name : List Char) : Option (List Char) := snakeFrom name 0 name

@[simp] theorem betweenEnds_eq (cs : List Char) :
    betweenEnds cs = some (Elixir.betweenEnds cs) := by
  rw [betweenEnds, atLeastZero_eq, Option.bind_eq_bind, Option.bind_some]
  cases cs with
  | nil => rfl
  | cons opening rest =>
    rw [Elixir.betweenEnds]
    have hSize := opening.utf8Size_pos
    cases hOpening : opening.utf8Size == 1 with
    | false =>
      have hWide : ¬opening.utf8Size ≤ 1 := by
        have hNe := beq_eq_false_iff_ne.mp hOpening
        omega
      simp [Text.span?, Text.isBoundary, hWide]
    | true =>
      have hOne : opening.utf8Size = 1 := beq_iff_eq.mp hOpening
      have hStop : Text.byteLength (opening :: rest) - 1 = Text.byteLength rest := by
        rw [Text.byteLength_cons, hOne, Nat.add_sub_cancel_left]
      rw [hStop]
      rcases List.eq_nil_or_concat' rest with rfl | ⟨front, last, rfl⟩
      · rfl
      · have hRest : RestAt (opening :: (front ++ [last])) 1 (front ++ [last]) :=
          ⟨[opening], rfl, hOne⟩
        rw [List.getLast?_concat, List.dropLast_concat, Text.byteLength_append]
        cases hLast : last.utf8Size == 1 with
        | true =>
          have hBytes : Text.byteLength [last] = 1 := beq_iff_eq.mp hLast
          have hSpan := hRest.standsAt.span?
          rw [Nat.add_comm] at hSpan
          rw [hBytes, hSpan, Option.any_some, hLast]
          rfl
        | false =>
          -- a cut before the last byte would leave a character of one byte behind it
          have hNone : Text.span? (opening :: (front ++ [last])) 1
              (Text.byteLength front + Text.byteLength [last]) = none := by
            by_contra hSome
            obtain ⟨piece, hPiece⟩ := Option.ne_none_iff_exists'.mp hSome
            obtain ⟨hStands, hLength⟩ := Text.span?_eq_some_iff.mp hPiece
            obtain ⟨more, hMore⟩ := hStands.exists_rest
            have hBoth := hRest.unique hMore
            have hBytes := congrArg Text.byteLength hBoth
            rw [Text.byteLength_append, Text.byteLength_append] at hBytes
            rcases List.eq_nil_or_concat' more with rfl | ⟨more, behind, rfl⟩
            · rw [Text.byteLength_nil] at hBytes
              omega
            · rw [← List.append_assoc] at hBoth
              obtain rfl : last = behind := by simpa using (List.append_inj' hBoth rfl).2
              have hLastSize := last.utf8Size_pos
              have hLastBytes : Text.byteLength [last] = last.utf8Size := rfl
              rw [Text.byteLength_append] at hBytes
              exact beq_eq_false_iff_ne.mp hLast (by omega)
          rw [hNone, Option.any_some, hLast, Bool.and_false]
          rfl

example : betweenEnds "「a」".toList = some [] := by decide

@[simp] theorem parseNames_eq (text : List Char) :
    parseNames text = some (Elixir.parseNames text) := by
  rw [parseNames, Elixir.parseNames]
  cases Text.stripPrefix? "~w" (Text.trim text) with
  | none => rfl
  | some rest => simp [betweenEnds_eq]

section Plurals

variable {word : List Char} {ending : String}

theorem exists_of_mem_plurals (h : ending ∈ ["ses", "xes", "zes"]) :
    ∃ c : Char, ending.toList = [c, 'e', 's'] ∧ Text.byteLength [c, 'e', 's'] = 3 := by
  simp only [List.mem_cons, List.not_mem_nil, or_false] at h
  rcases h with rfl | rfl | rfl
  · exact ⟨'s', rfl, rfl⟩
  · exact ⟨'x', rfl, rfl⟩
  · exact ⟨'z', rfl, rfl⟩

theorem three_lt_byteLength_iff (h : ending ∈ ["ses", "xes", "zes"])
    (hEnds : Text.endsWith ending word = true) :
    3 < Text.byteLength word ↔ 3 < word.length := by
  obtain ⟨c, hEnding, hSize⟩ := exists_of_mem_plurals h
  obtain ⟨stem, rfl⟩ := Text.endsWith_iff.mp hEnds
  have hLength : [c, 'e', 's'].length = 3 := rfl
  rw [hEnding, Text.byteLength_append, List.length_append, hSize, hLength]
  cases stem with
  | nil => rfl
  | cons d stem =>
    have hFirst := d.utf8Size_pos
    rw [Text.byteLength_cons, List.length_cons]
    omega

theorem before?_es (h : ending ∈ ["ses", "xes", "zes"])
    (hEnds : Text.endsWith ending word = true) :
    (minus? (Text.byteLength word) 2 >>= before? word) = some (word.take (word.length - 2)) := by
  obtain ⟨c, hEnding, -⟩ := exists_of_mem_plurals h
  obtain ⟨stem, rfl⟩ := Text.endsWith_iff.mp hEnds
  have hWord : stem ++ ending.toList = (stem ++ [c]) ++ ['e', 's'] := by
    rw [hEnding, List.append_assoc]
    rfl
  have hBytes : Text.byteLength ['e', 's'] = 2 := rfl
  have hLength : ['e', 's'].length = 2 := rfl
  rw [hWord, Text.byteLength_append, hBytes, minus?_eq (Nat.le_add_left _ _), Nat.add_sub_cancel,
    List.length_append, hLength, Nat.add_sub_cancel, List.take_left]
  exact before?_eq _ _

end Plurals

@[simp] theorem singular_eq (word : List Char) : singular word = some (Text.singular word) := by
  rw [singular, Text.singular]
  cases (Text.stripSuffix? "ies" word).filter (!·.isEmpty) with
  | some stem => rfl
  | none =>
    have hAny : (["ses", "xes", "zes"].any fun e =>
        Text.endsWith e word && Text.byteLength word > 3) =
          ["ses", "xes", "zes"].any fun e => Text.endsWith e word && word.length > 3 := by
      rw [Bool.eq_iff_iff, List.any_eq_true, List.any_eq_true]
      simp only [Bool.and_eq_true, decide_eq_true_eq]
      exact exists_congr fun e => and_congr_right fun he =>
        and_congr_right (three_lt_byteLength_iff he)
    dsimp only
    rw [hAny]
    split
    · rename_i hPlural
      obtain ⟨ending, hMem, hEnds⟩ := List.any_eq_true.mp hPlural
      exact before?_es hMem (Bool.and_eq_true_iff.mp hEnds).1
    · split <;> rfl

theorem snakeFrom_eq (front rest : List Char) :
    snakeFrom (front ++ rest) front.length rest =
      some (Text.snakeCase.go front.getLast? rest) := by
  induction rest generalizing front with
  | nil => rfl
  | cons c rest ih =>
    have hLater := ih (front ++ [c])
    rw [List.append_assoc, List.length_append, List.getLast?_concat] at hLater
    change snakeFrom (front ++ c :: rest) (front.length + 1) rest = _ at hLater
    have hNext : (front ++ c :: rest)[front.length + 1]? = rest.head? := by
      rw [List.getElem?_append_right (Nat.le_succ _), List.head?_eq_getElem?,
        Nat.succ_sub (Nat.le_refl _), Nat.sub_self]
      rfl
    rw [snakeFrom, Text.snakeCase.go, hLater, hNext, charBefore_eq]
    cases Text.isUppercase c <;> rfl

@[simp] theorem snakeCase_eq (name : List Char) : snakeCase name = some (Text.snakeCase name) :=
  snakeFrom_eq [] name

end PhoenixLens.Elixir.InPlace
