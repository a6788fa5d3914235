import Mathlib.Data.List.TakeWhile
import Mathlib.Data.Nat.Basic
import PhoenixLens.Proofs.Json.Written

/-!
# The tokens of a printed value

Each part of the compact form is cut into its tokens in the same way wherever it stands. Only a
scalar needs to know what follows: it ends where a character follows that no scalar has.
-/

namespace PhoenixLens.Json

/-! ### Reading on -/

/-- The tokens of a text, read on from the middle of it. -/
def tokensFrom (state : Lexing × List Token) (cs : List Char) : Option (List Token) := do
  let (state, found) ← cs.foldlM takeChar state
  match state with
  | .idle => some found.reverse
  | .scalar seen => (scalar? seen.reverse).map fun value => (Token.scalar value :: found).reverse
  | _ => none

theorem tokens?_eq_tokensFrom (cs : List Char) : tokens? cs = tokensFrom (.idle, []) cs := rfl

theorem tokensFrom_cons {state next : Lexing} {found tokens : List Token} {c : Char}
    (h : state.step c = some (next, tokens)) (cs : List Char) :
    tokensFrom (state, found) (c :: cs) = tokensFrom (next, tokens.reverse ++ found) cs := by
  simp only [tokensFrom, List.foldlM_cons, takeChar, h, Option.bind_eq_bind, Option.bind_some]

theorem tokensFrom_idle_cons {next : Lexing} {found tokens : List Token} {c : Char}
    (h : startToken c = some (next, tokens)) (cs : List Char) :
    tokensFrom (.idle, found) (c :: cs) = tokensFrom (next, tokens.reverse ++ found) cs :=
  tokensFrom_cons (show Lexing.idle.step c = some (next, tokens) from h) cs

/-- A text is cut into tokens wherever it stands between tokens. -/
def Lexes (cs : List Char) (tokens : List Token) : Prop :=
  ∀ found rest, tokensFrom (.idle, found) (cs ++ rest) =
    tokensFrom (.idle, tokens.reverse ++ found) rest

/-- No scalar goes on at the beginning of the text. -/
def EndsScalar (rest : List Char) : Prop := ∀ c, rest.head? = some c → isScalarChar c = false

/-- A text is cut into tokens where no scalar goes on behind it. -/
def LexesBefore (cs : List Char) (tokens : List Token) : Prop :=
  ∀ found rest, EndsScalar rest → tokensFrom (.idle, found) (cs ++ rest) =
    tokensFrom (.idle, tokens.reverse ++ found) rest

theorem Lexes.before {cs : List Char} {tokens : List Token} (h : Lexes cs tokens) :
    LexesBefore cs tokens := fun found rest _ => h found rest

theorem Lexes.append {cs ds : List Char} {tokens more : List Token} (h : Lexes cs tokens)
    (hMore : Lexes ds more) : Lexes (cs ++ ds) (tokens ++ more) := by
  intro found rest
  rw [List.append_assoc, h, hMore, List.reverse_append, List.append_assoc]

theorem Lexes.append_before {cs ds : List Char} {tokens more : List Token} (h : Lexes cs tokens)
    (hMore : LexesBefore ds more) : LexesBefore (cs ++ ds) (tokens ++ more) := by
  intro found rest hEnds
  rw [List.append_assoc, h, hMore _ _ hEnds, List.reverse_append, List.append_assoc]

theorem Lexes.of_startToken {c : Char} {token : Token}
    (h : startToken c = some (.idle, [token])) : Lexes [c] [token] :=
  fun _ rest => tokensFrom_idle_cons h rest

/-- What stands before a sign that is a token is a text of tokens with it. -/
theorem LexesBefore.append {cs : List Char} {tokens : List Token} (h : LexesBefore cs tokens)
    {c : Char} {token : Token} (hToken : startToken c = some (.idle, [token]))
    (hScalar : isScalarChar c = false) : Lexes (cs ++ [c]) (tokens ++ [token]) := by
  intro found rest
  have hEnds : EndsScalar ([c] ++ rest) := by
    intro d hd
    cases hd
    exact hScalar
  rw [List.append_assoc, h found _ hEnds, Lexes.of_startToken hToken]
  simp

/-! ### Scalars -/

/-- A scalar that is complete is a token, and what follows is read as if from between tokens. -/
theorem tokensFrom_scalar {seen : List Char} {found : List Token} {rest : List Char}
    (hEnds : EndsScalar rest) :
    tokensFrom (.scalar seen, found) rest =
      (scalar? seen.reverse).bind fun value => tokensFrom (.idle, .scalar value :: found) rest := by
  cases rest with
  | nil => cases hValue : scalar? seen.reverse <;> simp [tokensFrom, hValue]
  | cons c rest =>
    have hScalar : isScalarChar c = false := hEnds c rfl
    simp only [tokensFrom, List.foldlM_cons, takeChar, Lexing.step, hScalar, Bool.false_eq_true,
      if_false, Option.bind_eq_bind]
    cases scalar? seen.reverse with
    | none => rfl
    | some value =>
      cases startToken c with
      | none => rfl
      | some next => simp

theorem tokensFrom_scalar_append {cs : List Char} (hScalar : ∀ c ∈ cs, isScalarChar c = true)
    (seen : List Char) (found : List Token) (rest : List Char) :
    tokensFrom (.scalar seen, found) (cs ++ rest) =
      tokensFrom (.scalar (cs.reverse ++ seen), found) rest := by
  induction cs generalizing seen with
  | nil => rfl
  | cons c cs ih =>
    have hStep : (Lexing.scalar seen).step c = some (.scalar (c :: seen), []) :=
      if_pos (hScalar c List.mem_cons_self)
    rw [List.cons_append, tokensFrom_cons hStep, List.reverse_nil, List.nil_append,
      ih (fun d hd => hScalar d (List.mem_cons_of_mem _ hd)), List.reverse_cons, List.append_assoc]
    rfl

theorem startToken_of_isScalarChar {c : Char} (h : isScalarChar c = true) :
    startToken c = some (.scalar [c], []) := by
  have hBlank : isJsonBlank c = false := by
    by_contra hBlank
    simp only [isJsonBlank, Bool.not_eq_false, Bool.or_eq_true, beq_iff_eq] at hBlank
    obtain ((rfl | rfl) | rfl) | rfl := hBlank <;> exact absurd h (by decide)
  unfold startToken
  split
  case h_8 => rw [hBlank, h]; rfl
  all_goals exact absurd h (by decide)

theorem lexesBefore_scalar {cs : List Char} {value : Json} (hNe : cs ≠ [])
    (hScalar : ∀ c ∈ cs, isScalarChar c = true) (hValue : scalar? cs = some value) :
    LexesBefore cs [.scalar value] := by
  intro found rest hEnds
  obtain ⟨c, cs, rfl⟩ := List.exists_cons_of_ne_nil hNe
  have hStart := startToken_of_isScalarChar (hScalar c List.mem_cons_self)
  have hRest : ∀ d ∈ cs, isScalarChar d = true := fun d hd => hScalar d (List.mem_cons_of_mem _ hd)
  rw [List.cons_append, tokensFrom_idle_cons hStart, tokensFrom_scalar_append hRest,
    tokensFrom_scalar hEnds]
  simp [hValue]

/-! ### Numbers -/

theorem isScalarChar_of_isDigit {c : Char} (h : c.isDigit = true) : isScalarChar c = true := by
  have hDigit : Text.isAsciiDigit c = true := h
  simp [isScalarChar, Text.isAsciiAlphanumeric, hDigit]

theorem head?_toDigits {n : Nat} (hn : n ≠ 0) : (Nat.toDigits 10 n).head? ≠ some '0' := by
  induction n using Nat.strongRecOn with
  | ind n ih =>
    by_cases hSmall : n < 10
    · have hDigit : ∀ m < 10, m ≠ 0 → m.digitChar ≠ '0' := by decide
      rw [Nat.toDigits_of_lt_base hSmall, List.head?_cons]
      exact fun h => hDigit n hSmall hn (Option.some.inj h)
    · have hTen : 10 ≤ n := by omega
      rw [Nat.toDigits_of_base_le (by decide) hTen,
        List.head?_append_of_ne_nil _ Nat.toDigits_ne_nil]
      exact ih (n / 10) (by omega) (by omega)

theorem digitsValue_toDigits (n : Nat) : digitsValue (Nat.toDigits 10 n) = n := by
  rw [digitsValue, ← Nat.ofDigitChars_eq_foldl, Nat.ofDigitChars_ten_toDigits]

/-- A number of 64 bits is read as it was written. -/
theorem number?_toDigits {n : Nat} (h : n < UInt64.size) :
    number? (Nat.toDigits 10 n) = some (.int n) := by
  have hDigits : ∀ c ∈ Nat.toDigits 10 n, Text.isAsciiDigit c = true := fun c hc =>
    Nat.isDigit_of_mem_toDigits (by decide) (by decide) hc
  have hTaken : digits? (Nat.toDigits 10 n) = some (Nat.toDigits 10 n, []) := by
    rw [digits?, List.takeWhile_eq_self_iff.mpr hDigits, List.dropWhile_eq_nil_iff.mpr hDigits]
    split
    · rename_i hNil
      exact absurd hNil Nat.toDigits_ne_nil
    · rfl
  have hSign : ∀ cs, Nat.toDigits 10 n ≠ '-' :: cs := by
    intro cs hCs
    have hMinus := hDigits '-' (by rw [hCs]; exact List.mem_cons_self)
    exact absurd hMinus (by decide)
  have hLeading : ((Nat.toDigits 10 n).length > 1 &&
      (Nat.toDigits 10 n).head? == some '0') = false := by
    by_cases hn : n = 0
    · rw [hn, Nat.toDigits_zero]
      rfl
    · simp [head?_toDigits hn]
  rw [number?]
  case x => exact hSign
  simp only [hTaken, hLeading, digitsValue_toDigits, h, Bool.false_eq_true, if_false, if_true,
    List.isEmpty_nil, Option.bind_eq_bind, Option.bind_some]

theorem lexesBefore_nat {n : Nat} (h : n < UInt64.size) :
    LexesBefore (render (.int n)) [.scalar (.int n)] := by
  have hRender : render (.int n) = Nat.toDigits 10 n := by
    rw [render]
    change (toString n).toList = _
    rw [Nat.toString_eq_ofList_toDigits, String.toList_ofList]
  have hDigits : ∀ c ∈ Nat.toDigits 10 n, c.isDigit = true := fun c hc =>
    Nat.isDigit_of_mem_toDigits (by decide) (by decide) hc
  have hValue : scalar? (Nat.toDigits 10 n) = some (.int n) := by
    have hName (name : String) (hName : ∃ c ∈ name.toList, c.isDigit = false) :
        (Nat.toDigits 10 n == name.toList) = false := by
      obtain ⟨c, hc, hLetter⟩ := hName
      refine beq_false_of_ne fun hSame => ?_
      rw [hDigits c (hSame ▸ hc)] at hLetter
      cases hLetter
    rw [scalar?, hName "null" ⟨'n', by decide, by decide⟩, hName "true" ⟨'t', by decide, by decide⟩,
      hName "false" ⟨'f', by decide, by decide⟩, number?_toDigits h]
    rfl
  rw [hRender]
  exact lexesBefore_scalar Nat.toDigits_ne_nil
    (fun c hc => isScalarChar_of_isDigit (hDigits c hc)) hValue

/-! ### Strings -/

theorem hexValue?_hexDigit : ∀ n < 16, Text.hexValue? (hexDigit n) = some n := by decide

/-- A number below 32 is read from its two last digits. -/
theorem tokensFrom_code {seen : List Char} {found : List Token} {n : Nat} (h : n < 0x20)
    (rest : List Char) :
    tokensFrom (.code seen none 0 0, found)
        ('0' :: '0' :: hexDigit (n / 16) :: hexDigit (n % 16) :: rest) =
      tokensFrom (.quoted (Char.ofNat n :: seen), found) rest := by
  have hHigh := hexValue?_hexDigit (n / 16) (by omega)
  have hLow := hexValue?_hexDigit (n % 16) (by omega)
  have hValue : 16 * (n / 16) + n % 16 = n := Nat.div_add_mod n 16
  have hUnit : takeUnit seen none n = .quoted (Char.ofNat n :: seen) := by
    have hFirst : ¬(0xD800 ≤ n && n ≤ 0xDBFF) = true := by simp; omega
    have hSecond : ¬(0xDC00 ≤ n && n ≤ 0xDFFF) = true := by simp; omega
    rw [takeUnit, if_neg hFirst, if_neg hSecond]
  have hThird : (Lexing.code seen none 2 0).step (hexDigit (n / 16)) =
      some (.code seen none 3 (n / 16), []) := by
    simp [Lexing.step, hHigh]
  have hFourth : (Lexing.code seen none 3 (n / 16)).step (hexDigit (n % 16)) =
      some (.quoted (Char.ofNat n :: seen), []) := by
    simp [Lexing.step, hLow, hValue, hUnit]
  calc tokensFrom (.code seen none 0 0, found)
        ('0' :: '0' :: hexDigit (n / 16) :: hexDigit (n % 16) :: rest)
    _ = tokensFrom (.code seen none 2 0, found)
        (hexDigit (n / 16) :: hexDigit (n % 16) :: rest) := rfl
    _ = tokensFrom (.code seen none 3 (n / 16), found) (hexDigit (n % 16) :: rest) :=
      tokensFrom_cons hThird _
    _ = tokensFrom (.quoted (Char.ofNat n :: seen), found) rest := tokensFrom_cons hFourth _

theorem tokensFrom_escape (seen : List Char) (found : List Token) (c : Char) (rest : List Char) :
    tokensFrom (.quoted seen, found) (escape c ++ rest) =
      tokensFrom (.quoted (c :: seen), found) rest := by
  unfold escape
  split
  case h_8 _ hQuote hBackslash _ _ _ _ _ =>
    split
    · rename_i hControl
      have hCode := @tokensFrom_code seen found _ hControl rest
      rw [Char.ofNat_toNat] at hCode
      exact hCode
    · rename_i hPrinted
      have hStep : (Lexing.quoted seen).step c = some (.quoted (c :: seen), []) := by
        have hQuote : (c == '"') = false := beq_false_of_ne hQuote
        have hBackslash : (c == '\\') = false := beq_false_of_ne hBackslash
        simp [Lexing.step, hQuote, hBackslash, hPrinted]
      exact tokensFrom_cons hStep rest
  all_goals rfl

theorem tokensFrom_quoted (cs seen : List Char) (found : List Token) (rest : List Char) :
    tokensFrom (.quoted seen, found) (cs.flatMap escape ++ '"' :: rest) =
      tokensFrom (.idle, .quoted (some (String.ofList (seen.reverse ++ cs))) :: found) rest := by
  induction cs generalizing seen with
  | nil =>
    rw [List.append_nil]
    rfl
  | cons c cs ih =>
    rw [List.flatMap_cons, List.append_assoc, tokensFrom_escape, ih, List.reverse_cons,
      List.append_assoc, List.singleton_append]

theorem lexes_quote (s : String) : Lexes (quote s) [.quoted (some s)] := by
  intro found rest
  have hQuoted := tokensFrom_quoted s.toList [] found rest
  rw [List.reverse_nil, List.nil_append, String.ofList_toList] at hQuoted
  rw [quote, List.cons_append, List.cons_append, List.append_assoc, List.singleton_append]
  exact hQuoted

/-! ### Containers -/

def separated (pieces : List (List Token)) : List Token := (pieces.intersperse [.comma]).flatten

mutual

/-- The tokens of a printed value. -/
def tokensOf : Json → List Token
  | arr items => .openArray :: separated (tokensOfItems items) ++ [.closeArray]
  | obj members =>
    .openObject :: separated ((byName (tokensOfMembers members)).map fun m =>
      .quoted (some m.1) :: .colon :: m.2) ++ [.closeObject]
  | str s => [.quoted (some s)]
  | value => [.scalar value]

def tokensOfItems : List Json → List (List Token)
  | [] => []
  | item :: items => tokensOf item :: tokensOfItems items

def tokensOfMembers : List (String × Json) → List (String × List Token)
  | [] => []
  | (name, value) :: members => (name, tokensOf value) :: tokensOfMembers members

end

theorem tokensOfItems_eq (items : List Json) : tokensOfItems items = items.map tokensOf := by
  induction items with
  | nil => rfl
  | cons item items ih => rw [tokensOfItems, ih, List.map_cons]

theorem tokensOfMembers_eq (members : List (String × Json)) :
    tokensOfMembers members = mapValues tokensOf members := by
  induction members with
  | nil => rfl
  | cons m members ih => rw [tokensOfMembers, ih]; rfl

theorem renderItems_eq (items : List Json) : renderItems items = items.map render := by
  induction items with
  | nil => rfl
  | cons item items ih => rw [renderItems, ih, List.map_cons]

theorem renderMembers_eq (members : List (String × Json)) :
    renderMembers members = mapValues render members := by
  induction members with
  | nil => rfl
  | cons m members ih => rw [renderMembers, ih]; rfl

theorem render_arr (items : List Json) :
    render (arr items) = '[' :: Text.join [','] (items.map render) ++ [']'] := by
  rw [render, renderItems_eq]

theorem render_obj (members : List (String × Json)) :
    render (obj members) = '{' :: Text.join [',']
      ((byName members).map fun m => quote m.1 ++ ':' :: render m.2) ++ ['}'] := by
  have hFold : (renderMembers members).foldl (fun l m => insertMember m.1 m.2 l) [] =
      mapValues render (byName members) := by
    rw [renderMembers_eq, mapValues_byName, byName]
    congr 1
    funext l m
    exact insertMember_eq_insertByName _ _ _
  rw [render, hFold, mapValues, List.map_map]
  rfl

theorem tokensOf_arr (items : List Json) :
    tokensOf (arr items) = .openArray :: separated (items.map tokensOf) ++ [.closeArray] := by
  rw [tokensOf, tokensOfItems_eq]

theorem tokensOf_obj (members : List (String × Json)) :
    tokensOf (obj members) = .openObject :: separated ((byName members).map fun m =>
      .quoted (some m.1) :: .colon :: tokensOf m.2) ++ [.closeObject] := by
  rw [tokensOf, tokensOfMembers_eq, ← mapValues_byName, mapValues, List.map_map]
  rfl

/-- Pieces with commas between them, up to the sign that closes their container. -/
theorem lexes_join {α : Type} {text : α → List Char} {tokens : α → List Token} {c : Char}
    {token : Token} (hToken : startToken c = some (.idle, [token]))
    (hScalar : isScalarChar c = false) {pieces : List α}
    (h : ∀ a ∈ pieces, LexesBefore (text a) (tokens a)) :
    Lexes (Text.join [','] (pieces.map text) ++ [c]) (separated (pieces.map tokens) ++ [token]) := by
  induction pieces with
  | nil => exact .of_startToken hToken
  | cons a pieces ih =>
    have hFirst := h a List.mem_cons_self
    have hRest := ih fun b hb => h b (List.mem_cons_of_mem _ hb)
    cases pieces with
    | nil =>
      have hLast := hFirst.append hToken hScalar
      simpa [Text.join, separated] using hLast
    | cons b pieces =>
      have hComma : Lexes (text a ++ [',']) (tokens a ++ [.comma]) :=
        hFirst.append rfl (by decide)
      have hBoth := hComma.append hRest
      simpa [Text.join, separated, List.append_assoc] using hBoth

/-- The compact form of a value is cut into the tokens of the value. -/
theorem lexesBefore_render {depth : Nat} {value : Json} (h : Written depth value) :
    LexesBefore (render value) (tokensOf value) := by
  induction h with
  | null => exact lexesBefore_scalar (by decide) (List.all_eq_true.mp rfl) rfl
  | bool b => cases b <;> exact lexesBefore_scalar (by decide) (List.all_eq_true.mp rfl) rfl
  | nat h => exact lexesBefore_nat h
  | str s => exact (lexes_quote s).before
  | arr h ih =>
    rw [render_arr, tokensOf_arr]
    have hOpen : Lexes ['['] [.openArray] := .of_startToken rfl
    exact (hOpen.append (lexes_join rfl (by decide) ih)).before
  | obj hNames h ih =>
    rw [render_obj, tokensOf_obj]
    have hOpen : Lexes ['{'] [.openObject] := .of_startToken rfl
    refine (hOpen.append (lexes_join rfl (by decide) fun m hm => ?_)).before
    have hColon : Lexes [':'] [.colon] := .of_startToken rfl
    have hName := (lexes_quote m.1).append hColon
    simpa using hName.append_before (ih m ((byName_perm hNames).mem_iff.mp hm))

theorem tokens?_render {depth : Nat} {value : Json} (h : Written depth value) :
    tokens? value.render = some (tokensOf value) := by
  have hLexes := lexesBefore_render h [] [] nofun
  rw [List.append_nil, List.append_nil] at hLexes
  rw [tokens?_eq_tokensFrom, hLexes]
  simp [tokensFrom]

end PhoenixLens.Json
