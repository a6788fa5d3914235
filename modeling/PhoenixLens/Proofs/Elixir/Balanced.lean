import PhoenixLens.Proofs.Elixir.Closed
import PhoenixLens.Proofs.Elixir.Piece

/-!
# Balanced text

Text that closes its strings and brackets. The readers of arguments know no comments; they pass over
such text and go on behind it as they came. Where it holds no comment either, it is balanced, and
the readers of code do the same.
-/

namespace PhoenixLens.Elixir

/-- From the given state and with `depth` brackets open, the text closes its strings and brackets
and these. Only if `commas` says so, a comma may stand outside of brackets. -/
inductive IsBracketed (commas : Bool) : Quoting → Nat → List Char → Prop where
  | nil : IsBracketed commas .code 0 []
  | quoted {quote c : Char} {escaped : Bool} {depth : Nat} {text : List Char}
      (hRest : IsBracketed commas ((Quoting.quoted quote escaped).step c) depth text) :
      IsBracketed commas (.quoted quote escaped) depth (c :: text)
  | opening {c : Char} {depth : Nat} {text : List Char} (hOpening : isOpening c = true)
      (hRest : IsBracketed commas .code (depth + 1) text) :
      IsBracketed commas .code depth (c :: text)
  | closing {c : Char} {depth : Nat} {text : List Char} (hClosing : isClosing c = true)
      (hRest : IsBracketed commas .code depth text) :
      IsBracketed commas .code (depth + 1) (c :: text)
  | other {c : Char} {depth : Nat} {text : List Char} (hStep : bracketStep c = 0)
      (hComma : c = ',' → commas = true ∨ 0 < depth)
      (hRest : IsBracketed commas (Quoting.code.step c) depth text) :
      IsBracketed commas .code depth (c :: text)

/-! ### Brackets -/

theorem not_isClosing_of_isOpening {c : Char} (h : isOpening c = true) : isClosing c = false := by
  simp only [isOpening, Bool.or_eq_true, beq_iff_eq] at h
  rcases h with (rfl | rfl) | rfl <;> decide

theorem not_isOpening_of_isClosing {c : Char} (h : isClosing c = true) : isOpening c = false := by
  rw [← Bool.not_eq_true]
  intro hOpening
  rw [not_isClosing_of_isOpening hOpening] at h
  cases h

theorem bracketStep_eq_zero_iff {c : Char} :
    bracketStep c = 0 ↔ isOpening c = false ∧ isClosing c = false := by
  rw [bracketStep]
  cases isOpening c <;> cases isClosing c <;> decide

theorem bracketStep_of_isOpening {c : Char} (h : isOpening c = true) : bracketStep c = 1 := by
  rw [bracketStep, if_pos h]

theorem bracketStep_of_isClosing {c : Char} (h : isClosing c = true) : bracketStep c = -1 := by
  rw [bracketStep, not_isOpening_of_isClosing h, if_neg Bool.false_ne_true, if_pos h]

/-- Brackets neither begin strings nor comments, and separate nothing. -/
theorem code_of_bracket {c : Char} (h : isOpening c = true ∨ isClosing c = true) :
    Quoting.code.step c = .code ∧ c ≠ '#' ∧ c ≠ ',' := by
  refine ⟨?_, ?_⟩
  · rw [Quoting.step, isQuote_of_bracket h]
    rfl
  · constructor
    all_goals
      rintro rfl
      revert h
      decide

namespace IsBracketed

variable {commas : Bool} {state : Quoting} {depth : Nat} {text rest : List Char}

/-! ### Putting text together -/

theorem comma_append (h : IsBracketed false state depth text)
    (hRest : IsBracketed commas .code 0 rest) :
    IsBracketed commas state depth (text ++ rest) := by
  induction h with
  | nil => exact hRest
  | quoted _ ih => exact .quoted ih
  | opening hOpening _ ih => exact .opening hOpening ih
  | closing hClosing _ ih => exact .closing hClosing ih
  | other hStep hComma _ ih =>
    refine .other hStep (fun hSame => ?_) ih
    exact .inr ((hComma hSame).resolve_left Bool.false_ne_true)

/-- Texts without commas of their own, with commas between them. -/
theorem join {t : List Char} {texts : List (List Char)}
    (h : ∀ u ∈ t :: texts, IsBracketed false .code 0 u) :
    IsBracketed true .code 0 (Text.join ", ".toList (t :: texts)) := by
  induction texts generalizing t with
  | nil =>
    have hBoth := (h t List.mem_cons_self).comma_append (.nil : IsBracketed true .code 0 [])
    rwa [Text.join_singleton, ← List.append_nil t]
  | cons u texts ih =>
    have hRest := ih fun v hv => h v (List.mem_cons_of_mem _ hv)
    have hGap : IsBracketed true .code 0 (", ".toList ++ Text.join ", ".toList (u :: texts)) :=
      .other rfl (fun _ => .inl rfl)
        (.other rfl (fun hSame => absurd hSame (by decide)) hRest)
    rw [Text.join_cons _ _ (List.cons_ne_nil _ _), List.append_assoc]
    exact (h t List.mem_cons_self).comma_append hGap

/-! ### Readers -/

theorem splitAtCommas_go_eq (h : IsBracketed false state depth text) (seen rest : List Char) :
    splitAtCommas.go state depth seen (text ++ rest) =
      splitAtCommas.go .code 0 (text.reverse ++ seen) rest := by
  induction h generalizing seen with
  | nil => rfl
  | quoted _ ih =>
    rw [List.cons_append, splitAtCommas.go, ih, List.reverse_cons, List.append_assoc]
    · rfl
    · rintro ⟨⟩
  | opening hOpening _ ih =>
    obtain ⟨hStep, -, hComma⟩ := code_of_bracket (.inl hOpening)
    rw [List.cons_append, splitAtCommas.go, if_neg (by simp [hComma]), hStep,
      bracketStep_of_isOpening hOpening, List.reverse_cons, List.append_assoc]
    exact ih _
  | @closing c depth text hClosing _ ih =>
    obtain ⟨hStep, -, hComma⟩ := code_of_bracket (.inr hClosing)
    rw [List.cons_append, splitAtCommas.go, if_neg (by simp [hComma]), hStep,
      bracketStep_of_isClosing hClosing, List.reverse_cons, List.append_assoc]
    have hDepth : ((depth + 1 : Nat) : Int) + -1 = depth := by omega
    rw [hDepth]
    exact ih _
  | @other c depth text hStep hComma _ ih =>
    have hInside : ¬(c == ',' && (depth : Int) == 0) = true := by
      simp only [Bool.and_eq_true, beq_iff_eq, not_and]
      intro hSame hZero
      rcases hComma hSame with hCommas | hPos
      · cases hCommas
      · omega
    rw [List.cons_append, splitAtCommas.go, if_neg hInside, hStep, Int.add_zero, ih,
      List.reverse_cons, List.append_assoc]
    rfl

theorem isClosed (h : IsBracketed false .code 0 text) : IsClosed text := h.splitAtCommas_go_eq

/-- The search for the closing bracket passes over the text. -/
theorem beforeClosing?_go_eq (h : IsBracketed commas state depth text) (rest : List Char) :
    beforeClosing?.go state depth (text ++ ')' :: rest) = some text := by
  induction h with
  | nil => rfl
  | quoted _ ih =>
    rw [List.cons_append, beforeClosing?.go, ih]
    · rfl
    · rintro ⟨⟩
  | opening hOpening _ ih =>
    simp [beforeClosing?.go, hOpening, ih]
  | @closing c depth text hClosing _ ih =>
    have hOpening := not_isOpening_of_isClosing hClosing
    simp [beforeClosing?.go, hOpening, hClosing, ih]
  | other hStep hComma _ ih =>
    obtain ⟨hOpening, hClosing⟩ := bracketStep_eq_zero_iff.mp hStep
    simp [beforeClosing?.go, hOpening, hClosing, ih]

/-! ### Last characters -/

theorem last_ne_comma {before : List Char} {c : Char} (hState : IsReached state)
    (h : IsBracketed false state depth (before ++ [c])) : c ≠ ',' := by
  induction before generalizing state depth with
  | nil =>
    rw [List.nil_append] at h
    rintro rfl
    cases h with
    | @quoted quote _ escaped _ _ hRest =>
      -- only its own quote leads out of a string
      have hQuote := hState quote escaped rfl
      cases escaped with
      | true => cases hRest
      | false =>
        rw [Quoting.step, if_neg (by decide)] at hRest
        split at hRest
        · rename_i hSame
          rw [← beq_iff_eq.mp hSame] at hQuote
          cases hQuote
        · cases hRest
    | opening hOpening _ => cases hOpening
    | closing hClosing _ => cases hClosing
    | other hStep hComma hRest =>
      cases hRest with
      | nil => simpa using hComma rfl
  | cons d before ih =>
    cases h with
    | quoted hRest => exact ih (hState.step d) hRest
    | opening _ hRest => exact ih isReached_code hRest
    | closing _ hRest => exact ih isReached_code hRest
    | other _ _ hRest => exact ih (isReached_code.step d) hRest

end IsBracketed

/-! ### Text without comments -/

/-- From the given state and with `depth` brackets open, the text closes its strings and brackets and
these, and begins no comment. Only if `commas` says so, a comma may stand outside of brackets. -/
inductive IsBalanced (commas : Bool) : Quoting → Nat → List Char → Prop where
  | nil : IsBalanced commas .code 0 []
  | quoted {quote c : Char} {escaped : Bool} {depth : Nat} {text : List Char}
      (hRest : IsBalanced commas ((Quoting.quoted quote escaped).step c) depth text) :
      IsBalanced commas (.quoted quote escaped) depth (c :: text)
  | opening {c : Char} {depth : Nat} {text : List Char} (hOpening : isOpening c = true)
      (hRest : IsBalanced commas .code (depth + 1) text) : IsBalanced commas .code depth (c :: text)
  | closing {c : Char} {depth : Nat} {text : List Char} (hClosing : isClosing c = true)
      (hRest : IsBalanced commas .code depth text) : IsBalanced commas .code (depth + 1) (c :: text)
  | other {c : Char} {depth : Nat} {text : List Char} (hStep : bracketStep c = 0) (hHash : c ≠ '#')
      (hComma : c = ',' → commas = true ∨ 0 < depth)
      (hRest : IsBalanced commas (Quoting.code.step c) depth text) :
      IsBalanced commas .code depth (c :: text)

/-! ### Deciding -/

/-- Whether a text is balanced, read from left to right. -/
def balances (commas : Bool) : Quoting → Nat → List Char → Bool
  | .code, depth, [] => depth == 0
  | .quoted _ _, _, [] => false
  | .code, depth, c :: cs =>
    if isOpening c then balances commas .code (depth + 1) cs
    else if isClosing c then depth != 0 && balances commas .code (depth - 1) cs
    else c != '#' && (c != ',' || commas || depth != 0) &&
      balances commas (Quoting.code.step c) depth cs
  | .quoted quote escaped, depth, c :: cs =>
    balances commas ((Quoting.quoted quote escaped).step c) depth cs

theorem isBalanced_of_balances {commas : Bool} {state : Quoting} {depth : Nat} {text : List Char}
    (h : balances commas state depth text = true) : IsBalanced commas state depth text := by
  induction text generalizing state depth with
  | nil =>
    cases state with
    | code =>
      obtain rfl : depth = 0 := by simpa [balances] using h
      exact .nil
    | quoted quote escaped => cases h
  | cons c text ih =>
    cases state with
    | quoted quote escaped => exact .quoted (ih h)
    | code =>
      rw [balances] at h
      split at h
      · rename_i hOpening
        exact .opening hOpening (ih h)
      · rename_i hOpening
        split at h
        · rename_i hClosing
          simp only [Bool.and_eq_true, bne_iff_ne] at h
          obtain ⟨hDepth, hRest⟩ := h
          obtain ⟨outer, rfl⟩ := Nat.exists_eq_succ_of_ne_zero hDepth
          exact .closing hClosing (ih hRest)
        · rename_i hClosing
          simp only [Bool.and_eq_true, Bool.or_eq_true, bne_iff_ne] at h
          obtain ⟨⟨hHash, hComma⟩, hRest⟩ := h
          refine .other ?_ hHash ?_ (ih hRest)
          · exact bracketStep_eq_zero_iff.mpr ⟨by simpa using hOpening, by simpa using hClosing⟩
          · intro hSame
            rcases hComma with (hNot | hCommas) | hInside
            · exact absurd hSame hNot
            · exact .inl hCommas
            · exact .inr (Nat.pos_of_ne_zero hInside)

theorem balances_of_isBalanced {commas : Bool} {state : Quoting} {depth : Nat} {text : List Char}
    (h : IsBalanced commas state depth text) : balances commas state depth text = true := by
  induction h with
  | nil => rfl
  | quoted _ ih => exact ih
  | opening hOpening _ ih => rwa [balances, if_pos hOpening]
  | closing hClosing _ ih =>
    rw [balances, not_isOpening_of_isClosing hClosing, if_neg Bool.false_ne_true, if_pos hClosing]
    simpa using ih
  | @other c depth text hStep hHash hComma _ ih =>
    obtain ⟨hOpening, hClosing⟩ := bracketStep_eq_zero_iff.mp hStep
    rw [balances, hOpening, hClosing, if_neg Bool.false_ne_true, if_neg Bool.false_ne_true]
    simp only [Bool.and_eq_true, Bool.or_eq_true, bne_iff_ne]
    refine ⟨⟨hHash, ?_⟩, ih⟩
    by_cases hSame : c = ','
    · rcases hComma hSame with hCommas | hInside
      · exact .inl (.inr hCommas)
      · exact .inr (Nat.ne_of_gt hInside)
    · exact .inl (.inl hSame)

instance (commas : Bool) (state : Quoting) (depth : Nat) (text : List Char) :
    Decidable (IsBalanced commas state depth text) :=
  decidable_of_iff (balances commas state depth text = true)
    ⟨isBalanced_of_balances, balances_of_isBalanced⟩

/-! ### Putting text together -/

namespace IsBalanced

variable {commas inner : Bool} {state : Quoting} {depth more : Nat} {text rest : List Char}

/-- Commas may stand outside of the brackets of what is put into brackets. -/
theorem append (h : IsBalanced inner state depth text)
    (hInner : inner = true → commas = true ∨ 0 < more) (hRest : IsBalanced commas .code more rest) :
    IsBalanced commas state (depth + more) (text ++ rest) := by
  induction h with
  | nil =>
    rw [Nat.zero_add]
    exact hRest
  | quoted _ ih => exact .quoted ih
  | @opening c depth text hOpening _ ih =>
    refine .opening hOpening ?_
    rw [Nat.add_right_comm]
    exact ih
  | @closing c depth text hClosing _ ih =>
    rw [Nat.add_right_comm]
    exact .closing hClosing ih
  | other hStep hHash hComma _ ih =>
    refine .other hStep hHash ?_ ih
    intro hSame
    rcases hComma hSame with hCommas | hInside
    · exact (hInner hCommas).imp_right fun hMore => by omega
    · exact .inr (by omega)

theorem code_append (h : IsBalanced commas .code 0 text) (hRest : IsBalanced commas .code more rest) :
    IsBalanced commas .code more (text ++ rest) := by
  have hBoth := h.append .inl hRest
  rwa [Nat.zero_add] at hBoth

theorem plain_append (h : ∀ c ∈ text, isPlain c = true ∧ bracketStep c = 0)
    (hComma : ',' ∈ text → commas = true ∨ 0 < more) (hRest : IsBalanced commas .code more rest) :
    IsBalanced commas .code more (text ++ rest) := by
  induction text with
  | nil => exact hRest
  | cons c text ih =>
    obtain ⟨hPlain, hStep⟩ := h c List.mem_cons_self
    simp only [isPlain, Bool.and_eq_true, Bool.not_eq_true', bne_iff_ne] at hPlain
    have hCode : Quoting.code.step c = .code := by
      rw [Quoting.step, if_neg (by simp [hPlain.1])]
    refine .other hStep hPlain.2 ?_ ?_
    · rintro rfl
      exact hComma List.mem_cons_self
    · rw [hCode]
      exact ih (fun d hd => h d (List.mem_cons_of_mem _ hd)) fun hMem =>
        hComma (List.mem_cons_of_mem _ hMem)

theorem of_plain (h : ∀ c ∈ text, isPlain c = true ∧ bracketStep c = 0)
    (hComma : ',' ∈ text → commas = true) : IsBalanced commas .code 0 text := by
  have hEnd : IsBalanced commas .code 0 [] := .nil
  have hText := plain_append h (fun hMem => .inl (hComma hMem)) hEnd
  rwa [List.append_nil] at hText

/-- What stands in brackets may hold commas. -/
theorem brackets {opening closing : Char} (hOpening : isOpening opening = true)
    (hClosing : isClosing closing = true) (h : IsBalanced inner .code 0 text) :
    IsBalanced commas .code 0 (opening :: text ++ [closing]) := by
  have hEnd : IsBalanced commas .code 1 [closing] := .closing hClosing .nil
  have hText := h.append (fun _ => .inr Nat.one_pos) hEnd
  rw [Nat.zero_add] at hText
  exact .opening hOpening hText

/-! ### Readers -/

theorem stateAfter?_eq (h : IsBalanced commas state depth text) :
    stateAfter? state text = some .code := by
  induction h with
  | nil => rfl
  | quoted _ ih =>
    rw [stateAfter?, if_neg (by simp [Quoting.isCode])]
    exact ih
  | opening hOpening _ ih =>
    obtain ⟨hStep, hHash, -⟩ := code_of_bracket (.inl hOpening)
    rw [stateAfter?, if_neg (by simp [hHash]), hStep]
    exact ih
  | closing hClosing _ ih =>
    obtain ⟨hStep, hHash, -⟩ := code_of_bracket (.inr hClosing)
    rw [stateAfter?, if_neg (by simp [hHash]), hStep]
    exact ih
  | other hStep hHash hComma _ ih =>
    rw [stateAfter?, if_neg (by simp [hHash])]
    exact ih

theorem endsInCode (h : IsBalanced commas .code depth text) : EndsInCode text := h.stateAfter?_eq

theorem codeOf_go_eq (h : IsBalanced commas .code depth text) (rest : List Char) :
    codeOf.go .code (text ++ rest) = codeOf text ++ codeOf.go .code rest :=
  codeOf_go_of_stateAfter? h.stateAfter?_eq rest

theorem bracketDepth_codeOf_go_code {c : Char} (hHash : c ≠ '#') (text : List Char) :
    bracketDepth (codeOf.go .code (c :: text)) =
      bracketStep c + bracketDepth (codeOf.go (Quoting.code.step c) text) :=
  bracketDepth_codeOf_go_cons isReached_code (by simp [hHash]) text

theorem bracketDepth_eq (hState : IsReached state) (h : IsBalanced commas state depth text) :
    bracketDepth (codeOf.go state text) = -depth := by
  induction h with
  | nil => rfl
  | quoted _ ih =>
    refine (bracketDepth_codeOf_go_cons hState rfl _).trans ?_
    rw [ih (hState.step _)]
    exact Int.zero_add _
  | opening hOpening _ ih =>
    obtain ⟨hStep, hHash, -⟩ := code_of_bracket (.inl hOpening)
    rw [bracketDepth_codeOf_go_code hHash, hStep, ih hState, bracketStep_of_isOpening hOpening]
    omega
  | closing hClosing _ ih =>
    obtain ⟨hStep, hHash, -⟩ := code_of_bracket (.inr hClosing)
    rw [bracketDepth_codeOf_go_code hHash, hStep, ih hState, bracketStep_of_isClosing hClosing]
    omega
  | other hStep hHash hComma _ ih =>
    rw [bracketDepth_codeOf_go_code hHash, ih (hState.step _), hStep]
    omega

/-- What begins no comment is read alike by those who know none. -/
theorem isBracketed (h : IsBalanced commas state depth text) :
    IsBracketed commas state depth text := by
  induction h with
  | nil => exact .nil
  | quoted _ ih => exact .quoted ih
  | opening hOpening _ ih => exact .opening hOpening ih
  | closing hClosing _ ih => exact .closing hClosing ih
  | other hStep _ hComma _ ih => exact .other hStep hComma ih

theorem isClosed (h : IsBalanced false .code 0 text) : IsClosed text := h.isBracketed.isClosed

theorem beforeClosing?_eq (h : IsBalanced commas .code 0 text) (rest : List Char) :
    beforeClosing? (text ++ ')' :: rest) = some text := h.isBracketed.beforeClosing?_go_eq rest

end IsBalanced

/-! ### Last characters -/

/-- What ends a text outside of strings is code. -/
theorem codeOf_concat {text : List Char} {c : Char} (h : EndsInCode (text ++ [c])) :
    ∃ code, codeOf (text ++ [c]) = code ++ [c] := by
  rw [EndsInCode, stateAfter?_append, Option.bind_eq_some_iff] at h
  obtain ⟨state, hText, hLast⟩ := h
  refine ⟨codeOf text, ?_⟩
  rw [codeOf, codeOf_go_of_stateAfter? hText, codeOf]
  congr 1
  rw [stateAfter?] at hLast
  split at hLast
  · cases hLast
  · rename_i hComment
    have hCode : state.step c = .code := Option.some.inj hLast
    cases state with
    | code =>
      have hHash : (c == '#') = false := by simpa [Quoting.isCode] using hComment
      rw [codeOf.go, hHash, if_neg Bool.false_ne_true]
      rfl
    | quoted quote escaped =>
      rw [codeOf.go]
      · simp only [hCode]
        rfl
      · rintro ⟨⟩

/-- A character that is no quote leaves code as it was. -/
theorem codeOf_concat_of_not_isQuote {text : List Char} {c : Char} (h : EndsInCode (text ++ [c]))
    (hQuote : isQuote c = false) : EndsInCode text ∧ codeOf (text ++ [c]) = codeOf text ++ [c] := by
  rw [EndsInCode, stateAfter?_append, Option.bind_eq_some_iff] at h
  obtain ⟨state, hText, hLast⟩ := h
  have hReached := isReached_code.stateAfter? hText
  rw [stateAfter?] at hLast
  split at hLast
  · cases hLast
  · rename_i hComment
    have hCode : state.step c = .code := Option.some.inj hLast
    cases state with
    | code =>
      have hHash : (c == '#') = false := by simpa [Quoting.isCode] using hComment
      refine ⟨hText, ?_⟩
      rw [codeOf, codeOf_go_of_stateAfter? hText, codeOf.go, hHash, if_neg Bool.false_ne_true]
      rfl
    | quoted quote escaped =>
      rw [Quoting.step.eq_def] at hCode
      cases escaped with
      | true => cases hCode
      | false =>
        simp only at hCode
        split at hCode
        · cases hCode
        · split at hCode
          · rename_i hClosed
            rw [eq_of_beq hClosed, hReached quote false rfl] at hQuote
            cases hQuote
          · cases hCode

end PhoenixLens.Elixir
