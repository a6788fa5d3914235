import PhoenixLens.Elixir.Literal
import PhoenixLens.Proofs.Elixir.Remark

/-!
# Brackets that are closed

When the search for a closing bracket succeeds, and that it does in a text that closes all its
strings and brackets.
-/

namespace PhoenixLens.Elixir

theorem isQuote_of_bracket {c : Char} (h : isOpening c = true ∨ isClosing c = true) :
    isQuote c = false := by
  simp only [isOpening, isClosing, Bool.or_eq_true, beq_iff_eq] at h
  rcases h with ((rfl | rfl) | rfl) | ((rfl | rfl) | rfl) <;> decide

/-- A character either closes the bracket or changes the state and the depth, whatever follows. -/
theorem beforeClosing?_go_cons (state : Quoting) (depth : Nat) (c : Char) :
    (isClosing c = true ∧ ∀ cs, beforeClosing?.go state depth (c :: cs) = some []) ∨
      ∃ next : Nat, (next : Int) = depth + (if state.isCode then bracketStep c else 0) ∧
        ∀ cs, beforeClosing?.go state depth (c :: cs) =
          (beforeClosing?.go (state.step c) next cs).map (c :: ·) := by
  cases state with
  | quoted quote escaped => exact .inr ⟨depth, by simp [Quoting.isCode], fun cs => rfl⟩
  | code =>
    cases hOpening : isOpening c with
    | true =>
      have hStep : Quoting.code.step c = .code := by
        rw [Quoting.step, isQuote_of_bracket (.inl hOpening)]
        rfl
      refine .inr ⟨depth + 1, by simp [Quoting.isCode, bracketStep, hOpening], fun cs => ?_⟩
      simp [beforeClosing?.go, hOpening, hStep]
    | false =>
      cases hClosing : isClosing c with
      | true =>
        have hStep : Quoting.code.step c = .code := by
          rw [Quoting.step, isQuote_of_bracket (.inr hClosing)]
          rfl
        cases depth with
        | zero =>
          refine .inl ⟨rfl, fun cs => ?_⟩
          simp [beforeClosing?.go, hOpening, hClosing]
        | succ depth =>
          have hDepth : (depth : Int) = (depth + 1 : Nat) + bracketStep c := by
            simp only [bracketStep, hOpening, hClosing]
            push_cast
            omega
          refine .inr ⟨depth, hDepth, fun cs => ?_⟩
          simp [beforeClosing?.go, hOpening, hClosing, hStep]
      | false =>
        refine .inr ⟨depth, by simp [bracketStep, hOpening, hClosing], fun cs => ?_⟩
        simp [beforeClosing?.go, hOpening, hClosing]

theorem beforeClosing?_go_append {state : Quoting} {depth : Nat} {text inner : List Char}
    (h : beforeClosing?.go state depth text = some inner) (rest : List Char) :
    beforeClosing?.go state depth (text ++ rest) = some inner := by
  induction text generalizing state depth inner with
  | nil => cases state <;> cases h
  | cons c text ih =>
    rcases beforeClosing?_go_cons state depth c with ⟨-, hEnd⟩ | ⟨next, -, hNext⟩
    · rw [hEnd] at h
      rw [List.cons_append, hEnd, h]
    · rw [hNext] at h
      obtain ⟨tail, hTail, rfl⟩ := Option.map_eq_some_iff.mp h
      rw [List.cons_append, hNext, ih hTail]
      rfl

/-- What holds no closing bracket closes none. -/
theorem beforeClosing?_go_eq_none {state : Quoting} {depth : Nat} {text : List Char}
    (h : ∀ c ∈ text, isClosing c = false) : beforeClosing?.go state depth text = none := by
  induction text generalizing state depth with
  | nil => cases state <;> rfl
  | cons c text ih =>
    rcases beforeClosing?_go_cons state depth c with ⟨hClosing, -⟩ | ⟨next, -, hNext⟩
    · rw [h c List.mem_cons_self] at hClosing
      cases hClosing
    · rw [hNext, ih fun d hd => h d (List.mem_cons_of_mem _ hd)]
      rfl

theorem beforeClosing?_go_of_append {state : Quoting} {depth : Nat} {text rest inner : List Char}
    (hRest : ∀ c ∈ rest, isClosing c = false)
    (h : beforeClosing?.go state depth (text ++ rest) = some inner) :
    beforeClosing?.go state depth text = some inner := by
  induction text generalizing state depth inner with
  | nil =>
    rw [List.nil_append, beforeClosing?_go_eq_none hRest] at h
    cases h
  | cons c text ih =>
    rcases beforeClosing?_go_cons state depth c with ⟨-, hEnd⟩ | ⟨next, -, hNext⟩
    · rw [List.cons_append, hEnd] at h
      rw [hEnd, h]
    · rw [List.cons_append, hNext] at h
      obtain ⟨tail, hTail, rfl⟩ := Option.map_eq_some_iff.mp h
      rw [hNext, ih hTail]
      rfl

/-- The state is one that code leads to: strings stand between quotes. -/
def IsReached (state : Quoting) : Prop := ∀ q escaped, state = .quoted q escaped → isQuote q = true

theorem isReached_code : IsReached .code := by
  intro q escaped hState
  cases hState

theorem IsReached.step {state : Quoting} (h : IsReached state) (c : Char) :
    IsReached (state.step c) := by
  intro q escaped hStep
  cases state with
  | code =>
    rw [Quoting.step] at hStep
    split at hStep
    · rename_i hQuote
      cases hStep
      exact hQuote
    · cases hStep
  | quoted quote open? =>
    have hQuote := h quote open? rfl
    cases open? with
    | true =>
      cases hStep
      exact hQuote
    | false =>
      rw [Quoting.step] at hStep
      split at hStep
      · cases hStep
        exact hQuote
      · split at hStep
        · cases hStep
        · cases hStep
          exact hQuote

theorem bracketStep_of_isQuote {c : Char} (h : isQuote c = true) : bracketStep c = 0 := by
  simp only [isQuote, Bool.or_eq_true, beq_iff_eq] at h
  rcases h with rfl | rfl <;> decide

/-- The brackets of a text are those of its first character, if it is code, and of the rest. -/
theorem bracketDepth_codeOf_go_cons {state : Quoting} (hState : IsReached state) {c : Char}
    (hComment : (state.isCode && c == '#') = false) (text : List Char) :
    bracketDepth (codeOf.go state (c :: text)) =
      (if state.isCode then bracketStep c else 0) +
        bracketDepth (codeOf.go (state.step c) text) := by
  cases state with
  | code =>
    have hHash : (c == '#') = false := by simpa [Quoting.isCode] using hComment
    simp only [codeOf.go, hHash]
    rfl
  | quoted quote escaped =>
    have hQuiet : ((Quoting.quoted quote escaped).step c).isCode = true → bracketStep c = 0 := by
      intro hCode
      cases escaped with
      | true => cases hCode
      | false =>
        rw [Quoting.step] at hCode
        split at hCode
        · cases hCode
        · split at hCode
          · rename_i hClosed
            rw [eq_of_beq hClosed]
            exact bracketStep_of_isQuote (hState quote false rfl)
          · cases hCode
    have hOwn : (Quoting.quoted quote escaped).isCode = false := rfl
    cases hCode : ((Quoting.quoted quote escaped).step c).isCode with
    | true => simp [codeOf.go, hCode, hOwn, bracketDepth, hQuiet hCode]
    | false => simp [codeOf.go, hCode, hOwn]

/-- An opening bracket is closed if the brackets behind it close more than they open. -/
theorem exists_beforeClosing?_go {state next : Quoting} (hState : IsReached state) {depth : Nat}
    {text : List Char} (hText : stateAfter? state text = some next)
    (hDepth : bracketDepth (codeOf.go state text) < -depth) :
    ∃ inner, beforeClosing?.go state depth text = some inner := by
  induction text generalizing state depth with
  | nil =>
    have hNil : codeOf.go state [] = [] := by cases state <;> rfl
    rw [hNil, bracketDepth] at hDepth
    omega
  | cons c text ih =>
    rw [stateAfter?] at hText
    split at hText
    · cases hText
    · rename_i hComment
      rcases beforeClosing?_go_cons state depth c with ⟨-, hEnd⟩ | ⟨more, hMore, hNext⟩
      · exact ⟨[], hEnd text⟩
      · have hRest : bracketDepth (codeOf.go (state.step c) text) < -more := by
          rw [bracketDepth_codeOf_go_cons hState (by simpa using hComment)] at hDepth
          omega
        obtain ⟨inner, hInner⟩ := ih (hState.step c) hText hRest
        exact ⟨c :: inner, by rw [hNext, hInner]; rfl⟩

theorem IsReached.stateAfter? {state next : Quoting} (h : IsReached state) {text : List Char}
    (hText : stateAfter? state text = some next) : IsReached next := by
  induction text generalizing state with
  | nil =>
    cases hText
    exact h
  | cons c text ih =>
    rw [Elixir.stateAfter?] at hText
    split at hText
    · cases hText
    · exact ih (h.step c) hText

/-- Blanks do not end a string. -/
theorem stateAfter?_blanks {state : Quoting} (hState : IsReached state) {blanks : List Char}
    (h : ∀ c ∈ blanks, Text.isBlank c = true) (hEnd : stateAfter? state blanks = some .code) :
    state = .code := by
  induction blanks generalizing state with
  | nil => exact Option.some.inj hEnd
  | cons c blanks ih =>
    cases state with
    | code => rfl
    | quoted quote escaped =>
      have hRest := ih (hState.step c) (fun d hd => h d (List.mem_cons_of_mem _ hd)) hEnd
      have hPlain := isPlain_of_isBlank (h c List.mem_cons_self)
      cases escaped with
      | true => cases hRest
      | false =>
        rw [Quoting.step] at hRest
        split at hRest
        · cases hRest
        · split at hRest
          · rename_i hClosed
            rw [isPlain, eq_of_beq hClosed, hState quote false rfl] at hPlain
            cases hPlain
          · cases hRest

/-- The text closes its strings and brackets and has no comment. -/
structure IsWhole (text : List Char) : Prop where
  endsInCode : EndsInCode text
  bracketDepth_le : bracketDepth (codeOf text) ≤ 0

namespace IsWhole

theorem of_ends {text : List Char} (hCode : EndsInCode text)
    (hEnds : needsContinuation text = false) : IsWhole text := by
  refine ⟨hCode, ?_⟩
  simp only [needsContinuation, Bool.or_eq_false_iff, decide_eq_false_iff_not] at hEnds
  omega

theorem of_blanks {text front blanks : List Char} (h : IsWhole (front ++ text ++ blanks))
    (hFront : ∀ c ∈ front, Text.isBlank c = true) (hBlanks : ∀ c ∈ blanks, Text.isBlank c = true) :
    IsWhole text := by
  have hFrontPlain : ∀ c ∈ front, isPlain c = true := fun c hc => isPlain_of_isBlank (hFront c hc)
  have hPlain : ∀ c ∈ blanks, isPlain c = true := fun c hc => isPlain_of_isBlank (hBlanks c hc)
  have hEnd := h.endsInCode
  rw [EndsInCode, List.append_assoc, stateAfter?_append, stateAfter?_of_plain hFrontPlain,
    Option.bind_some, stateAfter?_append, Option.bind_eq_some_iff] at hEnd
  obtain ⟨state, hText, hState⟩ := hEnd
  obtain rfl := stateAfter?_blanks (isReached_code.stateAfter? hText) hBlanks hState
  refine ⟨hText, ?_⟩
  have hDepth := h.bracketDepth_le
  rw [List.append_assoc, codeOf, codeOf_go_append hFrontPlain, codeOf_go_of_stateAfter? hText,
    bracketDepth_append, bracketDepth_append,
    bracketDepth_of_all fun c hc => bracketStep_of_isBlank (hFront c hc)] at hDepth
  have hTail : bracketDepth (codeOf.go .code blanks) = 0 := by
    rw [← List.append_nil blanks, codeOf_go_append hPlain, bracketDepth_append,
      bracketDepth_of_all fun c hc => bracketStep_of_isBlank (hBlanks c hc)]
    rfl
  rw [codeOf]
  omega

theorem trim {text : List Char} (h : IsWhole text) : IsWhole (Text.trim text) := by
  obtain ⟨blanks, hBlanks, hEnd⟩ :=
    Text.exists_dropEndWhile_append Text.isBlank (Text.trimStart text)
  have hStart : text = text.takeWhile Text.isBlank ++ Text.trimStart text :=
    List.takeWhile_append_dropWhile.symm
  rw [hStart, hEnd, ← List.append_assoc] at h
  exact h.of_blanks (fun c hc => List.all_eq_true.mp List.all_takeWhile c hc) hBlanks

/-- A bracket behind plain text is closed. -/
theorem exists_beforeClosing? {text inner : List Char} (h : IsWhole text)
    (hInner : IsBehind text ('(' :: inner)) : ∃ closed, beforeClosing? inner = some closed := by
  have hEnd : stateAfter? .code inner = some .code := hInner.endsInCode h.endsInCode
  refine exists_beforeClosing?_go isReached_code hEnd ?_
  obtain ⟨front, hFront, rfl⟩ := hInner
  have hDepth := h.bracketDepth_le
  rw [codeOf, codeOf_go_append fun c hc => (hFront c hc).1, bracketDepth_append,
    bracketDepth_of_all fun c hc => (hFront c hc).2] at hDepth
  have hOpening : codeOf.go .code ('(' :: inner) = '(' :: codeOf.go .code inner := rfl
  have hStep : bracketStep '(' = 1 := rfl
  rw [hOpening, bracketDepth, hStep] at hDepth
  omega

end IsWhole

end PhoenixLens.Elixir
