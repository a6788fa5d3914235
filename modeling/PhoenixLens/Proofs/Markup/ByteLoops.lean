import PhoenixLens.Proofs.Markup.ByteScanner

/-!
# Loops over bytes

A character beyond ASCII takes several bytes, and a loop that goes through them one by one ends up
where a reader of characters does, since none of them is an ASCII character.
-/

namespace PhoenixLens.Markup.ByteScanner

open Elixir (Quoting isQuote isOpening isClosing)
open Text (RestAt span? toBytes)

/-! ### Bytes of characters -/

/-- The character lies beyond ASCII. -/
def IsWide (c : Char) : Prop := 128 ≤ c.toNat

theorem ne_of_isWide {c d : Char} (h : IsWide c) (hd : d.toNat < 128) : c ≠ d := by
  rintro rfl
  exact absurd h (Nat.not_le.mpr hd)

theorem isQuote_of_isWide {c : Char} (h : IsWide c) : isQuote c = false := by
  simp [isQuote, ne_of_isWide h]

theorem isOpening_of_isWide {c : Char} (h : IsWide c) : isOpening c = false := by
  simp [isOpening, ne_of_isWide h]

theorem isClosing_of_isWide {c : Char} (h : IsWide c) : isClosing c = false := by
  simp [isClosing, ne_of_isWide h]

theorem isTagBlank_of_isWide {c : Char} (h : IsWide c) : Text.isTagBlank c = false := by
  simp [Text.isTagBlank, ne_of_isWide h]

theorem isAttributeNameChar_of_isWide {c : Char} (h : IsWide c) : isAttributeNameChar c = true := by
  simp [isAttributeNameChar, isTagBlank_of_isWide h, isQuote_of_isWide h, ne_of_isWide h]

theorem toNat_charOf (byte : UInt8) : (charOf byte).toNat = byte.toNat := by
  have hByte := byte.toNat_lt
  have hValid : byte.toNat.isValidChar := .inl (by omega)
  rw [charOf, Char.ofNat, dif_pos hValid]
  rfl

theorem isWide_of_utf8Size {c : Char} (h : c.utf8Size ≠ 1) :
    IsWide c ∧ ∀ byte ∈ String.utf8EncodeChar c, IsWide (charOf byte) := by
  rw [Ne, Char.utf8Size_eq_one_iff, UInt32.le_iff_toNat_le] at h
  have hWide : ¬c.val.toNat ≤ 127 := h
  refine ⟨Nat.lt_of_not_le h, fun byte hByte => ?_⟩
  rw [IsWide, toNat_charOf]
  rw [String.utf8EncodeChar, if_neg hWide] at hByte
  revert byte
  split
  · simp only [List.mem_cons, List.not_mem_nil, or_false, forall_eq_or_imp, forall_eq,
      UInt8.toNat_ofNat']
    omega
  · split
    · simp only [List.mem_cons, List.not_mem_nil, or_false, forall_eq_or_imp, forall_eq,
        UInt8.toNat_ofNat']
      omega
    · simp only [List.mem_cons, List.not_mem_nil, or_false, forall_eq_or_imp, forall_eq,
        UInt8.toNat_ofNat']
      omega

theorem charOf_of_utf8Size {c : Char} (h : c.utf8Size = 1) : charOf c.val.toUInt8 = c := by
  have hCode : c.toNat ≤ 127 := by
    rw [Char.utf8Size_eq_one_iff, UInt32.le_iff_toNat_le] at h
    exact h
  have hByte : c.val.toUInt8.toNat = c.toNat := by
    rw [UInt32.toNat_toUInt8]
    exact Nat.mod_eq_of_lt (Nat.lt_of_le_of_lt hCode (by decide))
  rw [charOf, hByte, Char.ofNat_toNat]

theorem toBytes_cons (c : Char) (cs : List Char) :
    toBytes (c :: cs) = String.utf8EncodeChar c ++ toBytes cs := List.flatMap_cons

/-- A character is one byte that stands for it, or several bytes that stand for no ASCII
character. -/
theorem toBytes_cons_cases (c : Char) (cs : List Char) :
    (c.utf8Size = 1 ∧ ∃ byte, toBytes (c :: cs) = byte :: toBytes cs ∧ charOf byte = c) ∨
      (IsWide c ∧ ∃ byte bytes, toBytes (c :: cs) = byte :: bytes ++ toBytes cs ∧
        bytes.length + 1 = c.utf8Size ∧ IsWide (charOf byte) ∧
        ∀ byte ∈ bytes, IsWide (charOf byte)) := by
  rw [toBytes_cons]
  by_cases hSize : c.utf8Size = 1
  · refine .inl ⟨hSize, c.val.toUInt8, ?_, charOf_of_utf8Size hSize⟩
    rw [String.utf8EncodeChar_eq_singleton hSize]
    rfl
  · obtain ⟨hWide, hBytes⟩ := isWide_of_utf8Size hSize
    have hLength := String.length_utf8EncodeChar c
    refine .inr ⟨hWide, ?_⟩
    cases hForm : String.utf8EncodeChar c with
    | nil =>
      rw [hForm] at hLength
      exact absurd hLength (Nat.ne_of_lt c.utf8Size_pos)
    | cons byte bytes =>
      rw [hForm] at hLength hBytes
      obtain ⟨hFirst, hLater⟩ := List.forall_mem_cons.mp hBytes
      exact ⟨byte, bytes, rfl, hLength, hFirst, hLater⟩

theorem toBytes_append (cs more : List Char) : toBytes (cs ++ more) = toBytes cs ++ toBytes more :=
  List.flatMap_append

theorem length_toBytes (cs : List Char) : (toBytes cs).length = Text.byteLength cs := by
  induction cs with
  | nil => rfl
  | cons c cs ih =>
    rw [toBytes_cons, List.length_append, String.length_utf8EncodeChar, ih, Text.byteLength_cons]

theorem bytesFrom_eq {text rest : List Char} {pos : Nat} (h : RestAt text pos rest) :
    bytesFrom text pos = toBytes rest := by
  obtain ⟨before, rfl, rfl⟩ := h
  rw [bytesFrom, toBytes_append, ← length_toBytes, List.drop_left]

theorem from?_eq {text rest : List Char} {pos : Nat} (h : RestAt text pos rest) :
    from? text pos = some rest := by
  have hRest := h
  rw [← List.append_nil rest] at hRest
  rw [from?, ← h.add_byteLength, hRest.standsAt.span?]

/-! ### Expressions -/

/-- The state behind characters that are not ASCII. -/
def settled : Quoting → Quoting
  | .code => .code
  | .quoted quote _ => .quoted quote false

/-- Strings are closed by quotes. -/
def IsSound : Quoting → Prop
  | .code => True
  | .quoted quote _ => isQuote quote = true

theorem isSound_settled {state : Quoting} (h : IsSound state) : IsSound (settled state) := by
  cases state with
  | code => trivial
  | quoted quote escaped => exact h

theorem isSound_step {state : Quoting} (h : IsSound state) (c : Char) : IsSound (state.step c) := by
  cases state with
  | code =>
    rw [Quoting.step]
    split
    · assumption
    · trivial
  | quoted quote escaped =>
    cases escaped with
    | true => exact h
    | false =>
      rw [Quoting.step]
      split
      · exact h
      · split
        · trivial
        · exact h

theorem step_of_isWide {state : Quoting} (h : IsSound state) {c : Char} (hc : IsWide c) :
    state.step c = settled state := by
  have hBackslash : (c == '\\') = false := by simp [ne_of_isWide hc]
  cases state with
  | code => simp [Quoting.step, isQuote_of_isWide hc, settled]
  | quoted quote escaped =>
    cases escaped with
    | true => rfl
    | false =>
      have hNe : (c == quote) = false := by
        have hQuote : isQuote quote = true := h
        rw [← Bool.not_eq_true, beq_iff_eq]
        rintro rfl
        rw [isQuote_of_isWide hc] at hQuote
        cases hQuote
      simp [Quoting.step, hBackslash, hNe, settled]

variable {depth pos : Nat} {state : Quoting}

theorem expressionEnd?_go_byte (h : IsSound state) {byte : UInt8} (hByte : IsWide (charOf byte))
    (bytes : List UInt8) :
    expressionEnd?.go state depth pos (byte :: bytes) =
      expressionEnd?.go (settled state) depth (pos + 1) bytes := by
  rw [← step_of_isWide h hByte]
  cases state with
  | code =>
    rw [expressionEnd?.go, isOpening_of_isWide hByte, isClosing_of_isWide hByte]
    rfl
  | quoted quote escaped => rfl

theorem expressionEnd?_go_wide (h : IsSound state) {bytes : List UInt8}
    (hBytes : ∀ byte ∈ bytes, IsWide (charOf byte)) (rest : List UInt8) :
    expressionEnd?.go (settled state) depth pos (bytes ++ rest) =
      expressionEnd?.go (settled state) depth (pos + bytes.length) rest := by
  have hTwice : settled (settled state) = settled state := by cases state <;> rfl
  induction bytes generalizing pos with
  | nil => rfl
  | cons byte bytes ih =>
    obtain ⟨hByte, hLater⟩ := List.forall_mem_cons.mp hBytes
    rw [List.cons_append, expressionEnd?_go_byte (isSound_settled h) hByte, hTwice, ih hLater,
      List.length_cons, Nat.add_assoc, Nat.add_comm 1]

theorem expressionEnd?_go_bytes (h : IsSound state) (cs : List Char) :
    expressionEnd?.go state depth pos (toBytes cs) =
      Markup.expressionEnd?.go state depth pos cs := by
  induction cs generalizing state depth pos with
  | nil => cases state <;> rfl
  | cons c cs ih =>
    rcases toBytes_cons_cases c cs with ⟨hSize, byte, hBytes, rfl⟩ |
      ⟨hWide, byte, bytes, hBytes, hLength, hByte, hLater⟩
    · have hCode (depth : Nat) : expressionEnd?.go .code depth (pos + 1) (toBytes cs) =
          Markup.expressionEnd?.go .code depth (pos + 1) cs := ih trivial
      rw [hBytes]
      cases state with
      | code =>
        rw [expressionEnd?.go, Markup.expressionEnd?.go, hSize, hCode, hCode,
          ih (isSound_step h _)]
      | quoted quote escaped =>
        rw [expressionEnd?.go, Markup.expressionEnd?.go, hSize, ih (isSound_step h _)]
        · rintro ⟨⟩
        · rintro ⟨⟩
    · rw [hBytes, List.cons_append, expressionEnd?_go_byte h hByte, expressionEnd?_go_wide h hLater,
        Nat.add_assoc, Nat.add_comm 1, hLength, ih (isSound_settled h), ← step_of_isWide h hWide]
      cases state with
      | code =>
        rw [Markup.expressionEnd?.go, isOpening_of_isWide hWide, isClosing_of_isWide hWide]
        rfl
      | quoted quote escaped => rfl

/-- The end of an expression is found among the bytes. -/
theorem expressionEnd?_bytes (pos : Nat) (cs : List Char) :
    expressionEnd? pos (toBytes cs) = Markup.expressionEnd? pos cs := by
  have hSound : IsSound .code := trivial
  exact expressionEnd?_go_bytes hSound cs

/-! ### Ends of tags -/

variable {text cs : List Char} {resume : Nat}

theorem tagEnd_go_byte {byte : UInt8} (hByte : IsWide (charOf byte)) {slashed : Bool}
    (h : pos < resume → slashed = false) (bytes : List UInt8) :
    tagEnd.go text resume slashed pos (byte :: bytes) =
      tagEnd.go text resume false (pos + 1) bytes := by
  have hSlash : (charOf byte == '/') = false := by simp [ne_of_isWide hByte]
  rw [tagEnd.go]
  split
  · rename_i hSkip
    rw [h hSkip]
  · simp [isQuote_of_isWide hByte, isTagBlank_of_isWide hByte, ne_of_isWide hByte, hSlash]

theorem tagEnd_go_wide {bytes : List UInt8} (hBytes : ∀ byte ∈ bytes, IsWide (charOf byte))
    (rest : List UInt8) :
    tagEnd.go text resume false pos (bytes ++ rest) =
      tagEnd.go text resume false (pos + bytes.length) rest := by
  induction bytes generalizing pos with
  | nil => rfl
  | cons byte bytes ih =>
    obtain ⟨hByte, hLater⟩ := List.forall_mem_cons.mp hBytes
    rw [List.cons_append, tagEnd_go_byte hByte (fun _ => rfl), ih hLater, List.length_cons,
      Nat.add_assoc, Nat.add_comm 1]

/-- What the loop over bytes makes of the end of a tag. -/
def TagEnd.pair (tagEnd : TagEnd) : Nat × Bool := (tagEnd.stop, tagEnd.selfClosing)

theorem tagEnd?_go_wide {c : Char} (hWide : IsWide c) {slash : Option Nat}
    (h : pos < resume → slash = none) (cs : List Char) :
    tagEnd?.go resume slash pos (c :: cs) = tagEnd?.go resume none (pos + c.utf8Size) cs := by
  have hSlash : (c == '/') = false := by simp [ne_of_isWide hWide]
  rw [tagEnd?.go]
  split
  · rename_i hSkip
    rw [h hSkip]
  · simp [isQuote_of_isWide hWide, isTagBlank_of_isWide hWide, ne_of_isWide hWide, hSlash]

theorem tagEnd_go_bytes {slash : Option Nat} (h : RestAt text pos cs)
    (hSkip : pos < resume → slash = none) :
    tagEnd.go text resume slash.isSome pos (toBytes cs) =
      some ((tagEnd?.go resume slash pos cs).map TagEnd.pair) := by
  induction cs generalizing resume slash pos with
  | nil => rfl
  | cons c cs ih =>
    have hNone : pos < resume → slash.isSome = false := fun hLt => by rw [hSkip hLt]; rfl
    rcases toBytes_cons_cases c cs with ⟨hSize, byte, hBytes, rfl⟩ |
      ⟨hWide, byte, bytes, hBytes, hLength, hByte, hLater⟩
    · have hNext := h.tail
      rw [hSize] at hNext
      have hJump (resume : Nat) : tagEnd.go text resume false (pos + 1) (toBytes cs) =
          some ((tagEnd?.go resume none (pos + 1) cs).map TagEnd.pair) := ih hNext fun _ => rfl
      have hEnd := expressionEnd?_bytes pos (charOf byte :: cs)
      rw [hBytes] at hEnd ⊢
      rw [tagEnd.go, tagEnd?.go, hSize]
      by_cases hResume : pos < resume
      · rw [if_pos hResume, if_pos hResume, hSkip hResume]
        exact hJump resume
      · rw [if_neg hResume, if_neg hResume]
        split
        · rw [from?_eq hNext]
          cases hClose : Text.offsetOf? [charOf byte] (pos + 1) cs with
          | none =>
            simp only [hClose]
            rfl
          | some close =>
            simp only [hClose]
            exact hJump (close + 1)
        · split
          · rw [hEnd]
            cases hStop : Markup.expressionEnd? pos (charOf byte :: cs) with
            | none => rfl
            | some stop => exact hJump stop
          · split
            · rfl
            · split
              · rfl
              · split
                · exact ih hNext fun hLt => absurd (Nat.lt_of_succ_lt hLt) hResume
                · cases hSlash : charOf byte == '/' with
                  | false => exact hJump resume
                  | true =>
                    have hMarked := @ih (pos + 1) resume (some pos) hNext
                    exact hMarked fun hLt => absurd (Nat.lt_of_succ_lt hLt) hResume
    · rw [hBytes, List.cons_append, tagEnd_go_byte hByte hNone, tagEnd_go_wide hLater,
        tagEnd?_go_wide hWide hSkip, Nat.add_assoc, Nat.add_comm 1, hLength]
      exact ih h.tail fun _ => rfl

/-- The end of a tag is found among the bytes, and no cut fails on the way. -/
theorem tagEnd_bytes (h : RestAt text pos cs) :
    tagEnd text pos = some ((tagEnd? pos cs).map TagEnd.pair) := by
  rw [tagEnd, bytesFrom_eq h]
  exact tagEnd_go_bytes h fun _ => rfl

/-! ### Attributes -/

variable {limit : Nat}

theorem skip_end {p : Char → Bool} (h : limit ≤ pos) (bytes : List UInt8) :
    skip p limit pos bytes = some (pos, bytes) := by
  cases bytes with
  | nil => rw [skip, if_pos h]
  | cons byte bytes => rw [skip, if_pos h]

theorem skip_append {p : Char → Bool} {bytes : List UInt8}
    (h : ∀ byte ∈ bytes, p (charOf byte) = true) (hLimit : pos + bytes.length ≤ limit)
    (rest : List UInt8) :
    skip p limit pos (bytes ++ rest) = skip p limit (pos + bytes.length) rest := by
  induction bytes generalizing pos with
  | nil => rfl
  | cons byte bytes ih =>
    obtain ⟨hByte, hLater⟩ := List.forall_mem_cons.mp h
    rw [List.length_cons] at hLimit
    rw [List.cons_append, skip, if_neg (by omega), if_pos hByte, ih hLater (by omega),
      List.length_cons, Nat.add_assoc, Nat.add_comm 1]

/-- A kind of bytes that all characters beyond ASCII belong to, or none. -/
def IsUniform (p : Char → Bool) : Prop := ∀ c d, IsWide c → IsWide d → p c = p d

theorem skip_bytes {p : Char → Bool} (hp : IsUniform p) (cs after : List Char)
    (hLimit : pos + Text.byteLength cs = limit) :
    skip p limit pos (toBytes (cs ++ after)) =
      some (pos + Text.byteLength (cs.takeWhile p), toBytes (cs.dropWhile p ++ after)) := by
  induction cs generalizing pos with
  | nil => exact skip_end (Nat.le_of_eq hLimit.symm) _
  | cons c cs ih =>
    have hSize := c.utf8Size_pos
    rw [Text.byteLength_cons, ← Nat.add_assoc] at hLimit
    rw [List.cons_append]
    rcases toBytes_cons_cases c (cs ++ after) with ⟨hOne, byte, hBytes, rfl⟩ |
      ⟨hWide, byte, bytes, hBytes, hLength, hByte, hLater⟩
    · rw [hBytes, skip, if_neg (by omega)]
      split
      · rename_i hOwn
        rw [← hOne, ih hLimit, List.takeWhile_cons_of_pos hOwn, List.dropWhile_cons_of_pos hOwn,
          Text.byteLength_cons, Nat.add_assoc]
      · rename_i hOther
        rw [List.takeWhile_cons_of_neg hOther, List.dropWhile_cons_of_neg hOther, List.cons_append,
          hBytes]
        rfl
    · cases hOwn : p c with
      | true =>
        have hAll : ∀ byte' ∈ byte :: bytes, p (charOf byte') = true :=
          List.forall_mem_cons.mpr ⟨by rw [hp _ _ hByte hWide, hOwn],
            fun other hOther => by rw [hp _ _ (hLater other hOther) hWide, hOwn]⟩
        rw [hBytes, skip_append hAll (by rw [List.length_cons]; omega), List.length_cons, hLength,
          ih hLimit, List.takeWhile_cons_of_pos hOwn, List.dropWhile_cons_of_pos hOwn,
          Text.byteLength_cons, Nat.add_assoc]
      | false =>
        have hFirst : ¬p (charOf byte) = true := by rw [hp _ _ hByte hWide, hOwn]; exact nofun
        rw [List.takeWhile_cons_of_neg (by simp [hOwn]), List.dropWhile_cons_of_neg (by simp [hOwn]),
          List.cons_append, hBytes, List.cons_append, skip, if_neg (by omega), if_neg hFirst]
        rfl

end PhoenixLens.Markup.ByteScanner
