import PhoenixLens.Proofs.Markup.ByteLoops

/-!
# Attributes among the bytes

The text `front` reaches up to the end of the attributes of a tag, and `after` follows it. Reading
the bytes of the whole text up to the end of `front` is reading the attributes of `front`.
-/

namespace PhoenixLens.Markup.ByteScanner

open Elixir (Quoting isQuote isOpening isClosing)
open Text (RestAt span? toBytes)

variable {front cs : List Char} {pos : Nat}

/-! ### Expressions that are cut off -/

theorem lt_expressionEnd?_go {state : Quoting} {depth stop : Nat} {text after : List Char}
    (hText : RestAt text pos (cs ++ after))
    (h : Markup.expressionEnd?.go state depth pos cs = none)
    (hStop : Markup.expressionEnd?.go state depth pos (cs ++ after) = some stop) :
    pos + Text.byteLength cs < stop := by
  induction cs generalizing state depth pos with
  | nil => exact (expressionEnd?_go_offset hText hStop).1
  | cons c cs ih =>
    rw [Text.byteLength_cons, ← Nat.add_assoc]
    cases state with
    | quoted quote escaped => exact ih hText.tail h hStop
    | code =>
      simp only [List.cons_append, Markup.expressionEnd?.go] at h hStop
      split at h
      · rename_i hOpening
        rw [if_pos hOpening] at hStop
        exact ih hText.tail h hStop
      · rename_i hOpening
        rw [if_neg hOpening] at hStop
        split at h
        · rename_i hClosing
          rw [if_pos hClosing] at hStop
          split at h
          · cases h
          · rename_i hOuter
            rw [if_neg hOuter] at hStop
            exact ih hText.tail h hStop
        · rename_i hClosing
          rw [if_neg hClosing] at hStop
          exact ih hText.tail h hStop

/-- The end of an expression lies in `front`, or is cut off like one that is not there. -/
theorem expressionEnd?_cases (h : RestAt front pos cs) (after : List Char) :
    (∃ stop, Markup.expressionEnd? pos cs = some stop ∧
      expressionEnd? pos (toBytes (cs ++ after)) = some stop) ∨
    (Markup.expressionEnd? pos cs = none ∧ Text.byteLength front ≤
      (expressionEnd? pos (toBytes (cs ++ after))).getD (Text.byteLength front)) := by
  rw [expressionEnd?_bytes]
  cases hEnd : Markup.expressionEnd? pos cs with
  | some stop => exact .inl ⟨stop, rfl, expressionEnd?_go_append hEnd 0 after⟩
  | none =>
    refine .inr ⟨rfl, ?_⟩
    cases hWhole : Markup.expressionEnd? pos (cs ++ after) with
    | none => exact Nat.le_refl _
    | some stop =>
      have hLt := lt_expressionEnd?_go (h.append_right after) hEnd hWhole
      rw [h.add_byteLength] at hLt
      exact Nat.le_of_lt hLt

theorem expressionEnd?_clip (h : RestAt front pos cs) (after : List Char) :
    min ((expressionEnd? pos (toBytes (cs ++ after))).getD (Text.byteLength front))
        (Text.byteLength front) =
      min ((Markup.expressionEnd? pos cs).getD (Text.byteLength front)) (Text.byteLength front) := by
  rcases expressionEnd?_cases h after with ⟨stop, hOwn, hWhole⟩ | ⟨hOwn, hWhole⟩
  · rw [hOwn, hWhole]
  · rw [hOwn, Option.getD_none, Nat.min_self, Nat.min_eq_right hWhole]

/-! ### Values -/

theorem isUniform_isAttributeNameChar : IsUniform isAttributeNameChar := fun c d hc hd => by
  rw [isAttributeNameChar_of_isWide hc, isAttributeNameChar_of_isWide hd]

theorem isUniform_isTagBlank : IsUniform Text.isTagBlank := fun c d hc hd => by
  rw [isTagBlank_of_isWide hc, isTagBlank_of_isWide hd]

theorem isUniform_bareValue : IsUniform fun c => !Text.isTagBlank c && c != '>' := by
  have hWide {c : Char} (hc : IsWide c) : (!Text.isTagBlank c && c != '>') = true := by
    simp [isTagBlank_of_isWide hc, ne_of_isWide hc]
  intro c d hc hd
  exact (hWide hc).trans (hWide hd).symm

/-- A character is found where those before it end, or not at all. -/
theorem getD_offsetOf? (c : Char) (pos : Nat) (cs : List Char) :
    (Text.offsetOf? [c] pos cs).getD (pos + Text.byteLength cs) =
      pos + Text.byteLength (cs.takeWhile (· != c)) := by
  have hWhole := List.takeWhile_append_dropWhile (p := (· != c)) (l := cs)
  have hBefore : c ∉ cs.takeWhile (· != c) := by
    intro hMem
    have := List.all_eq_true.mp List.all_takeWhile c hMem
    simp at this
  cases hRest : cs.dropWhile (· != c) with
  | nil =>
    rw [hRest, List.append_nil] at hWhole
    rw [hWhole] at hBefore ⊢
    rw [Text.offsetOf?, Text.cutAt?_singleton_eq_none hBefore]
    rfl
  | cons d rest =>
    have hFound : d = c := by
      have hHead := List.head_dropWhile_not (p := (· != c)) (l := cs) (by simp [hRest])
      simpa [hRest] using hHead
    rw [hRest, hFound] at hWhole
    conv => lhs; rw [← hWhole]
    rw [Text.offsetOf?_append _ _ hBefore]
    rfl

section

variable {byte : UInt8} {bytes : List UInt8} {text : List Char} {limit : Nat}

theorem attributeValue_quote (h : isQuote (charOf byte) = true) :
    attributeValue text limit pos (byte :: bytes) =
      (span? text (pos + 1) limit).bind fun inner =>
        let close := (Text.offsetOf? [charOf byte] (pos + 1) inner).getD limit
        (span? text (pos + 1) close).map fun value =>
          ⟨value, pos + 1, close, min (close + 1) limit⟩ := by
  rw [attributeValue, if_pos h]
  cases span? text (pos + 1) limit with
  | none => rfl
  | some inner =>
    simp only [Option.bind_eq_bind, Option.bind_some]
    cases span? text (pos + 1) ((Text.offsetOf? [charOf byte] (pos + 1) inner).getD limit) with
    | none => rfl
    | some value => rfl

theorem attributeValue_brace (hQuote : isQuote (charOf byte) = false)
    (h : (charOf byte == '{') = true) :
    attributeValue text limit pos (byte :: bytes) =
      let stop := min ((expressionEnd? pos (byte :: bytes)).getD limit) limit
      (span? text pos stop).map fun value => ⟨value, pos, stop, stop⟩ := by
  rw [attributeValue, hQuote, if_neg Bool.false_ne_true, if_pos h]
  dsimp only
  cases span? text pos (min ((expressionEnd? pos (byte :: bytes)).getD limit) limit) with
  | none => rfl
  | some value => rfl

theorem attributeValue_bare (hQuote : isQuote (charOf byte) = false)
    (hBrace : (charOf byte == '{') = false) :
    attributeValue text limit pos (byte :: bytes) =
      (skip (fun c => !Text.isTagBlank c && c != '>') limit pos (byte :: bytes)).bind
        fun found => (span? text pos found.1).map fun value =>
          ⟨value, pos, found.1, found.1⟩ := by
  rw [attributeValue, hQuote, if_neg Bool.false_ne_true, hBrace, if_neg Bool.false_ne_true]
  cases skip (fun c => !Text.isTagBlank c && c != '>') limit pos (byte :: bytes) with
  | none => rfl
  | some found =>
    obtain ⟨stop, rest⟩ := found
    simp only [Option.bind_eq_bind, Option.bind_some]
    cases span? text pos stop with
    | none => rfl
    | some value => rfl

end

theorem attributeValue_bytes {c : Char} (h : RestAt front pos (c :: cs)) (after : List Char) :
    attributeValue (front ++ after) (Text.byteLength front) pos (toBytes (c :: (cs ++ after))) =
      Markup.attributeValue pos (c :: cs) := by
  have hLimit := h.add_byteLength
  have hBare {byte : UInt8} {bytes : List UInt8} (hBytes : toBytes (c :: (cs ++ after)) = byte :: bytes)
      (hQuote : isQuote (charOf byte) = false) (hBrace : (charOf byte == '{') = false)
      (hOwnQuote : isQuote c = false) (hOwnBrace : (c == '{') = false) :
      attributeValue (front ++ after) (Text.byteLength front) pos (toBytes (c :: (cs ++ after))) =
        Markup.attributeValue pos (c :: cs) := by
    have hSkip := skip_bytes isUniform_bareValue (c :: cs) after hLimit
    have hWhole := h
    rw [← List.takeWhile_append_dropWhile (l := c :: cs)
      (p := fun c => !Text.isTagBlank c && c != '>')] at hWhole
    have hSpan := Text.span?_append_right hWhole.standsAt.span? after
    rw [List.cons_append] at hSkip
    rw [hBytes] at hSkip ⊢
    rw [attributeValue_bare hQuote hBrace, hSkip, Markup.attributeValue, hOwnQuote, hOwnBrace,
      Option.bind_some, hSpan]
    rfl
  rcases toBytes_cons_cases c (cs ++ after) with ⟨hSize, byte, hBytes, rfl⟩ |
    ⟨hWide, byte, bytes, hBytes, -, hByte, -⟩
  · have hNext := h.tail
    rw [hSize] at hNext
    cases hQuote : isQuote (charOf byte) with
    | true =>
      have hInner := (hNext.append_right after).standsAt.span?
      have hNextLimit := hNext.add_byteLength
      have hWhole := hNext
      rw [← List.takeWhile_append_dropWhile (p := (· != charOf byte)) (l := cs)] at hWhole
      have hSpan := Text.span?_append_right hWhole.standsAt.span? after
      have hClose := getD_offsetOf? (charOf byte) (pos + 1) cs
      rw [hNextLimit] at hInner hClose
      rw [hBytes, attributeValue_quote hQuote, hInner, Option.bind_some]
      simp only [hClose, hSpan]
      rw [Markup.attributeValue, if_pos hQuote, hLimit]
      rfl
    | false =>
      cases hBrace : charOf byte == '{' with
      | true =>
        obtain ⟨hLe, rest, hRest⟩ := behind_expression h
        have hSpan := Text.span?_append_right (h.span?_eq hRest hLe) after
        have hClip := expressionEnd?_clip h after
        rw [List.cons_append, hBytes] at hClip
        rw [hBytes, attributeValue_brace hQuote hBrace]
        simp only [hClip, hSpan]
        rw [Markup.attributeValue, hQuote, hBrace, hLimit]
        rfl
      | false => exact hBare hBytes hQuote hBrace hQuote hBrace
  · exact hBare hBytes (isQuote_of_isWide hByte) (by simp [ne_of_isWide hByte])
      (isQuote_of_isWide hWide) (by simp [ne_of_isWide hWide])

/-! ### Attributes -/

/-- Passing over characters of a kind leaves a place at which the text goes on. -/
theorem skip_rest {p : Char → Bool} (hp : IsUniform p) (h : RestAt front pos cs)
    (after : List Char) :
    skip p (Text.byteLength front) pos (toBytes (cs ++ after)) =
        some (pos + Text.byteLength (cs.takeWhile p), toBytes (cs.dropWhile p ++ after)) ∧
      RestAt front (pos + Text.byteLength (cs.takeWhile p)) (cs.dropWhile p) := by
  refine ⟨skip_bytes hp cs after h.add_byteLength, ?_⟩
  rw [← List.takeWhile_append_dropWhile (p := p) (l := cs)] at h
  exact h.append

theorem limit_le_iff (h : RestAt front pos cs) : Text.byteLength front ≤ pos ↔ cs = [] := by
  have hLimit := h.add_byteLength
  cases cs with
  | nil =>
    rw [Text.byteLength_nil] at hLimit
    exact iff_of_true (by omega) rfl
  | cons c cs =>
    have hSize := c.utf8Size_pos
    rw [Text.byteLength_cons] at hLimit
    exact iff_of_false (by omega) (List.cons_ne_nil c cs)

theorem exists_attributeValue (pos : Nat) (c : Char) (cs : List Char) :
    ∃ value, Markup.attributeValue pos (c :: cs) = some value := by
  rw [Markup.attributeValue]
  split
  · exact ⟨_, rfl⟩
  · split <;> exact ⟨_, rfl⟩

theorem attributeAt_bytes (h : RestAt front pos cs) (after : List Char) :
    attributeAt (front ++ after) (Text.byteLength front) pos (toBytes (cs ++ after)) =
      some (attributeOf pos cs) := by
  obtain ⟨hName, hBehind⟩ := skip_rest isUniform_isAttributeNameChar h after
  obtain ⟨hBlanks, hRest⟩ := skip_rest isUniform_isTagBlank hBehind after
  have hWhole := h
  rw [← List.takeWhile_append_dropWhile (p := isAttributeNameChar) (l := cs)] at hWhole
  have hSpan := Text.span?_append_right hWhole.standsAt.span? after
  simp only [attributeAt, hName, hSpan, hBlanks, Option.bind_eq_bind, Option.bind_some, attributeOf]
  cases hEquals : (cs.dropWhile isAttributeNameChar).dropWhile Text.isTagBlank with
  | nil =>
    rw [hEquals] at hRest
    rw [if_pos ((limit_le_iff hRest).mpr rfl)]
    rfl
  | cons d rest =>
    rw [hEquals] at hRest
    rw [if_neg (mt (limit_le_iff hRest).mp (List.cons_ne_nil _ _)), List.cons_append]
    rcases toBytes_cons_cases d (rest ++ after) with ⟨hSize, byte, hBytes, rfl⟩ |
      ⟨hWide, byte, bytes, hBytes, -, hByte, -⟩
    · rw [hBytes]
      by_cases hOwn : charOf byte = '='
      · have hNext := hRest.tail
        rw [hSize] at hNext
        obtain ⟨hMore, hValue⟩ := skip_rest isUniform_isTagBlank hNext after
        simp only [hOwn, hMore, beq_self_eq_true, if_true, Option.bind_some]
        cases hGiven : rest.dropWhile Text.isTagBlank with
        | nil =>
          rw [hGiven] at hValue
          rw [if_pos ((limit_le_iff hValue).mpr rfl)]
          rfl
        | cons e further =>
          rw [hGiven] at hValue
          obtain ⟨value, hFound⟩ := exists_attributeValue (pos +
            Text.byteLength (cs.takeWhile isAttributeNameChar) +
            Text.byteLength ((cs.dropWhile isAttributeNameChar).takeWhile Text.isTagBlank) + 1 +
            Text.byteLength (rest.takeWhile Text.isTagBlank)) e further
          rw [if_neg (mt (limit_le_iff hValue).mp (List.cons_ne_nil _ _)), List.cons_append,
            attributeValue_bytes hValue after, hFound]
          rfl
      · have hOther : (charOf byte == '=') = false := by simpa using hOwn
        simp only [hOther, if_neg Bool.false_ne_true]
        split
        · rename_i hSame
          exact absurd (List.cons.inj hSame).1 hOwn
        · rfl
    · have hOther : (charOf byte == '=') = false := by simp [ne_of_isWide hByte]
      rw [hBytes, List.cons_append]
      simp only [hOther, if_neg Bool.false_ne_true]
      split
      · rename_i hSame
        exact absurd (List.cons.inj hSame).1 (ne_of_isWide hWide (d := '=') (by decide))
      · rfl

theorem attributes_go_end {text : List Char} {limit resume : Nat} (hResume : limit ≤ resume)
    {bytes : List UInt8} (h : limit ≤ pos + bytes.length) :
    attributes.go text limit resume pos bytes = some [] := by
  induction bytes generalizing pos with
  | nil => exact if_pos h
  | cons byte bytes ih =>
    rw [List.length_cons] at h
    rw [attributes.go]
    split
    · rfl
    · rw [if_pos (by omega), ih (by omega)]

theorem attributes_go_skip (text : List Char) {limit resume : Nat} {bytes : List UInt8}
    (hResume : pos + bytes.length ≤ resume) (hLimit : pos + bytes.length ≤ limit)
    (rest : List UInt8) :
    attributes.go text limit resume pos (bytes ++ rest) =
      attributes.go text limit resume (pos + bytes.length) rest := by
  induction bytes generalizing pos with
  | nil => rfl
  | cons byte bytes ih =>
    rw [List.length_cons] at hResume hLimit
    rw [List.cons_append, attributes.go, if_neg (by omega), if_pos (by omega),
      ih (by omega) (by omega), List.length_cons, Nat.add_assoc, Nat.add_comm 1]

theorem attributeOf_nameEnd (pos : Nat) (cs : List Char) :
    (attributeOf pos cs).1.nameEnd = pos + Text.byteLength (cs.takeWhile isAttributeNameChar) := by
  rw [attributeOf]
  split
  · dsimp only
    split <;> rfl
  · rfl

/-- An attribute has a name, so that reading goes on behind its first character. -/
theorem le_attributeOf {c : Char} (h : RestAt front pos (c :: cs))
    (hName : isAttributeNameChar c = true) :
    pos + c.utf8Size ≤ (attributeOf pos (c :: cs)).2 := by
  have hGiven := attributeOf_offset h
  have hStop := Nat.le_trans hGiven.written.stop_le.1 hGiven.stop
  rw [attributeOf_nameEnd, List.takeWhile_cons_of_pos hName, Text.byteLength_cons] at hStop
  omega

theorem attributes_go_bytes {resume : Nat} {after : List Char} (h : RestAt front pos cs)
    (hResume : resume ≤ pos ∨ ∃ rest, RestAt front resume rest) :
    attributes.go (front ++ after) (Text.byteLength front) resume pos (toBytes (cs ++ after)) =
      some (attributesOf.go resume pos cs) := by
  induction cs generalizing resume pos with
  | nil =>
    have hLimit := h.add_byteLength
    rw [Text.byteLength_nil, Nat.add_zero] at hLimit
    cases hBytes : toBytes ([] ++ after) with
    | nil => exact if_pos (Nat.le_of_eq hLimit.symm)
    | cons byte bytes => exact if_pos (Nat.le_of_eq hLimit.symm)
  | cons c cs ih =>
    have hSize := c.utf8Size_pos
    have hLimit := h.add_byteLength
    rw [Text.byteLength_cons] at hLimit
    rw [List.cons_append]
    by_cases hSkip : pos < resume
    · obtain ⟨rest, hRest⟩ := hResume.resolve_left (Nat.not_le.mpr hSkip)
      have hFits := h.next_le hRest hSkip
      have hLength := String.length_utf8EncodeChar c
      rw [toBytes_cons, attributes_go_skip _ (by omega) (by omega), hLength, ih h.tail (.inr ⟨_, hRest⟩),
        attributesOf.go, if_pos hSkip]
    · rw [attributesOf.go, if_neg hSkip]
      rcases toBytes_cons_cases c (cs ++ after) with ⟨hOne, byte, hBytes, rfl⟩ |
        ⟨hWide, byte, bytes, hBytes, hLength, hByte, -⟩
      · have hTail := h.tail
        rw [hOne] at hTail ⊢
        rw [hBytes, attributes.go, if_neg (by omega), if_neg hSkip]
        split
        · have hEnd := expressionEnd?_cases h after
          rw [List.cons_append, hBytes] at hEnd
          rcases hEnd with ⟨stop, hOwn, hWhole⟩ | ⟨hOwn, hWhole⟩
          · rw [hOwn, hWhole]
            exact ih hTail (.inr (expressionEnd?_offset h hOwn).2)
          · rw [hOwn]
            refine attributes_go_end hWhole ?_
            rw [length_toBytes, Text.byteLength_append]
            omega
        · split
          · have hGiven := attributeAt_bytes h after
            rw [List.cons_append, hBytes] at hGiven
            rw [hGiven]
            simp only [ih hTail (.inr (attributeOf_offset h).behind)]
            rfl
          · exact ih hTail (.inl (by omega))
      · have hName := isAttributeNameChar_of_isWide hWide
        have hBrace : (c == '{') = false := by simp [ne_of_isWide hWide]
        have hByteBrace : (charOf byte == '{') = false := by simp [ne_of_isWide hByte]
        have hGiven := attributeAt_bytes h after
        have hNext := le_attributeOf h hName
        rw [List.cons_append, hBytes, List.cons_append] at hGiven
        rw [hBytes, List.cons_append, attributes.go, if_neg (by omega), if_neg hSkip, hByteBrace,
          if_neg Bool.false_ne_true, if_pos (isAttributeNameChar_of_isWide hByte), hGiven, hBrace,
          if_neg Bool.false_ne_true, if_pos hName]
        have hResume : pos + 1 + bytes.length ≤ (attributeOf pos (c :: cs)).2 := by omega
        have hLimit : pos + 1 + bytes.length ≤ Text.byteLength front := by omega
        have hRest := attributes_go_skip (front ++ after) hResume hLimit (toBytes (cs ++ after))
        rw [Nat.add_assoc, Nat.add_comm 1, hLength,
          ih h.tail (.inr (attributeOf_offset h).behind)] at hRest
        simp only [hRest]
        rfl

/-- The attributes of a tag are found among the bytes, and no read or cut fails on the way. -/
theorem attributes_bytes {text rest further : List Char} {limit : Nat} (h : RestAt text pos rest)
    (hLimit : RestAt text limit further) (hLe : pos ≤ limit) :
    attributes text limit pos = some (attributesOf pos (Text.takeBytes (limit - pos) rest)) := by
  obtain ⟨hCut, -⟩ := h.takeBytes_sub hLimit hLe
  obtain ⟨front, rfl, rfl⟩ := hLimit
  generalize Text.takeBytes (Text.byteLength front - pos) rest = cs at hCut ⊢
  subst hCut
  rw [attributes, bytesFrom_eq h]
  exact attributes_go_bytes h.of_append_right (.inl (Nat.le_refl _))

end PhoenixLens.Markup.ByteScanner
