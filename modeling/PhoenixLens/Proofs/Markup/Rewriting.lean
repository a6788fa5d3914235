import PhoenixLens.Markup.Mask
import PhoenixLens.Proofs.Markup.ByteLoops
import PhoenixLens.Proofs.Markup.Offsets

/-!
# Rewriting a text in place

A character of a template is kept, or marks of one byte each take the place of all its bytes. What
a step of the mask writes has the length of what it passes over, be the template well-formed or not,
so this goes for the whole template.
-/

namespace PhoenixLens.Markup

open ByteScanner (toBytes_append toBytes_cons length_toBytes)
open Text (RestAt byteLength toBytes)

/-- The second text is the first one with marks in place of some of its characters, as many as the
character has bytes. -/
inductive Rewrites (marks : List Char) : List Char → List Char → Prop where
  | nil : Rewrites marks [] []
  | keep {cs ds : List Char} (c : Char) : Rewrites marks cs ds → Rewrites marks (c :: cs) (c :: ds)
  | replace {cs ds : List Char} (c : Char) (piece : List Char) : piece.length = c.utf8Size →
      (∀ mark ∈ piece, mark ∈ marks) → Rewrites marks cs ds →
      Rewrites marks (c :: cs) (piece ++ ds)

theorem byteLength_of_utf8Size {cs : List Char} (h : ∀ c ∈ cs, c.utf8Size = 1) :
    byteLength cs = cs.length := by
  induction cs with
  | nil => rfl
  | cons c cs ih =>
    obtain ⟨hOwn, hLater⟩ := List.forall_mem_cons.mp h
    rw [Text.byteLength_cons, hOwn, ih hLater, List.length_cons, Nat.add_comm]

theorem toBytes_cons_of_utf8Size {c : Char} (hSize : c.utf8Size = 1) (cs : List Char) :
    toBytes (c :: cs) = c.toUInt8 :: toBytes cs := by
  rw [toBytes_cons, String.utf8EncodeChar_eq_singleton hSize]
  rfl

theorem toBytes_of_utf8Size {cs : List Char} (h : ∀ c ∈ cs, c.utf8Size = 1) :
    toBytes cs = cs.map Char.toUInt8 := by
  induction cs with
  | nil => rfl
  | cons c cs ih =>
    obtain ⟨hOwn, hLater⟩ := List.forall_mem_cons.mp h
    rw [toBytes_cons_of_utf8Size hOwn, ih hLater, List.map_cons]

namespace Rewrites

variable {marks more cs ds es fs : List Char}

theorem refl (marks cs : List Char) : Rewrites marks cs cs := by
  induction cs with
  | nil => exact .nil
  | cons c cs ih => exact .keep c ih

theorem append (h : Rewrites marks cs ds) (hLater : Rewrites marks es fs) :
    Rewrites marks (cs ++ es) (ds ++ fs) := by
  induction h with
  | nil => exact hLater
  | keep c h ih => exact .keep c ih
  | replace c piece hLength hPiece h ih =>
    rw [List.append_assoc]
    exact .replace c piece hLength hPiece ih

theorem mono (h : Rewrites marks cs ds) (hMarks : ∀ mark ∈ marks, mark ∈ more) :
    Rewrites more cs ds := by
  induction h with
  | nil => exact .nil
  | keep c h ih => exact .keep c ih
  | replace c piece hLength hPiece h ih =>
    exact .replace c piece hLength (fun mark hMark => hMarks mark (hPiece mark hMark)) ih

/-- A mark may take the place of a mark or of a character of one byte. -/
theorem set {i : Nat} {mark : Char} (h : Rewrites marks cs ds) (hMark : mark ∈ marks)
    (hSize : ∀ d ∈ ds[i]?, d.utf8Size = 1) : Rewrites marks cs (ds.set i mark) := by
  induction h generalizing i with
  | nil => exact .nil
  | keep c h ih =>
    cases i with
    | zero => exact .replace c [mark] (hSize c rfl).symm (List.forall_mem_singleton.mpr hMark) h
    | succ i => exact .keep c (ih hSize)
  | replace c piece hLength hPiece h ih =>
    rw [List.set_append]
    split
    · refine .replace c _ (by rw [List.length_set, hLength]) ?_ h
      intro other hOther
      rcases List.mem_or_eq_of_mem_set hOther with hOld | rfl
      · exact hPiece other hOld
      · exact hMark
    · rename_i hLater
      rw [List.getElem?_append_right (Nat.le_of_not_lt hLater)] at hSize
      exact .replace c piece hLength hPiece (ih hSize)

theorem byteLength_eq (h : Rewrites marks cs ds) (hMarks : ∀ mark ∈ marks, mark.utf8Size = 1) :
    byteLength ds = byteLength cs := by
  induction h with
  | nil => rfl
  | keep c h ih => rw [Text.byteLength_cons, Text.byteLength_cons, ih]
  | replace c piece hLength hPiece h ih =>
    have hSizes : ∀ mark ∈ piece, mark.utf8Size = 1 := fun mark hMark =>
      hMarks mark (hPiece mark hMark)
    rw [Text.byteLength_append, Text.byteLength_cons, byteLength_of_utf8Size hSizes, hLength, ih]

/-- Each byte is kept or is that of a mark. -/
theorem bytes (h : Rewrites marks cs ds) (hMarks : ∀ mark ∈ marks, mark.utf8Size = 1) {i : Nat}
    {byte : UInt8} (hByte : (toBytes cs)[i]? = some byte) :
    (toBytes ds)[i]? = some byte ∨ ∃ mark ∈ marks, (toBytes ds)[i]? = some (mark.toUInt8) := by
  induction h generalizing i with
  | nil => cases hByte
  | keep c h ih =>
    rw [toBytes_cons] at hByte ⊢
    by_cases hOwn : i < (String.utf8EncodeChar c).length
    · rw [List.getElem?_append_left hOwn] at hByte ⊢
      exact .inl hByte
    · have hLater := Nat.le_of_not_lt hOwn
      rw [List.getElem?_append_right hLater] at hByte ⊢
      exact ih hByte
  | replace c piece hLength hPiece h ih =>
    have hSizes : ∀ mark ∈ piece, mark.utf8Size = 1 := fun mark hMark =>
      hMarks mark (hPiece mark hMark)
    have hBytes : (piece.map Char.toUInt8).length = (String.utf8EncodeChar c).length := by
      rw [List.length_map, hLength, String.length_utf8EncodeChar]
    rw [toBytes_cons] at hByte
    rw [toBytes_append, toBytes_of_utf8Size hSizes]
    by_cases hOwn : i < (piece.map Char.toUInt8).length
    · rw [List.getElem?_append_left hOwn]
      obtain ⟨mark, hMark, hEq⟩ := List.mem_map.mp (List.getElem_mem hOwn)
      exact .inr ⟨mark, hPiece mark hMark, by rw [List.getElem?_eq_getElem hOwn, hEq]⟩
    · have hLater := Nat.le_of_not_lt hOwn
      rw [List.getElem?_append_right hLater, hBytes]
      rw [List.getElem?_append_right (hBytes ▸ hLater)] at hByte
      exact ih hByte

end Rewrites

/-! ### White space -/

theorem utf8Size_of_mem_blank {cs : List Char} : ∀ d ∈ blank cs, d.utf8Size = 1 := by
  intro d hMem
  obtain ⟨c, -, hOwn⟩ := List.mem_flatMap.mp hMem
  split at hOwn
  · rw [List.mem_singleton.mp hOwn]
    rfl
  · rw [List.eq_of_mem_replicate hOwn]
    rfl

theorem blank_cons (c : Char) (cs : List Char) : blank (c :: cs) = blank [c] ++ blank cs := by
  rw [blank, List.flatMap_cons, blank, List.flatMap_singleton]
  rfl

theorem rewrites_blank (cs : List Char) : Rewrites [' '] cs (blank cs) := by
  induction cs with
  | nil => exact .nil
  | cons c cs ih =>
    rw [blank_cons, blank, List.flatMap_singleton]
    split
    · rename_i hFeed
      rw [beq_iff_eq.mp hFeed]
      exact .keep '\n' ih
    · refine .replace c _ List.length_replicate ?_ ih
      intro mark hMark
      rw [List.eq_of_mem_replicate hMark]
      exact List.mem_cons_self

theorem length_blank (cs : List Char) : (blank cs).length = byteLength cs := by
  rw [← byteLength_of_utf8Size utf8Size_of_mem_blank]
  apply (rewrites_blank cs).byteLength_eq
  exact List.forall_mem_singleton.mpr rfl

/-- A value keeps a quote at each end. -/
theorem blankValue_eq (cs : List Char) :
    blankValue cs = if 2 ≤ byteLength cs then
      ((blank cs).set 0 '"').set (byteLength cs - 1) '"' else blank cs := by
  rw [blankValue, ← length_blank]
  rcases blank cs with _ | ⟨a, _ | ⟨b, bs⟩⟩
  · rfl
  · rfl
  · obtain ⟨front, d, hLast⟩ : ∃ front d, b :: bs = front ++ [d] :=
      ⟨_, _, (List.dropLast_append_getLast (List.cons_ne_nil b bs)).symm⟩
    have hLength : 2 ≤ (a :: b :: bs).length := Nat.le_add_left 2 _
    -- With two bytes or more, the quotes stand over two different ones.
    change '"' :: (b :: bs).dropLast ++ ['"'] = _
    rw [if_pos hLength, hLast]
    simp

/-- Quotes for the first and the last byte, which are of the value. -/
theorem rewrites_blankValue (cs : List Char) : Rewrites [' ', '"'] cs (blankValue cs) := by
  have hBlank : Rewrites [' ', '"'] cs (blank cs) :=
    (rewrites_blank cs).mono (List.forall_mem_singleton.mpr List.mem_cons_self)
  rw [blankValue_eq]
  split
  · have hQuote : '"' ∈ [' ', '"'] := by decide
    apply (hBlank.set hQuote _).set hQuote
    · intro d hMem
      rcases List.mem_or_eq_of_mem_set (List.mem_of_getElem? hMem) with hOld | rfl
      · exact utf8Size_of_mem_blank d hOld
      · rfl
    · intro d hMem
      exact utf8Size_of_mem_blank d (List.mem_of_getElem? hMem)
  · exact hBlank

/-! ### Steps of the mask -/

/-- What the mask writes in place of other characters. -/
def maskMarks : List Char := [' ', '"', 'x', '-']

/-- What a step writes stands for the character that it reads, or for what it passes over. -/
def Masked.Covers (masked : Masked) (pos : Nat) (c : Char) (piece : List Char) : Prop :=
  Rewrites maskMarks (c :: piece) masked.written ∧
    (piece = [] ∧ masked.resume = 0 ∨ masked.resume = pos + byteLength (c :: piece))

variable {text cs rest : List Char} {c : Char} {pos : Nat} {place : Place} {isValue : Bool}

/-- Up to an offset behind its first character a text is cut in two. -/
theorem exists_upTo {stop : Option Nat} (h : RestAt text pos (c :: cs))
    (hStop : ∀ found ∈ stop, pos < found ∧ ∃ rest, RestAt text found rest) :
    ∃ piece rest, cs = piece ++ rest ∧
      upTo stop pos (c :: cs) = (c :: piece, pos + byteLength (c :: piece)) := by
  cases stop with
  | none =>
    have hWhole := Text.takeBytes_append (c :: cs) []
    rw [List.append_nil] at hWhole
    refine ⟨cs, [], (List.append_nil cs).symm, ?_⟩
    rw [upTo, Option.getD_none, Nat.add_sub_cancel_left, hWhole]
  | some found =>
    obtain ⟨hLt, rest, hRest⟩ := hStop found rfl
    obtain ⟨front, hFront, rfl⟩ := h.exists_front hRest (Nat.le_of_lt hLt)
    cases front with
    | nil => exact absurd hLt (Nat.lt_irrefl pos)
    | cons d piece =>
      rw [hFront]
      obtain ⟨rfl, hPiece⟩ := List.cons.inj hFront
      refine ⟨piece, rest, hPiece, ?_⟩
      rw [upTo, Option.getD_some, Nat.add_sub_cancel_left, Text.takeBytes_append]

theorem exists_upTo_piece (h : RestAt text pos (c :: cs)) (d : Char) (piece : List Char) :
    ∃ front rest, cs = front ++ rest ∧
      upTo ((Text.offsetOf? (d :: piece) pos (c :: cs)).map (· + byteLength (d :: piece))) pos
        (c :: cs) = (c :: front, pos + byteLength (c :: front)) := by
  apply exists_upTo h
  intro stop hStop
  obtain ⟨found, hFound, rfl⟩ := Option.map_eq_some_iff.mp hStop
  obtain ⟨hLe, after, hAfter⟩ := h.exists_piece hFound
  have hSize := d.utf8Size_pos
  refine ⟨?_, after, hAfter.append⟩
  rw [Text.byteLength_cons]
  omega

theorem exists_upTo_expression (h : RestAt text pos (c :: cs)) :
    ∃ front rest, cs = front ++ rest ∧ upTo (expressionEnd? pos (c :: cs)) pos (c :: cs) =
      (c :: front, pos + byteLength (c :: front)) :=
  exists_upTo h fun _ hStop => expressionEnd?_offset h hStop

theorem covers_single (pos : Nat) (c : Char) (place : Place) :
    Masked.Covers ⟨[c], 0, place⟩ pos c [] :=
  ⟨.refl _ _, .inl ⟨rfl, rfl⟩⟩

theorem covers_mark {mark : Char} (hSize : c.utf8Size = 1) (hMark : mark ∈ maskMarks) (pos : Nat)
    (place : Place) : Masked.Covers ⟨[mark], 0, place⟩ pos c [] :=
  ⟨.replace c [mark] hSize.symm (List.forall_mem_singleton.mpr hMark) .nil, .inl ⟨rfl, rfl⟩⟩

theorem covers_blank (pos : Nat) (c : Char) (piece : List Char) (place : Place) :
    Masked.Covers ⟨blank (c :: piece), pos + byteLength (c :: piece), place⟩ pos c piece :=
  ⟨(rewrites_blank _).mono (by decide), .inr rfl⟩

theorem covers_expression (isValue : Bool) (pos : Nat) (c : Char) (piece : List Char)
    (place : Place) :
    Masked.Covers ⟨if isValue then blankValue (c :: piece) else blank (c :: piece),
      pos + byteLength (c :: piece), place⟩ pos c piece := by
  cases isValue with
  | true => exact ⟨(rewrites_blankValue _).mono (by decide), .inr rfl⟩
  | false => exact covers_blank pos c piece place

theorem maskContent_covers (h : RestAt text pos (c :: cs)) :
    ∃ piece rest, cs = piece ++ rest ∧ (maskContent pos c cs).Covers pos c piece := by
  rw [maskContent]
  split
  · obtain ⟨front, rest, hCut, hUpTo⟩ := exists_upTo_piece h '%' ['>']
    have hSize : byteLength ['%', '>'] = 2 := rfl
    rw [hSize] at hUpTo
    rw [hUpTo]
    exact ⟨front, rest, hCut, covers_blank pos c front .content⟩
  · split
    · obtain ⟨front, rest, hCut, hUpTo⟩ := exists_upTo_piece h '-' ['-', '>']
      have hSize : byteLength ['-', '-', '>'] = 3 := rfl
      rw [hSize] at hUpTo
      simp only [hUpTo]
      exact ⟨front, rest, hCut, .refl _ _, .inr rfl⟩
    · split
      · obtain ⟨front, rest, hCut, hUpTo⟩ := exists_upTo_expression h
        rw [hUpTo]
        exact ⟨front, rest, hCut, covers_blank pos c front .content⟩
      · exact ⟨[], cs, rfl, covers_single pos c _⟩

theorem maskTag_covers (h : RestAt text pos (c :: cs)) :
    ∃ piece rest, cs = piece ++ rest ∧ (maskTag isValue pos c cs).Covers pos c piece := by
  rw [maskTag]
  split
  · exact ⟨[], cs, rfl, covers_single pos c _⟩
  · split
    · exact ⟨[], cs, rfl, covers_single pos c _⟩
    · split
      · obtain ⟨front, rest, hCut, hUpTo⟩ := exists_upTo_expression h
        rw [hUpTo]
        exact ⟨front, rest, hCut, covers_expression isValue pos c front .tag⟩
      · exact ⟨[], cs, rfl, covers_single pos c _⟩

theorem maskName_covers (h : RestAt text pos (c :: cs)) :
    ∃ piece rest, cs = piece ++ rest ∧ (maskName pos c cs).Covers pos c piece := by
  rw [maskName]
  split
  · rename_i hMark
    refine ⟨[], cs, rfl, covers_mark ?_ (by decide) pos _⟩
    rw [Bool.or_eq_true, beq_iff_eq, beq_iff_eq] at hMark
    rcases hMark with rfl | rfl
    · rfl
    · rfl
  · split
    · exact ⟨[], cs, rfl, covers_single pos c _⟩
    · exact maskContent_covers h

theorem maskStep_covers (place : Place) (isValue : Bool) (h : RestAt text pos (c :: cs)) :
    ∃ piece rest, cs = piece ++ rest ∧ (maskStep place isValue pos c cs).Covers pos c piece := by
  cases place with
  | content => exact maskContent_covers h
  | opened =>
    rw [maskStep]
    split
    · exact ⟨[], cs, rfl, covers_single pos c _⟩
    · exact maskName_covers h
  | slashed => exact maskName_covers h
  | name =>
    rw [maskStep]
    split
    · rename_i hDot
      rw [beq_iff_eq.mp hDot]
      exact ⟨[], cs, rfl, covers_mark rfl (by decide) pos _⟩
    · split
      · exact ⟨[], cs, rfl, covers_single pos c _⟩
      · exact maskTag_covers h
  | tag => exact maskTag_covers h
  | quoted quote => exact ⟨[], cs, rfl, covers_single pos c _⟩

/-! ### The whole mask -/

theorem mask_go_resume {resume : Nat} (h : resume ≤ pos) (cs : List Char) :
    mask.go place isValue resume pos cs = mask.go place isValue 0 pos cs := by
  cases cs with
  | nil => rfl
  | cons c cs => rw [mask.go, mask.go, if_neg (Nat.not_lt.mpr h), if_neg (Nat.not_lt_zero pos)]

theorem mask_go_skip (piece rest : List Char) :
    mask.go place isValue (pos + byteLength piece) pos (piece ++ rest) =
      mask.go place isValue 0 (pos + byteLength piece) rest := by
  induction piece generalizing pos with
  | nil => exact mask_go_resume (Nat.le_refl _) rest
  | cons c piece ih =>
    have hSize := c.utf8Size_pos
    rw [List.cons_append, mask.go, if_pos (by rw [Text.byteLength_cons]; omega),
      Text.byteLength_cons, ← Nat.add_assoc, ih]

/-- A step is followed by what the mask makes of the text behind it. -/
theorem mask_go_step {piece : List Char} {masked : Masked}
    (hStep : maskStep place isValue pos c (piece ++ rest) = masked)
    (hCovers : masked.Covers pos c piece) :
    mask.go place isValue 0 pos (c :: (piece ++ rest)) =
      masked.written ++ mask.go masked.place (endsInEquals isValue masked.written) 0
        (pos + byteLength (c :: piece)) rest := by
  rw [mask.go, if_neg (Nat.not_lt_zero pos), hStep]
  rcases hCovers.2 with ⟨rfl, hResume⟩ | hResume
  · simp only [hResume]
    rfl
  · simp only [hResume, Text.byteLength_cons, ← Nat.add_assoc, mask_go_skip]

/-- Places where a step does the same lead to the same. -/
theorem mask_go_congr {other : Place}
    (h : maskStep place isValue pos c cs = maskStep other isValue pos c cs) :
    mask.go place isValue 0 pos (c :: cs) = mask.go other isValue 0 pos (c :: cs) := by
  rw [mask.go, mask.go, if_neg (Nat.not_lt_zero pos), if_neg (Nat.not_lt_zero pos), h]

theorem mask_go_single {d : Char} {later : Place}
    (hStep : maskStep place isValue pos c cs = ⟨[d], 0, later⟩) :
    mask.go place isValue 0 pos (c :: cs) =
      d :: mask.go later (endsInEquals isValue [d]) 0 (pos + c.utf8Size) cs := by
  rw [mask.go, if_neg (Nat.not_lt_zero pos), hStep]
  rfl

theorem rewrites_mask_go (h : RestAt text pos cs) :
    Rewrites maskMarks cs (mask.go place isValue 0 pos cs) := by
  induction hLength : cs.length using Nat.strongRecOn generalizing cs pos place isValue with
  | ind n ih =>
    cases cs with
    | nil => exact .nil
    | cons c cs =>
      obtain ⟨piece, rest, rfl, hCovers⟩ := maskStep_covers place isValue h
      have hRest : RestAt text pos ((c :: piece) ++ rest) := h
      rw [mask_go_step rfl hCovers]
      apply hCovers.1.append
      apply ih rest.length _ hRest.append rfl
      rw [← hLength, List.length_cons, List.length_append]
      omega

/-- The mask rewrites every text, well-formed or not. -/
theorem rewrites_mask (text : List Char) : Rewrites maskMarks text (mask text) :=
  rewrites_mask_go (.self text)

end PhoenixLens.Markup
