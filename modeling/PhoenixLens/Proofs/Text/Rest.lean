import Mathlib.Data.List.Basic
import PhoenixLens.Proofs.Text.Basic
import PhoenixLens.Text.Basic

/-!
# Cuts at byte offsets

A text that is put together from pieces is cut where the pieces meet.

A reader that walks over a text has its offset and what is left of the text. The two belong
together, and an offset at which something is left is a boundary of the text. Each match in a text
is read where it stands, and what can be read at some place is among the matches, unless an earlier
match reaches over that place.
-/

namespace PhoenixLens.Text

variable (a b c : List Char)

theorem takeBytes_append : takeBytes (byteLength a) (a ++ b) = a := by
  induction a with
  | nil =>
    cases b with
    | nil => rfl
    | cons d b =>
      have hSize := d.utf8Size_pos
      rw [List.nil_append, byteLength_nil, takeBytes, if_neg (by omega)]
  | cons d a ih =>
    rw [List.cons_append, byteLength_cons, takeBytes, if_pos (Nat.le_add_right _ _),
      Nat.add_sub_cancel_left, ih]

theorem dropBytes_append : dropBytes (byteLength a) (a ++ b) = b := by
  induction a with
  | nil => cases b <;> rfl
  | cons d a ih =>
    have hSize := d.utf8Size_pos
    obtain ⟨n, hn⟩ : ∃ n, d.utf8Size + byteLength a = n + 1 :=
      Nat.exists_eq_succ_of_ne_zero (by omega)
    have hRest : n + 1 - d.utf8Size = byteLength a := by omega
    rw [List.cons_append, byteLength_cons, hn, dropBytes, hRest, ih]

theorem slice_append :
    slice (a ++ (b ++ c)) (byteLength a) (byteLength a + byteLength b) = b := by
  rw [slice, dropBytes_append, Nat.add_sub_cancel_left, takeBytes_append]

theorem isBoundary_append : isBoundary (a ++ b) (byteLength a) = true := by
  induction a with
  | nil => cases b <;> rfl
  | cons d a ih =>
    have hSize := d.utf8Size_pos
    obtain ⟨n, hn⟩ : ∃ n, d.utf8Size + byteLength a = n + 1 :=
      Nat.exists_eq_succ_of_ne_zero (by omega)
    have hRest : n + 1 - d.utf8Size = byteLength a := by omega
    have hFits : d.utf8Size ≤ n + 1 := by omega
    rw [List.cons_append, byteLength_cons, hn, isBoundary, hRest, ih, decide_eq_true hFits]
    rfl

/-- A piece of a text with its byte offset. -/
def StandsAt (text piece : List Char) (pos : Nat) : Prop :=
  ∃ before after, text = before ++ (piece ++ after) ∧ byteLength before = pos

namespace StandsAt

variable {a b} {text : List Char} {pos : Nat}

theorem left (h : StandsAt text (a ++ b) pos) : StandsAt text a pos := by
  obtain ⟨before, after, rfl, hPos⟩ := h
  exact ⟨before, b ++ after, by rw [List.append_assoc], hPos⟩

theorem right (h : StandsAt text (a ++ b) pos) : StandsAt text b (pos + byteLength a) := by
  obtain ⟨before, after, rfl, rfl⟩ := h
  exact ⟨before ++ a, after, by simp, byteLength_append _ _⟩

theorem tail {d : Char} (h : StandsAt text (d :: a) pos) : StandsAt text a (pos + d.utf8Size) :=
  @right [d] a text pos h

theorem span? (h : StandsAt text a pos) :
    Text.span? text pos (pos + byteLength a) = some a := by
  obtain ⟨before, after, rfl, rfl⟩ := h
  have hStop := isBoundary_append (before ++ a) after
  rw [byteLength_append, List.append_assoc] at hStop
  rw [Text.span?, isBoundary_append, hStop, decide_eq_true (Nat.le_add_right _ _), slice_append]
  rfl

end StandsAt

theorem offsetOf?_append {d : Char} (h : d ∉ a) (pos : Nat) :
    offsetOf? [d] pos (a ++ d :: b) = some (pos + byteLength a) := by
  rw [offsetOf?, cutAt?_singleton_append h]
  rfl

end PhoenixLens.Text

/-! ### What stands behind an offset -/

namespace PhoenixLens.Text

/-- What is left of a text at a byte offset. -/
def RestAt (text : List Char) (pos : Nat) (rest : List Char) : Prop :=
  ∃ before, text = before ++ rest ∧ byteLength before = pos

variable {text front rest further : List Char} {pos stop : Nat}

theorem byteLength_eq_zero {cs : List Char} (h : byteLength cs = 0) : cs = [] := by
  cases cs with
  | nil => rfl
  | cons c cs =>
    have hSize := c.utf8Size_pos
    rw [byteLength_cons] at h
    omega

/-- A boundary is an offset at which something is left, be it nothing. -/
theorem isBoundary_iff : isBoundary text pos = true ↔ ∃ rest, RestAt text pos rest := by
  constructor
  · intro h
    induction text generalizing pos with
    | nil =>
      cases pos with
      | zero => exact ⟨[], [], rfl, rfl⟩
      | succ n => cases h
    | cons c text ih =>
      cases pos with
      | zero => exact ⟨c :: text, [], rfl, rfl⟩
      | succ n =>
        rw [isBoundary, Bool.and_eq_true, decide_eq_true_eq] at h
        obtain ⟨rest, before, rfl, hBefore⟩ := ih h.2
        refine ⟨rest, c :: before, rfl, ?_⟩
        rw [byteLength_cons, hBefore]
        omega
  · rintro ⟨rest, before, rfl, rfl⟩
    exact isBoundary_append before rest

namespace RestAt

theorem self (text : List Char) : RestAt text 0 text := ⟨[], rfl, rfl⟩

theorem append (h : RestAt text pos (front ++ rest)) :
    RestAt text (pos + byteLength front) rest := by
  obtain ⟨before, rfl, rfl⟩ := h
  exact ⟨before ++ front, by rw [List.append_assoc], byteLength_append _ _⟩

theorem tail {c : Char} (h : RestAt text pos (c :: rest)) :
    RestAt text (pos + c.utf8Size) rest := by
  have hFront : RestAt text pos ([c] ++ rest) := h
  exact hFront.append

theorem isBoundary (h : RestAt text pos rest) : Text.isBoundary text pos = true :=
  isBoundary_iff.mpr ⟨rest, h⟩

theorem standsAt (h : RestAt text pos (front ++ rest)) : StandsAt text front pos := by
  obtain ⟨before, rfl, hPos⟩ := h
  exact ⟨before, rest, rfl, hPos⟩

theorem add_byteLength (h : RestAt text pos rest) : pos + byteLength rest = byteLength text := by
  obtain ⟨before, rfl, rfl⟩ := h
  rw [byteLength_append]

theorem le (h : RestAt text pos rest) : pos ≤ byteLength text := by
  have := h.add_byteLength
  omega

theorem dropBytes_eq (h : RestAt text pos rest) : dropBytes pos text = rest := by
  obtain ⟨before, rfl, rfl⟩ := h
  exact dropBytes_append before rest

theorem unique (h : RestAt text pos rest) (hOther : RestAt text pos further) : rest = further := by
  rw [← h.dropBytes_eq, hOther.dropBytes_eq]

/-- Between two offsets stands a piece of the text. -/
theorem exists_front (h : RestAt text pos rest) (hStop : RestAt text stop further)
    (hLe : pos ≤ stop) : ∃ front, rest = front ++ further ∧ pos + byteLength front = stop := by
  obtain ⟨before, rfl, rfl⟩ := h
  obtain ⟨other, hText, rfl⟩ := hStop
  rcases List.append_eq_append_iff.mp hText with ⟨front, rfl, rfl⟩ | ⟨front, rfl, rfl⟩
  · exact ⟨front, rfl, (byteLength_append _ _).symm⟩
  · have hFront : front = [] := by
      refine byteLength_eq_zero ?_
      rw [byteLength_append] at hLe
      omega
    subst hFront
    exact ⟨[], rfl, by simp⟩

/-- Between two characters is no boundary. -/
theorem next_le {c : Char} (h : RestAt text pos (c :: rest)) (hStop : RestAt text stop further)
    (hLt : pos < stop) : pos + c.utf8Size ≤ stop := by
  obtain ⟨front, hFront, rfl⟩ := h.exists_front hStop (Nat.le_of_lt hLt)
  cases front with
  | nil => exact absurd hLt (Nat.lt_irrefl pos)
  | cons d front =>
    rw [List.cons_append, List.cons.injEq] at hFront
    rw [hFront.1, byteLength_cons]
    omega

theorem dropBytes_sub (h : RestAt text pos rest) (hStop : RestAt text stop further)
    (hLe : pos ≤ stop) : dropBytes (stop - pos) rest = further := by
  obtain ⟨front, rfl, rfl⟩ := h.exists_front hStop hLe
  rw [Nat.add_sub_cancel_left, dropBytes_append]

theorem takeBytes_sub (h : RestAt text pos rest) (hStop : RestAt text stop further)
    (hLe : pos ≤ stop) :
    rest = takeBytes (stop - pos) rest ++ further ∧
      pos + byteLength (takeBytes (stop - pos) rest) = stop := by
  obtain ⟨front, rfl, rfl⟩ := h.exists_front hStop hLe
  rw [Nat.add_sub_cancel_left, takeBytes_append]
  exact ⟨rfl, rfl⟩

/-- The text between two boundaries is cut out. -/
theorem span?_eq (h : RestAt text pos rest) (hStop : RestAt text stop further)
    (hLe : pos ≤ stop) : Text.span? text pos stop = some (takeBytes (stop - pos) rest) := by
  obtain ⟨front, rfl, rfl⟩ := h.exists_front hStop hLe
  rw [h.standsAt.span?, Nat.add_sub_cancel_left, takeBytes_append]

/-- What is left of a beginning of the text is followed by the rest of the text. -/
theorem append_right (h : RestAt text pos rest) (more : List Char) :
    RestAt (text ++ more) pos (rest ++ more) := by
  obtain ⟨before, rfl, hPos⟩ := h
  exact ⟨before, List.append_assoc _ _ _, hPos⟩

theorem of_append_right (h : RestAt (text ++ further) pos (rest ++ further)) :
    RestAt text pos rest := by
  obtain ⟨before, hText, hPos⟩ := h
  rw [← List.append_assoc] at hText
  exact ⟨before, List.append_cancel_right hText, hPos⟩

theorem last (text : List Char) : RestAt text (byteLength text) [] :=
  ⟨text, (List.append_nil text).symm, rfl⟩

/-- The search for a piece of text ends where it stands. -/
theorem exists_piece {piece : List Char} {found : Nat} (h : RestAt text pos rest)
    (hFound : Text.offsetOf? piece pos rest = some found) :
    pos ≤ found ∧ ∃ after, RestAt text found (piece ++ after) := by
  rw [Text.offsetOf?, Option.map_eq_some_iff] at hFound
  obtain ⟨⟨before, after⟩, hCut, rfl⟩ := hFound
  have hWhole := append_of_cutAt? hCut
  rw [List.append_assoc] at hWhole
  subst hWhole
  exact ⟨Nat.le_add_right _ _, after, h.append⟩

theorem offsetOf? {c : Char} {found : Nat} (h : RestAt text pos rest)
    (hFound : Text.offsetOf? [c] pos rest = some found) :
    pos ≤ found ∧ ∃ after, RestAt text found (c :: after) := h.exists_piece hFound

end RestAt

namespace StandsAt

variable {piece : List Char}

theorem exists_rest (h : StandsAt text piece pos) :
    ∃ rest, RestAt text pos (piece ++ rest) := by
  obtain ⟨before, after, rfl, hPos⟩ := h
  exact ⟨after, before, rfl, hPos⟩

theorem concat {more : List Char} (h : StandsAt text piece pos)
    (hRest : RestAt text (pos + byteLength piece) (more ++ rest)) :
    StandsAt text (piece ++ more) pos := by
  obtain ⟨behind, hPiece⟩ := h.exists_rest
  rw [hPiece.append.unique hRest, ← List.append_assoc] at hPiece
  exact hPiece.standsAt

/-- A piece of a beginning of the text is a piece of the text. -/
theorem append_right (h : StandsAt text piece pos) (more : List Char) :
    StandsAt (text ++ more) piece pos := by
  obtain ⟨before, after, rfl, hPos⟩ := h
  exact ⟨before, after ++ more, by simp only [List.append_assoc], hPos⟩

end StandsAt

theorem span?_eq_some_iff {piece : List Char} :
    span? text pos stop = some piece ↔ StandsAt text piece pos ∧ pos + byteLength piece = stop := by
  constructor
  · intro h
    have hBounds : (pos ≤ stop ∧ isBoundary text pos = true) ∧ isBoundary text stop = true := by
      rw [span?] at h
      split at h
      · rename_i hBounds
        simpa using hBounds
      · cases h
    obtain ⟨⟨hLe, hPos⟩, hStop⟩ := hBounds
    obtain ⟨rest, hRest⟩ := isBoundary_iff.mp hPos
    obtain ⟨further, hFurther⟩ := isBoundary_iff.mp hStop
    obtain ⟨front, rfl, rfl⟩ := hRest.exists_front hFurther hLe
    rw [hRest.standsAt.span?] at h
    cases h
    exact ⟨hRest.standsAt, rfl⟩
  · rintro ⟨hStands, rfl⟩
    exact hStands.span?

/-- What is cut out of a beginning of a text is cut out of the text. -/
theorem span?_append_right {piece : List Char} (h : span? text pos stop = some piece)
    (more : List Char) : span? (text ++ more) pos stop = some piece := by
  rw [span?_eq_some_iff] at h ⊢
  exact ⟨h.1.append_right more, h.2⟩

theorem le_of_span? {piece : List Char} (h : span? text pos stop = some piece) :
    pos ≤ stop ∧ stop ≤ byteLength text := by
  obtain ⟨hStands, rfl⟩ := span?_eq_some_iff.mp h
  obtain ⟨rest, hRest⟩ := hStands.exists_rest
  exact ⟨Nat.le_add_right _ _, hRest.append.le⟩

/-! ### Matches -/

section

variable {α : Type} {recognize : Recognizer α} {previous : Option Char} {skip start : Nat}
  {cs before here : List Char} {a : α}

theorem exists_of_mem_matchesFrom (h : (start, a) ∈ matchesFrom recognize previous skip pos cs) :
    ∃ before here previous rest, cs = before ++ here ∧ pos + byteLength before = start ∧
      recognize previous here = some (a, rest) := by
  induction cs generalizing previous skip pos with
  | nil => cases h
  | cons c cs ih =>
    have hLater {skip : Nat}
        (hMem : (start, a) ∈ matchesFrom recognize (some c) skip (pos + c.utf8Size) cs) :
        ∃ before here previous rest, c :: cs = before ++ here ∧ pos + byteLength before = start ∧
          recognize previous here = some (a, rest) := by
      obtain ⟨before, here, previous, rest, rfl, hStart, hRead⟩ := ih hMem
      refine ⟨c :: before, here, previous, rest, rfl, ?_, hRead⟩
      rw [← hStart, byteLength_cons]
      omega
    cases skip with
    | succ skip => exact hLater h
    | zero =>
      rw [matchesFrom] at h
      cases hRead : recognize previous (c :: cs) with
      | none =>
        rw [hRead] at h
        exact hLater h
      | some found =>
        rw [hRead] at h
        rcases List.mem_cons.mp h with hFirst | hMem
        · cases hFirst
          exact ⟨[], c :: cs, previous, found.2, rfl, rfl, hRead⟩
        · exact hLater hMem

/-- What begins in `before` is read to its end in there. -/
def IsApartFrom (recognize : Recognizer α) (before here : List Char) : Prop :=
  ∀ front middle, before = front ++ middle → middle ≠ [] → ∀ previous a rest,
    recognize previous (middle ++ here) = some (a, rest) → here.length ≤ rest.length

theorem IsApartFrom.tail {c : Char} (h : IsApartFrom recognize (c :: before) here) :
    IsApartFrom recognize before here :=
  fun front middle hText => h (c :: front) middle (congrArg (List.cons c) hText)

theorem mem_matchesFrom (hApart : IsApartFrom recognize before here) (hSkip : skip ≤ before.length)
    (hNe : here ≠ []) (hRead : ∀ previous, ∃ rest, recognize previous here = some (a, rest)) :
    (pos + byteLength before, a) ∈ matchesFrom recognize previous skip pos (before ++ here) := by
  induction before generalizing previous skip pos with
  | nil =>
    obtain ⟨c, cs, rfl⟩ := List.exists_cons_of_ne_nil hNe
    obtain ⟨rest, hFound⟩ := hRead previous
    obtain rfl : skip = 0 := Nat.le_zero.mp hSkip
    rw [List.nil_append, matchesFrom, hFound]
    exact List.mem_cons_self
  | cons c before ih =>
    have hLater {skip : Nat} (hSkip : skip ≤ before.length) :
        (pos + byteLength (c :: before), a) ∈
          matchesFrom recognize (some c) skip (pos + c.utf8Size) (before ++ here) := by
      rw [byteLength_cons, ← Nat.add_assoc]
      exact ih hApart.tail hSkip
    cases skip with
    | succ skip => exact hLater (Nat.le_of_succ_le_succ hSkip)
    | zero =>
      rw [List.cons_append, matchesFrom]
      cases hFound : recognize previous (c :: (before ++ here)) with
      | none => exact hLater (Nat.zero_le _)
      | some found =>
        have hEnd :=
          hApart [] (c :: before) rfl (List.cons_ne_nil _ _) previous found.1 found.2 hFound
        have hLeft : (before ++ here).length - found.2.length ≤ before.length := by
          rw [List.length_append]
          omega
        exact List.mem_cons_of_mem _ (hLater hLeft)

end

end PhoenixLens.Text
