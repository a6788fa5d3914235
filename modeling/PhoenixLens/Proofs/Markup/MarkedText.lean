import PhoenixLens.Proofs.Markup.Names

/-!
# Texts with regions

A text of which some characters stand inside of regions, and what becomes of it if there are spaces
in their place.
-/

namespace PhoenixLens.Markup

/-- A text of which each character is marked if it stands inside of a region. -/
abbrev MarkedText := List (Char × Bool)

namespace MarkedText

def outside (text : List Char) : MarkedText := text.map (·, false)

def inside (text : List Char) : MarkedText := text.map (·, true)

def chars (marked : MarkedText) : List Char := marked.map (·.1)

/-- The text with spaces in place of what stands inside of regions, one for each byte. -/
def blanked : MarkedText → List Char
  | [] => []
  | (c, true) :: more => List.replicate c.utf8Size ' ' ++ blanked more
  | (c, false) :: more => c :: blanked more

/-- A character begins at the offset that stands inside of a region, or outside of all. -/
def MarksAt (marked : MarkedText) (offset : Nat) (isInside : Bool) : Prop :=
  ∃ (before : MarkedText) (c : Char) (after : MarkedText),
    marked = before ++ (c, isInside) :: after ∧ Text.byteLength before.chars = offset

@[simp]
theorem chars_append (marked more : MarkedText) :
    (marked ++ more).chars = marked.chars ++ more.chars :=
  List.map_append

theorem chars_cons (c : Char) (isInside : Bool) (marked : MarkedText) :
    chars ((c, isInside) :: marked) = c :: marked.chars := rfl

@[simp]
theorem chars_outside (text : List Char) : (outside text).chars = text := by
  rw [outside, chars, List.map_map]
  exact List.map_id text

@[simp]
theorem chars_inside (text : List Char) : (inside text).chars = text := by
  rw [inside, chars, List.map_map]
  exact List.map_id text

@[simp]
theorem blanked_append (marked more : MarkedText) :
    (marked ++ more).blanked = marked.blanked ++ more.blanked := by
  induction marked with
  | nil => rfl
  | cons first marked ih =>
    obtain ⟨c, isInside⟩ := first
    cases isInside with
    | false => exact congrArg (c :: ·) ih
    | true =>
      rw [List.cons_append, blanked, ih, blanked, List.append_assoc]

@[simp]
theorem blanked_outside (text : List Char) : (outside text).blanked = text := by
  induction text with
  | nil => rfl
  | cons c text ih => exact congrArg (c :: ·) ih

theorem byteLength_spaces (n : Nat) : Text.byteLength (List.replicate n ' ') = n := by
  induction n with
  | zero => rfl
  | succ n ih =>
    have hSize : (' ' : Char).utf8Size = 1 := rfl
    rw [List.replicate_succ, Text.byteLength_cons, ih, hSize, Nat.add_comm]

theorem byteLength_blanked (marked : MarkedText) :
    Text.byteLength marked.blanked = Text.byteLength marked.chars := by
  induction marked with
  | nil => rfl
  | cons first marked ih =>
    obtain ⟨c, isInside⟩ := first
    rw [chars_cons, Text.byteLength_cons]
    cases isInside with
    | false => rw [blanked, Text.byteLength_cons, ih]
    | true => rw [blanked, Text.byteLength_append, byteLength_spaces, ih]

@[simp]
theorem blanked_inside (text : List Char) :
    (inside text).blanked = List.replicate (Text.byteLength text) ' ' := by
  induction text with
  | nil => rfl
  | cons c text ih =>
    rw [Text.byteLength_cons, ← List.replicate_append_replicate, ← ih]
    rfl

/-- The first character stays, or it becomes a space. -/
theorem head?_blanked {marked : MarkedText} {d : Char} (h : d ∈ marked.blanked.head?) :
    d ∈ marked.chars.head? ∨ d = ' ' := by
  cases marked with
  | nil => cases h
  | cons first marked =>
    obtain ⟨c, isInside⟩ := first
    cases isInside with
    | false => exact .inl h
    | true =>
      obtain ⟨n, hn⟩ : ∃ n, c.utf8Size = n + 1 :=
        Nat.exists_eq_succ_of_ne_zero (Nat.ne_of_gt c.utf8Size_pos)
      rw [blanked, hn] at h
      cases h
      exact .inr rfl

/-- Spaces begin no tag. -/
theorem hasNoTag_blanked {marked : MarkedText} (h : HasNoTag marked.chars) :
    HasNoTag marked.blanked := by
  induction marked with
  | nil => exact .nil
  | cons first marked ih =>
    obtain ⟨c, isInside⟩ := first
    have hRest := ih h.tail
    cases isInside with
    | true =>
      have hSpaces : IsTagless (List.replicate c.utf8Size ' ') :=
        .of_not_mem fun hMem => absurd (List.eq_of_mem_replicate hMem) (by decide)
      refine List.isChain_append.mpr ⟨hSpaces.hasNoTag, hRest, ?_⟩
      rintro d hd e _ rfl
      exact absurd hd hSpaces.last
    | false =>
      refine List.isChain_cons.mpr ⟨?_, hRest⟩
      intro d hd hAngle
      obtain hSame | rfl := head?_blanked hd
      · exact (List.isChain_cons.mp h).1 d hSame hAngle
      · decide

theorem eq_nil_of_byteLength {marked : MarkedText} (h : Text.byteLength marked.chars = 0) :
    marked = [] := by
  cases marked with
  | nil => rfl
  | cons first marked =>
    have hSize := first.1.utf8Size_pos
    rw [chars_cons, Text.byteLength_cons] at h
    omega

/-- At one offset begins one character. -/
theorem cut_unique {before other after rest : MarkedText} {first second : Char × Bool}
    (hSame : before ++ first :: after = other ++ second :: rest)
    (hOffset : Text.byteLength before.chars = Text.byteLength other.chars) : first = second := by
  obtain ⟨more, hOther, hRest⟩ | ⟨more, hBefore, hRest⟩ := List.append_eq_append_iff.mp hSame
  · rw [hOther, chars_append, Text.byteLength_append] at hOffset
    have hNil : more = [] := eq_nil_of_byteLength (by omega)
    rw [hNil, List.nil_append] at hRest
    exact (List.cons.inj hRest).1
  · rw [hBefore, chars_append, Text.byteLength_append] at hOffset
    have hNil : more = [] := eq_nil_of_byteLength (by omega)
    rw [hNil, List.nil_append] at hRest
    exact (List.cons.inj hRest).1.symm

theorem MarksAt.not_inside {marked : MarkedText} {offset : Nat}
    (hOutside : marked.MarksAt offset false) : ¬marked.MarksAt offset true := by
  rintro ⟨before, c, after, hMarked, hOffset⟩
  obtain ⟨other, d, rest, hOther, hSame⟩ := hOutside
  cases cut_unique (hMarked.symm.trans hOther) (hOffset.trans hSame.symm)

end MarkedText

/-- A piece of a marked text with its offset. -/
def MarkedText.StandsAt (marked piece : MarkedText) (pos : Nat) : Prop :=
  ∃ before after : MarkedText, marked = before ++ (piece ++ after) ∧
    Text.byteLength before.chars = pos

namespace MarkedText.StandsAt

variable {marked piece more : MarkedText} {pos : Nat}

theorem left (h : marked.StandsAt (piece ++ more) pos) : marked.StandsAt piece pos := by
  obtain ⟨before, after, hMarked, hBefore⟩ := h
  exact ⟨before, more ++ after, by rw [hMarked, List.append_assoc], hBefore⟩

theorem right (h : marked.StandsAt (piece ++ more) pos) {next : Nat}
    (hNext : pos + Text.byteLength piece.chars = next) : marked.StandsAt more next := by
  obtain ⟨before, after, hMarked, hBefore⟩ := h
  refine ⟨before ++ piece, after, ?_, ?_⟩
  · rw [hMarked, List.append_assoc, List.append_assoc]
  · rw [chars_append, Text.byteLength_append, hBefore, hNext]

end MarkedText.StandsAt

end PhoenixLens.Markup
