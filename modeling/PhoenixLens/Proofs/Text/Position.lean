import Mathlib.Order.Bounds.Defs
import PhoenixLens.Proofs.Text.Rest
import PhoenixLens.Text.Position

/-!
# Positions and offsets

A position of a text is followed by the rest of a line, and its offset is the length in bytes of
what stands before it. So a position that was made from an offset leads back to the character that
the offset lies in, and positions and offsets are in the same order. A column behind the end of its
line, a column between the two units of a character and a line behind the last one all lead to a
boundary of the text.
-/

namespace PhoenixLens.Text

variable {cs before rest front more : List Char} {c : Char} {n offset : Nat}

/-- The position does not stand behind the other one. -/
def Position.Precedes (p q : Position) : Prop :=
  p.line < q.line ∨ p.line = q.line ∧ p.character ≤ q.character

/-! ### Units and bytes -/

theorem unitsOf_pos (c : Char) : 0 < unitsOf c := by
  rw [unitsOf]
  split <;> decide

theorem unitsOf_le (c : Char) : unitsOf c ≤ c.utf8Size := by
  have hSize := c.utf8Size_pos
  rw [unitsOf]
  split
  · exact hSize
  · rename_i hWide
    have hCode : 65535 < c.val.toNat := by
      have hNot : ¬c.val.toNat < 0x10000 := hWide
      omega
    rw [Char.utf8Size_eq_four_iff.mpr (UInt32.lt_iff_toNat_lt.mpr hCode)]
    decide

theorem units_le (cs : List Char) : units cs ≤ byteLength cs := by
  induction cs with
  | nil => exact Nat.le_refl 0
  | cons c cs ih =>
    have hOwn := unitsOf_le c
    rw [units, byteLength_cons]
    omega

theorem units_append (cs more : List Char) : units (cs ++ more) = units cs + units more := by
  induction cs with
  | nil => rw [List.nil_append, units, Nat.zero_add]
  | cons c cs ih => rw [List.cons_append, units, units, ih, Nat.add_assoc]

theorem length_le_byteLength (cs : List Char) : cs.length ≤ byteLength cs := by
  induction cs with
  | nil => exact Nat.le_refl 0
  | cons c cs ih =>
    have hSize := c.utf8Size_pos
    rw [List.length_cons, byteLength_cons]
    omega

/-! ### Cuts at an offset -/

theorem takeBytes_append_of_le (h : byteLength front ≤ offset) (rest : List Char) :
    takeBytes offset (front ++ rest) = front ++ takeBytes (offset - byteLength front) rest := by
  induction front generalizing offset with
  | nil => rfl
  | cons c front ih =>
    rw [byteLength_cons] at h ⊢
    rw [List.cons_append, takeBytes, if_pos (by omega), ih (by omega), Nat.sub_sub]
    rfl

theorem takeBytes_prefix (n : Nat) (cs : List Char) : takeBytes n cs <+: cs := by
  induction cs generalizing n with
  | nil => exact List.nil_prefix
  | cons c cs ih =>
    rw [takeBytes]
    split
    · exact List.cons_prefix_cons.mpr ⟨rfl, ih _⟩
    · exact List.nil_prefix

theorem takeBytes_prefix_of_le {m : Nat} (h : n ≤ m) (cs : List Char) :
    takeBytes n cs <+: takeBytes m cs := by
  obtain ⟨rest, hText⟩ := takeBytes_prefix n cs
  have hLength := byteLength_takeBytes_le n cs
  have hLater := takeBytes_append_of_le (Nat.le_trans hLength h) rest
  rw [hText] at hLater
  rw [hLater]
  exact List.prefix_append _ _

/-- Of the boundaries up to an offset, the last one is behind what is taken. -/
theorem isGreatest_floorOffset (cs : List Char) (offset : Nat) :
    IsGreatest {b | isBoundary cs b = true ∧ b ≤ min offset (byteLength cs)}
      (floorOffset cs offset) := by
  obtain ⟨rest, hText⟩ := takeBytes_prefix offset cs
  have hRest : RestAt cs (floorOffset cs offset) rest := ⟨_, hText.symm, rfl⟩
  constructor
  · exact ⟨hRest.isBoundary, Nat.le_min.mpr ⟨byteLength_takeBytes_le offset cs, hRest.le⟩⟩
  · rintro b ⟨hBoundary, hLe⟩
    obtain ⟨further, front, rfl, rfl⟩ := isBoundary_iff.mp hBoundary
    rw [floorOffset, takeBytes_append_of_le (Nat.le_trans hLe (Nat.min_le_left _ _)),
      byteLength_append]
    exact Nat.le_add_right _ _

/-! ### Last lines -/

theorem lastLine_append_of_not_mem (h : '\n' ∉ more) (cs : List Char) :
    lastLine (cs ++ more) = lastLine cs ++ more := by
  have hAll : ∀ d ∈ more.reverse, (d != '\n') = true := by
    intro d hd
    rw [bne_iff_ne]
    rintro rfl
    exact h (List.mem_reverse.mp hd)
  rw [lastLine, List.reverse_append, List.takeWhile_append_of_pos hAll, List.reverse_append,
    List.reverse_reverse, lastLine]

theorem lastLine_of_not_mem (h : '\n' ∉ cs) : lastLine cs = cs :=
  lastLine_append_of_not_mem h []

theorem lastLine_append_of_mem (h : '\n' ∈ more) (cs : List Char) :
    lastLine (cs ++ more) = lastLine more := by
  have hEnds : (more.reverse.takeWhile (· != '\n')).length ≠ more.reverse.length := by
    intro hLength
    have hWhole := List.takeWhile_prefix (l := more.reverse) (· != '\n') |>.eq_of_length hLength
    have hNot := List.all_eq_true.mp (hWhole ▸ List.all_takeWhile) '\n' (List.mem_reverse.mpr h)
    simp at hNot
  rw [lastLine, List.reverse_append, List.takeWhile_append, if_neg hEnds, lastLine]

theorem lastLine_break (cs : List Char) : lastLine ('\n' :: cs) = lastLine cs := by
  by_cases h : '\n' ∈ cs
  · exact lastLine_append_of_mem h ['\n']
  · rw [lastLine_of_not_mem h]
    exact lastLine_append_of_not_mem h ['\n']

/-- A longer text ends at a later position. -/
theorem endPosition_append (cs more : List Char) :
    (endPosition cs).Precedes (endPosition (cs ++ more)) := by
  simp only [Position.Precedes, endPosition, List.count_append]
  by_cases h : '\n' ∈ more
  · left
    have hCount := List.count_pos_iff.mpr h
    omega
  · right
    rw [List.count_eq_zero.mpr h, lastLine_append_of_not_mem h, units_append]
    omega

/-! ### Columns -/

theorem offsetOfColumn_units (h : '\n' ∉ before) (rest : List Char) :
    offsetOfColumn (units before) (before ++ rest) = byteLength before := by
  induction before with
  | nil => cases rest <;> rfl
  | cons c before ih =>
    have hPos := unitsOf_pos c
    obtain ⟨n, hUnits⟩ : ∃ n, units (c :: before) = n + 1 :=
      Nat.exists_eq_succ_of_ne_zero (by rw [units]; omega)
    have hLeft : n + 1 - unitsOf c = units before := by
      rw [units] at hUnits
      omega
    have hBreak : ¬(c == '\n') = true := by simpa using (List.ne_of_not_mem_cons h).symm
    rw [List.cons_append, hUnits, offsetOfColumn, if_neg hBreak, hLeft,
      ih (List.not_mem_of_not_mem_cons h), byteLength_cons]

/-- A column leads to a boundary of its line. -/
theorem exists_offsetOfColumn (n : Nat) (cs : List Char) :
    ∃ before rest, cs = before ++ rest ∧ '\n' ∉ before ∧
      offsetOfColumn n cs = byteLength before := by
  induction cs generalizing n with
  | nil => exact ⟨[], [], rfl, List.not_mem_nil, by cases n <;> rfl⟩
  | cons c cs ih =>
    cases n with
    | zero => exact ⟨[], c :: cs, rfl, List.not_mem_nil, rfl⟩
    | succ n =>
      by_cases hBreak : c = '\n'
      · exact ⟨[], c :: cs, rfl, List.not_mem_nil, by rw [offsetOfColumn, if_pos (by simpa)]; rfl⟩
      · obtain ⟨before, rest, rfl, hLine, hOffset⟩ := ih (n + 1 - unitsOf c)
        refine ⟨c :: before, rest, rfl, ?_, ?_⟩
        · rw [List.mem_cons, not_or]
          exact ⟨Ne.symm hBreak, hLine⟩
        · rw [offsetOfColumn, if_neg (by simpa using hBreak), hOffset, byteLength_cons]

theorem offsetOfColumn_mono {m : Nat} (h : n ≤ m) (cs : List Char) :
    offsetOfColumn n cs ≤ offsetOfColumn m cs := by
  induction cs generalizing n m with
  | nil => cases n <;> exact Nat.zero_le _
  | cons c cs ih =>
    cases n with
    | zero => exact Nat.zero_le _
    | succ n =>
      obtain ⟨k, rfl⟩ : ∃ k, m = k + 1 := Nat.exists_eq_succ_of_ne_zero (by omega)
      rw [offsetOfColumn, offsetOfColumn]
      split
      · exact Nat.le_refl 0
      · apply Nat.add_le_add_left
        apply ih
        omega

/-! ### Lines -/

theorem offset_go_endPosition (before rest : List Char) (line : Nat) :
    offsetOfPosition.go ⟨line, units (lastLine before)⟩ (before.count '\n') (before ++ rest) =
      byteLength before := by
  induction before with
  | nil => cases rest <;> rfl
  | cons c before ih =>
    -- Before its last line feed the text is passed over line by line, then column by column.
    by_cases hLast : '\n' ∈ before
    · obtain ⟨n, hCount⟩ : ∃ n, (c :: before).count '\n' = n + 1 :=
        Nat.exists_eq_succ_of_ne_zero
          (Nat.ne_of_gt (List.count_pos_iff.mpr (List.mem_cons_of_mem _ hLast)))
      have hLine : lastLine (c :: before) = lastLine before := lastLine_append_of_mem hLast [c]
      have hNext : (if c == '\n' then n else n + 1) = before.count '\n' := by
        rw [List.count_cons] at hCount
        split at hCount <;> simp_all
      rw [hCount, hLine, List.cons_append, offsetOfPosition.go, hNext, ih, byteLength_cons]
    · by_cases hBreak : c = '\n'
      · subst hBreak
        rw [lastLine_break, List.count_cons_self, List.cons_append, offsetOfPosition.go,
          if_pos BEq.rfl, ih, byteLength_cons]
      · have hLine : '\n' ∉ c :: before := by
          rw [List.mem_cons, not_or]
          exact ⟨Ne.symm hBreak, hLast⟩
        rw [List.count_eq_zero.mpr hLine, lastLine_of_not_mem hLine, offsetOfPosition.go]
        exact offsetOfColumn_units hLine rest

/-- The position behind a beginning of a text leads back there. -/
theorem offsetOfPosition_endPosition (before rest : List Char) :
    offsetOfPosition (before ++ rest) (endPosition before) = byteLength before :=
  offset_go_endPosition before rest _

/-- What stands before a position: as many lines as it says, unless the text has fewer. -/
structure IsBefore (line : Nat) (before rest : List Char) : Prop where
  count_le : before.count '\n' ≤ line
  lines : before.count '\n' = line ∨ rest = []

theorem exists_offset_go (p : Position) (line : Nat) (cs : List Char) :
    ∃ before rest, cs = before ++ rest ∧ IsBefore line before rest ∧
      offsetOfPosition.go p line cs = byteLength before := by
  induction cs generalizing line with
  | nil =>
    refine ⟨[], [], rfl, ⟨Nat.zero_le _, .inr rfl⟩, ?_⟩
    cases line with
    | zero => rw [offsetOfPosition.go]; cases p.character <;> rfl
    | succ line => rfl
  | cons c cs ih =>
    cases line with
    | zero =>
      obtain ⟨before, rest, hText, hLine, hOffset⟩ := exists_offsetOfColumn p.character (c :: cs)
      have hCount := List.count_eq_zero.mpr hLine
      exact ⟨before, rest, hText, ⟨Nat.le_of_eq hCount, .inl hCount⟩, hOffset⟩
    | succ line =>
      obtain ⟨before, rest, rfl, hBefore, hOffset⟩ := ih (if c == '\n' then line else line + 1)
      refine ⟨c :: before, rest, rfl, ?_, by rw [offsetOfPosition.go, hOffset, byteLength_cons]⟩
      obtain ⟨hLe, hLines⟩ := hBefore
      constructor
      · rw [List.count_cons]
        split at hLe <;> simp_all
      · rw [List.count_cons]
        split at hLines <;> simp_all

theorem exists_offsetOfPosition (cs : List Char) (p : Position) :
    ∃ before rest, cs = before ++ rest ∧ IsBefore p.line before rest ∧
      offsetOfPosition cs p = byteLength before :=
  exists_offset_go p p.line cs

/-- A text that stands before a position does not reach over the line feed of its line. -/
theorem IsBefore.le {line : Nat} {other further : List Char} (h : IsBefore line before rest)
    (hText : before ++ rest = other ++ further)
    (hEnd : line < (other ++ further.take 1).count '\n' ∨ further = []) :
    byteLength before ≤ byteLength other := by
  rcases List.append_eq_append_iff.mp hText with ⟨middle, rfl, -⟩ | ⟨middle, rfl, rfl⟩
  · rw [byteLength_append]
    exact Nat.le_add_right _ _
  · cases middle with
    | nil => exact Nat.le_of_eq (congrArg byteLength (List.append_nil other))
    | cons c middle =>
      rcases hEnd with hCount | hNone
      · have hLe := h.count_le
        simp only [List.count_append, List.cons_append, List.take_succ_cons, List.take_zero,
          List.count_cons, List.count_nil] at hLe hCount
        omega
      · cases hNone

theorem offset_go_mono {p q : Position} (h : p.character ≤ q.character) (line : Nat)
    (cs : List Char) : offsetOfPosition.go p line cs ≤ offsetOfPosition.go q line cs := by
  induction cs generalizing line with
  | nil =>
    cases line with
    | zero => exact offsetOfColumn_mono h []
    | succ line => exact Nat.le_refl 0
  | cons c cs ih =>
    cases line with
    | zero => exact offsetOfColumn_mono h (c :: cs)
    | succ line => exact Nat.add_le_add_left (ih _) _

theorem offsetOfPosition_mono {p q : Position} (h : p.Precedes q) (cs : List Char) :
    offsetOfPosition cs p ≤ offsetOfPosition cs q := by
  rcases h with hLine | ⟨hLine, hColumn⟩
  · obtain ⟨before, rest, hText, hBefore, hOffset⟩ := exists_offsetOfPosition cs p
    obtain ⟨other, further, hOther, hLater, hEnd⟩ := exists_offsetOfPosition cs q
    rw [hOffset, hEnd]
    apply hBefore.le (hText.symm.trans hOther)
    rcases hLater.lines with hCount | hNone
    · left
      rw [List.count_append]
      omega
    · exact .inr hNone
  · rw [offsetOfPosition, offsetOfPosition, hLine]
    exact offset_go_mono hColumn q.line cs

theorem positionOfOffset_mono {stop : Nat} (h : offset ≤ stop) (cs : List Char) :
    (positionOfOffset cs offset).Precedes (positionOfOffset cs stop) := by
  obtain ⟨more, hMore⟩ := takeBytes_prefix_of_le h cs
  rw [positionOfOffset, positionOfOffset, ← hMore]
  exact endPosition_append _ _

theorem offsetOfPosition_positionOfOffset (cs : List Char) (offset : Nat) :
    offsetOfPosition cs (positionOfOffset cs offset) = floorOffset cs offset := by
  obtain ⟨rest, hText⟩ := takeBytes_prefix offset cs
  have hBack := offsetOfPosition_endPosition (takeBytes offset cs) rest
  rwa [hText] at hBack

/-- Lines and columns are no greater than the text, so they fit the words that its offsets fit. -/
theorem positionOfOffset_le (cs : List Char) (offset : Nat) :
    (positionOfOffset cs offset).line ≤ byteLength cs ∧
      (positionOfOffset cs offset).character ≤ byteLength cs := by
  have hTaken : byteLength (takeBytes offset cs) ≤ byteLength cs := by
    obtain ⟨rest, hText⟩ := takeBytes_prefix offset cs
    have hLength := congrArg byteLength hText
    rw [byteLength_append] at hLength
    omega
  constructor
  · apply Nat.le_trans List.count_le_length
    exact Nat.le_trans (length_le_byteLength _) hTaken
  · apply Nat.le_trans _ hTaken
    simp only [positionOfOffset, endPosition]
    generalize takeBytes offset cs = taken
    have hSplit := congrArg List.reverse
      (List.takeWhile_append_dropWhile (p := (· != '\n')) (l := taken.reverse))
    rw [List.reverse_append, List.reverse_reverse] at hSplit
    have hLength := congrArg byteLength hSplit
    rw [byteLength_append] at hLength
    have hUnits := units_le (lastLine taken)
    rw [lastLine] at hUnits ⊢
    omega

/-! ### Both ways -/

/-- **Offsets and positions lead to each other.** A position that is made from an offset leads back
to the last boundary up to the offset. Whatever a position says, it leads to a boundary of the text
that does not stand behind the line feed of its line. Both ways keep the order, so the text between
two positions can be cut out, and a range of offsets is a range of positions. -/
theorem offsets_and_positions (cs : List Char) :
    (∀ offset, IsGreatest {b | isBoundary cs b = true ∧ b ≤ min offset (byteLength cs)}
        (offsetOfPosition cs (positionOfOffset cs offset)) ∧
      (positionOfOffset cs offset).line ≤ byteLength cs ∧
      (positionOfOffset cs offset).character ≤ byteLength cs) ∧
    (∀ p, isBoundary cs (offsetOfPosition cs p) = true ∧ offsetOfPosition cs p ≤ byteLength cs ∧
      ∀ before rest, cs = before ++ '\n' :: rest → before.count '\n' = p.line →
        offsetOfPosition cs p ≤ byteLength before) ∧
    (∀ p q, p.Precedes q → offsetOfPosition cs p ≤ offsetOfPosition cs q ∧
      ∃ piece, span? cs (offsetOfPosition cs p) (offsetOfPosition cs q) = some piece) ∧
    ∀ start stop, start ≤ stop →
      (positionOfOffset cs start).Precedes (positionOfOffset cs stop) ∧
      (rangeOfOffsets cs start stop).start.Precedes (rangeOfOffsets cs start stop).stop := by
  have hRest (p : Position) : ∃ rest, RestAt cs (offsetOfPosition cs p) rest := by
    obtain ⟨before, rest, hText, -, hOffset⟩ := exists_offsetOfPosition cs p
    exact ⟨rest, before, hText, hOffset.symm⟩
  refine ⟨?_, ?_, ?_, ?_⟩
  · intro offset
    rw [offsetOfPosition_positionOfOffset]
    exact ⟨isGreatest_floorOffset cs offset, positionOfOffset_le cs offset⟩
  · intro p
    obtain ⟨rest, hStands⟩ := hRest p
    refine ⟨hStands.isBoundary, hStands.le, ?_⟩
    intro line further hLine hCount
    obtain ⟨before, rest, hText, hBefore, hOffset⟩ := exists_offsetOfPosition cs p
    rw [hOffset]
    apply hBefore.le (hText.symm.trans hLine)
    left
    rw [List.count_append, hCount]
    exact Nat.lt_succ_self _
  · intro p q hOrder
    obtain ⟨rest, hStart⟩ := hRest p
    obtain ⟨further, hStop⟩ := hRest q
    have hLe := offsetOfPosition_mono hOrder cs
    exact ⟨hLe, _, hStart.span?_eq hStop hLe⟩
  · intro start stop hLe
    exact ⟨positionOfOffset_mono hLe cs, positionOfOffset_mono hLe cs⟩

/-- An offset and a column within a character of two units, and a column behind a line that ends
in a carriage return. -/
theorem offsets_and_positions_wide :
    let cs := "a\r\n😀b".toList
    (IsGreatest {b | isBoundary cs b = true ∧ b ≤ min 5 (byteLength cs)}
      (offsetOfPosition cs (positionOfOffset cs 5)) ∧ offsetOfPosition cs ⟨1, 0⟩ = 3) ∧
    (offsetOfPosition cs ⟨0, 9⟩ ≤ byteLength ['a', '\r'] ∧ offsetOfPosition cs ⟨0, 9⟩ = 2) ∧
    ((⟨1, 1⟩ : Position).Precedes ⟨7, 0⟩ ∧
      ∃ piece, span? cs (offsetOfPosition cs ⟨1, 1⟩) (offsetOfPosition cs ⟨7, 0⟩) = some piece) ∧
    (positionOfOffset cs 5).Precedes (positionOfOffset cs 7) := by
  intro cs
  obtain ⟨hBack, hBounds, hOrder, hRanges⟩ := offsets_and_positions cs
  have hPrecedes : (⟨1, 1⟩ : Position).Precedes ⟨7, 0⟩ := .inl (by decide)
  refine ⟨⟨(hBack 5).1, by decide⟩, ⟨?_, by decide⟩, ⟨hPrecedes, (hOrder _ _ hPrecedes).2⟩,
    (hRanges 5 7 (by decide)).1⟩
  exact (hBounds ⟨0, 9⟩).2.2 ['a', '\r'] "😀b".toList rfl rfl

end PhoenixLens.Text
