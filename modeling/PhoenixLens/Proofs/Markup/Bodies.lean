import PhoenixLens.Markup.Mask
import PhoenixLens.Proofs.Markup.ByteMask

/-!
# Bodies of templates

In a source file a template stands between two offsets: behind the delimiter that opens it, before
the next such delimiter or the end of the text. The text of the template has the bytes of the file
there, and white space elsewhere.
-/

namespace PhoenixLens.Markup

open ByteMask (blankByte)
open ByteScanner (charOf from? from?_eq toBytes_append toBytes_cons length_toBytes)
open Text (RestAt byteLength toBytes)

variable {text cs rest delimiter : List Char} {pos start stop : Nat}

/-! ### Bodies -/

/-- The quotes around a template. -/
def delimiters : List (List Char) := [['"', '"', '"'], ['\'', '\'', '\'']]

/-- The text goes on to `stop` without that delimiter, which stands there unless the text ends. -/
def ReachesTo (delimiter rest : List Char) (stop : Nat) : Prop :=
  ∃ body after, rest = body ++ after ∧ byteLength body = stop ∧
    (after = [] ∨ delimiter <+: after) ∧
    ∀ front later, rest = front ++ (delimiter ++ later) → body.length ≤ front.length

/-- The body of a template stands between two offsets. -/
def IsBody (text : List Char) (start stop : Nat) : Prop :=
  ∃ before delimiter rest, delimiter ∈ delimiters ∧
    text = before ++ ("~H".toList ++ (delimiter ++ rest)) ∧ byteLength before + 5 = start ∧
    ∃ length, ReachesTo delimiter rest length ∧ start + length = stop

theorem getD_offsetOf?_iff (hNe : delimiter ≠ []) :
    (Text.offsetOf? delimiter pos rest).getD (pos + byteLength rest) = stop ↔
      ∃ length, ReachesTo delimiter rest length ∧ pos + length = stop := by
  rw [Text.offsetOf?]
  cases hCut : Text.cutAt? delimiter rest with
  | none =>
    have hNowhere : ∀ front later, rest ≠ front ++ (delimiter ++ later) := by
      rintro front later rfl
      exact Text.cutAt?_append_ne_none _ _ _ hCut
    constructor
    · rintro rfl
      exact ⟨_, ⟨rest, [], (List.append_nil rest).symm, rfl, .inl rfl,
        fun front later hRest => absurd hRest (hNowhere front later)⟩, rfl⟩
    · rintro ⟨_, ⟨body, after, rfl, rfl, hAfter, -⟩, rfl⟩
      rcases hAfter with rfl | ⟨later, rfl⟩
      · rw [List.append_nil]
        rfl
      · exact absurd rfl (hNowhere body later)
  | some found =>
    obtain ⟨before, behind⟩ := found
    have hWhole := Text.append_of_cutAt? hCut
    rw [List.append_assoc] at hWhole
    have hFirst : ∀ front later, rest = front ++ (delimiter ++ later) →
        before.length ≤ front.length := by
      rintro front later rfl
      exact Text.length_le_of_cutAt? hCut
    constructor
    · rintro rfl
      exact ⟨_, ⟨before, delimiter ++ behind, hWhole.symm, rfl, .inr ⟨behind, rfl⟩, hFirst⟩, rfl⟩
    · rintro ⟨_, ⟨body, after, hBody, rfl, hAfter, hLeast⟩, rfl⟩
      -- Both cuts are the first one, so they have the same length.
      have hLe := hLeast before behind hWhole.symm
      rcases hAfter with rfl | ⟨later, rfl⟩
      · rw [List.append_nil] at hBody
        rw [← hBody, ← hWhole, List.length_append, List.length_append] at hLe
        have hPos := List.length_pos_iff.mpr hNe
        omega
      · have hLength := Nat.le_antisymm (hFirst body later hBody) hLe
        have hParts := hWhole.trans hBody
        rw [(List.append_inj hParts hLength).1]
        rfl

theorem sigilDelimiter?_eq_some_iff :
    sigilDelimiter? cs = some delimiter ↔
      delimiter ∈ delimiters ∧ ∃ rest, cs = "~H".toList ++ (delimiter ++ rest) := by
  rw [sigilDelimiter?, Option.bind_eq_some_iff]
  constructor
  · rintro ⟨later, hStart, hFound⟩
    have hHere := List.find?_some hFound
    obtain ⟨rest, rfl⟩ := List.isPrefixOf_iff_prefix.mp hHere
    exact ⟨List.mem_of_find?_eq_some hFound, rest,
      (List.isPrefixOf?_eq_some_iff_append_eq.mp hStart).symm⟩
  · rintro ⟨hMem, rest, rfl⟩
    refine ⟨_, Text.stripPrefix?_append "~H" _, ?_⟩
    rcases List.mem_cons.mp hMem with rfl | hLater
    · rfl
    · rw [List.mem_singleton.mp hLater]
      rfl

theorem length_of_mem_delimiters (h : delimiter ∈ delimiters) : delimiter.length = 3 := by
  revert delimiter
  decide

theorem byteLength_of_mem_delimiters (h : delimiter ∈ delimiters) : byteLength delimiter = 3 := by
  revert delimiter
  decide

theorem drop_sigil (h : delimiter ∈ delimiters) (rest : List Char) :
    ("~H".toList ++ (delimiter ++ rest)).drop 5 = rest := by
  have hLength : ("~H".toList ++ delimiter).length = 5 := by
    rw [List.length_append, length_of_mem_delimiters h]
    rfl
  rw [← List.append_assoc, ← hLength, List.drop_left]

/-- The span that is found for a delimiter that opens a template at `pos`. -/
def bodySpan (pos : Nat) (delimiter cs : List Char) : Span :=
  let body := cs.drop 5
  (pos + 5, (Text.offsetOf? delimiter (pos + 5) body).getD (pos + 5 + byteLength body))

theorem bodySpan_sigil (h : delimiter ∈ delimiters) (pos : Nat) (rest : List Char) :
    bodySpan pos delimiter ("~H".toList ++ (delimiter ++ rest)) =
      (pos + 5, (Text.offsetOf? delimiter (pos + 5) rest).getD (pos + 5 + byteLength rest)) := by
  rw [bodySpan, drop_sigil h]

theorem bodySpan_eq_iff (h : delimiter ∈ delimiters) :
    bodySpan pos delimiter ("~H".toList ++ (delimiter ++ rest)) = (start, stop) ↔
      pos + 5 = start ∧ ∃ length, ReachesTo delimiter rest length ∧ start + length = stop := by
  have hNe : delimiter ≠ [] := by
    rintro rfl
    exact absurd h (by decide)
  rw [bodySpan_sigil h, Prod.mk.injEq, getD_offsetOf?_iff hNe]
  constructor
  · rintro ⟨rfl, hStop⟩
    exact ⟨rfl, hStop⟩
  · rintro ⟨rfl, hStop⟩
    exact ⟨rfl, hStop⟩

theorem mem_sigilSpans_go : (start, stop) ∈ sigilSpans pos cs ↔
    ∃ before here, cs = before ++ here ∧ ∃ delimiter ∈ sigilDelimiter? here,
      bodySpan (pos + byteLength before) delimiter here = (start, stop) := by
  induction cs generalizing pos with
  | nil =>
    constructor
    · nofun
    · rintro ⟨before, here, hText, delimiter, hHere, -⟩
      rw [(List.append_eq_nil_iff.mp hText.symm).2] at hHere
      cases hHere
  | cons c cs ih =>
    rw [sigilSpans, List.mem_append, ih, Option.mem_toList, Option.map_eq_some_iff]
    constructor
    · rintro (⟨delimiter, hHere, hSpan⟩ | ⟨before, here, rfl, hFound⟩)
      · exact ⟨[], c :: cs, rfl, delimiter, hHere, hSpan⟩
      · refine ⟨c :: before, here, rfl, ?_⟩
        rw [Text.byteLength_cons, ← Nat.add_assoc]
        exact hFound
    · rintro ⟨before, here, hText, hFound⟩
      cases before with
      | nil =>
        rw [List.nil_append] at hText
        subst hText
        exact .inl hFound
      | cons d before =>
        obtain ⟨rfl, rfl⟩ := List.cons.inj hText
        rw [Text.byteLength_cons, ← Nat.add_assoc] at hFound
        exact .inr ⟨before, here, rfl, hFound⟩

/-- The spans that are found are the bodies. -/
theorem mem_sigilSpans : (start, stop) ∈ sigilSpans 0 text ↔ IsBody text start stop := by
  rw [mem_sigilSpans_go]
  constructor
  · rintro ⟨before, here, rfl, delimiter, hHere, hSpan⟩
    obtain ⟨hMem, rest, rfl⟩ := sigilDelimiter?_eq_some_iff.mp hHere
    rw [Nat.zero_add] at hSpan
    exact ⟨before, delimiter, rest, hMem, rfl, (bodySpan_eq_iff hMem).mp hSpan⟩
  · rintro ⟨before, delimiter, rest, hMem, rfl, hSpan⟩
    refine ⟨before, _, rfl, delimiter, sigilDelimiter?_eq_some_iff.mpr ⟨hMem, rest, rfl⟩, ?_⟩
    rw [Nat.zero_add]
    exact (bodySpan_eq_iff hMem).mpr hSpan

theorem restAt_sigil (h : delimiter ∈ delimiters) (before rest : List Char) :
    RestAt (before ++ ("~H".toList ++ (delimiter ++ rest))) (byteLength before + 5) rest := by
  have hSigil : byteLength ("~H".toList ++ delimiter) = 5 := by
    rw [Text.byteLength_append, byteLength_of_mem_delimiters h]
    rfl
  rw [← hSigil, ← List.append_assoc "~H".toList]
  exact RestAt.append ⟨before, rfl, rfl⟩

/-- A body stands between two characters. -/
theorem IsBody.cut (h : IsBody text start stop) :
    ∃ body after, RestAt text start (body ++ after) ∧ start + byteLength body = stop := by
  obtain ⟨before, delimiter, rest, hMem, rfl, rfl, _, ⟨body, after, rfl, rfl, -⟩, rfl⟩ := h
  exact ⟨body, after, restAt_sigil hMem before _, rfl⟩

theorem IsBody.restAt (h : IsBody text start stop) :
    (∃ rest, RestAt text start rest) ∧ ∃ rest, RestAt text stop rest := by
  obtain ⟨body, after, hBody, rfl⟩ := h.cut
  exact ⟨⟨_, hBody⟩, _, hBody.append⟩

theorem IsBody.le (h : IsBody text start stop) : start ≤ stop ∧ stop ≤ byteLength text := by
  obtain ⟨body, after, hBody, rfl⟩ := h.cut
  exact ⟨Nat.le_add_right _ _, hBody.append.le⟩

/-! ### Bytes inside and outside -/

/-- A byte is kept inside of the spans and blanked outside. -/
def keptByte (spans : List Span) (i : Nat) (byte : UInt8) : UInt8 :=
  if (spanAt? spans i).isSome then byte else blankByte byte

theorem keptByte_of_isSome {spans : List Span} {i : Nat} (h : (spanAt? spans i).isSome = true) :
    keptByte spans i = id := by
  funext byte
  rw [keptByte, if_pos h, id]

theorem keptByte_of_not_isSome {spans : List Span} {i : Nat}
    (h : ¬(spanAt? spans i).isSome = true) : keptByte spans i = blankByte := by
  funext byte
  rw [keptByte, if_neg h]

theorem isSome_spanAt?_iff {spans : List Span} {i : Nat} :
    (spanAt? spans i).isSome = true ↔ ∃ span ∈ spans, span.1 ≤ i ∧ i < span.2 := by
  rw [spanAt?, List.find?_isSome]
  simp only [Bool.and_eq_true, decide_eq_true_eq]

/-- Spans that lie between characters contain all bytes of a character or none. -/
theorem isSome_spanAt?_inside {c : Char} {spans : List Span} {i : Nat}
    (hSpans : ∀ span ∈ spans, (∃ rest, RestAt text span.1 rest) ∧ ∃ rest, RestAt text span.2 rest)
    (h : RestAt text pos (c :: cs)) (hInside : i < c.utf8Size) :
    (spanAt? spans (pos + i)).isSome = (spanAt? spans pos).isSome := by
  rw [Bool.eq_iff_iff, isSome_spanAt?_iff, isSome_spanAt?_iff]
  constructor
  · rintro ⟨span, hMem, hFirst, hLast⟩
    obtain ⟨⟨rest, hRest⟩, -⟩ := hSpans span hMem
    refine ⟨span, hMem, ?_, by omega⟩
    by_contra hBehind
    have hNext := h.next_le hRest (Nat.lt_of_not_le hBehind)
    omega
  · rintro ⟨span, hMem, hFirst, hLast⟩
    obtain ⟨-, rest, hRest⟩ := hSpans span hMem
    have hNext := h.next_le hRest hLast
    exact ⟨span, hMem, by omega, by omega⟩

theorem getElem?_keepSpans {spans : List Span}
    (hSpans : ∀ span ∈ spans, (∃ rest, RestAt text span.1 rest) ∧ ∃ rest, RestAt text span.2 rest)
    (h : RestAt text pos cs) (i : Nat) :
    (toBytes (keepSpans spans pos cs))[i]? = (toBytes cs)[i]?.map (keptByte spans (pos + i)) := by
  induction cs generalizing pos i with
  | nil => rfl
  | cons c cs ih =>
    have hOwn : toBytes (if (spanAt? spans pos).isSome then [c] else blank [c]) =
        (String.utf8EncodeChar c).map (keptByte spans pos) := by
      have hBytes : toBytes [c] = String.utf8EncodeChar c := List.append_nil _
      split
      · rename_i hKept
        rw [hBytes, keptByte_of_isSome hKept, List.map_id]
      · rename_i hBlanked
        rw [ByteMask.toBytes_blank, hBytes, keptByte_of_not_isSome hBlanked]
    rw [keepSpans, toBytes_append, hOwn, toBytes_cons]
    by_cases hInside : i < (String.utf8EncodeChar c).length
    · have hBytes : i < ((String.utf8EncodeChar c).map (keptByte spans pos)).length := by
        rw [List.length_map]
        exact hInside
      rw [List.getElem?_append_left hBytes, List.getElem?_append_left hInside, List.getElem?_map]
      rw [String.length_utf8EncodeChar] at hInside
      have hSame : keptByte spans (pos + i) = keptByte spans pos := by
        funext byte
        rw [keptByte, isSome_spanAt?_inside hSpans h hInside]
        rfl
      rw [hSame]
    · have hBytes : ((String.utf8EncodeChar c).map (keptByte spans pos)).length ≤ i := by
        rw [List.length_map]
        exact Nat.le_of_not_lt hInside
      rw [List.getElem?_append_right hBytes, List.getElem?_append_right (Nat.le_of_not_lt hInside),
        List.length_map, ih h.tail, String.length_utf8EncodeChar]
      rw [String.length_utf8EncodeChar] at hInside
      rw [Nat.add_assoc, Nat.add_sub_cancel' (Nat.le_of_not_lt hInside)]

end PhoenixLens.Markup
