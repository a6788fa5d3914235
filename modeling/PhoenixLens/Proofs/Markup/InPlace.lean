import PhoenixLens.Proofs.Markup.Bodies
import PhoenixLens.Proofs.Markup.ByteReading

/-!
# Templates in place

A second account of the template that a file holds, in terms of the UTF-8 form of its text. A file
of source is blanked byte by byte, and the body of each template that is found is copied from the
file; `none` says that a copy goes behind the end, or that the text is cut where no character ends.
Bodies lie between characters, so the bytes are those of a text.

The mask of a template and the template of a file are rewritten texts: an offset in one of them is
an offset in the file. What stands between two offsets in a body is what stands there in the file,
so the uses that are found in the template of a file lie in the file.
-/

namespace PhoenixLens.Markup.ByteTemplate

open ByteMask (blankByte)
open ByteScanner (from? from?_eq length_toBytes)
open Text (RestAt byteLength toBytes)

/-- Copies the bytes between two offsets from the source. -/
def copy (source out : List UInt8) (start stop : Nat) : Option (List UInt8) :=
  if start ≤ stop ∧ stop ≤ out.length ∧ stop ≤ source.length then
    some (out.take start ++ ((source.take stop).drop start ++ out.drop stop))
  else none

/-- Reads what opens a template. -/
def readSigil : Text.Recognizer (List Char) := fun _ cs =>
  (sigilDelimiter? cs).map fun delimiter => (delimiter, cs.drop 5)

/-- Copies the body of a template, given where the template begins and its delimiter. -/
def copyBody (text : List Char) (out : List UInt8) (found : Nat × List Char) :
    Option (List UInt8) :=
  (from? text (found.1 + 5)).bind fun body =>
    let stop := (Text.offsetOf? found.2 (found.1 + 5) body).getD (byteLength text)
    copy (toBytes text) out (found.1 + 5) stop

/-- The bytes of the template that a file holds. -/
def templateText (path : Path) (text : List Char) : Option (List UInt8) :=
  if path.isTemplate then some (toBytes text)
  else (Text.matchesWithOffsets readSigil text).foldlM (copyBody text)
    ((toBytes text).map blankByte)

variable {text before here delimiter : List Char} {spans more : List Span} {start stop : Nat}

/-! ### Copies -/

/-- The bytes inside of the spans, in place. -/
def keepBytes (spans : List Span) (source : List UInt8) : List UInt8 :=
  source.mapIdx (keptByte spans)

theorem keepBytes_nil (source : List UInt8) : keepBytes [] source = source.map blankByte := by
  apply List.ext_getElem?
  intro i
  rw [keepBytes, List.getElem?_mapIdx, List.getElem?_map]
  rfl

theorem keptByte_concat (i : Nat) (byte : UInt8) :
    keptByte (spans ++ [(start, stop)]) i byte =
      if start ≤ i ∧ i < stop then byte else keptByte spans i byte := by
  have hSpan : (spanAt? (spans ++ [(start, stop)]) i).isSome = true ↔
      (spanAt? spans i).isSome = true ∨ start ≤ i ∧ i < stop := by
    simp only [isSome_spanAt?_iff, List.mem_append, List.mem_singleton, or_and_right, exists_or,
      exists_eq_left]
  rw [keptByte, keptByte]
  by_cases hInside : start ≤ i ∧ i < stop
  · rw [if_pos (hSpan.mpr (.inr hInside)), if_pos hInside]
  · rw [if_neg hInside]
    congr 1
    rw [eq_iff_iff, hSpan, or_iff_left hInside]

theorem keepBytes_congr (h : ∀ span, span ∈ spans ↔ span ∈ more) (source : List UInt8) :
    keepBytes spans source = keepBytes more source := by
  have hSame : keptByte spans = keptByte more := by
    funext i byte
    have hSpans : (spanAt? spans i).isSome = (spanAt? more i).isSome := by
      rw [Bool.eq_iff_iff, isSome_spanAt?_iff, isSome_spanAt?_iff]
      simp only [h]
    rw [keptByte, keptByte, hSpans]
  rw [keepBytes, keepBytes, hSame]

theorem copy_keepBytes {source : List UInt8} (hOrder : start ≤ stop)
    (hLength : stop ≤ source.length) :
    copy source (keepBytes spans source) start stop =
      some (keepBytes (spans ++ [(start, stop)]) source) := by
  have hOut : (keepBytes spans source).length = source.length := List.length_mapIdx
  rw [copy, if_pos ⟨hOrder, by omega, hLength⟩]
  congr 1
  apply List.ext_getElem?
  intro i
  have hTake : ((keepBytes spans source).take start).length = start := by
    rw [List.length_take]
    omega
  have hCopied : ((source.take stop).drop start).length = stop - start := by
    rw [List.length_drop, List.length_take]
    omega
  have hOld : (keepBytes spans source)[i]? = source[i]?.map (keptByte spans i) :=
    List.getElem?_mapIdx
  have hNew : (keepBytes (spans ++ [(start, stop)]) source)[i]? = source[i]?.map fun byte =>
      if start ≤ i ∧ i < stop then byte else keptByte spans i byte := by
    simp only [keepBytes, List.getElem?_mapIdx, ← keptByte_concat]
  rw [hNew]
  by_cases hFirst : i < start
  · have hOutside : ¬(start ≤ i ∧ i < stop) := by omega
    rw [List.getElem?_append_left (by omega), List.getElem?_take_of_lt hFirst, hOld]
    simp only [if_neg hOutside]
  · by_cases hLast : i < stop
    · have hInside : start ≤ i ∧ i < stop := by omega
      rw [List.getElem?_append_right (by omega), List.getElem?_append_left (by omega),
        List.getElem?_drop, hTake, Nat.add_sub_cancel' hInside.1, List.getElem?_take_of_lt hLast]
      simp only [if_pos hInside, Option.map_id_fun', id]
    · have hOutside : ¬(start ≤ i ∧ i < stop) := by omega
      have hIndex : stop + (i - start - (stop - start)) = i := by omega
      rw [List.getElem?_append_right (by omega), List.getElem?_append_right (by omega),
        List.getElem?_drop, hTake, hCopied, hIndex, hOld]
      simp only [if_neg hOutside]

theorem toBytes_keepSpans
    (hSpans : ∀ span ∈ spans, (∃ rest, RestAt text span.1 rest) ∧ ∃ rest, RestAt text span.2 rest) :
    toBytes (keepSpans spans 0 text) = keepBytes spans (toBytes text) := by
  apply List.ext_getElem?
  intro i
  rw [getElem?_keepSpans hSpans (.self text), keepBytes, List.getElem?_mapIdx, Nat.zero_add]

/-! ### Matches -/

/-- The span of the template that a match begins. -/
def matchSpan (text : List Char) (found : Nat × List Char) : Span :=
  bodySpan found.1 found.2 (Text.dropBytes found.1 text)

/-- A template with that delimiter begins at the offset. -/
def IsSigil (text : List Char) (pos : Nat) (delimiter : List Char) : Prop :=
  ∃ before here, text = before ++ here ∧ byteLength before = pos ∧
    sigilDelimiter? here = some delimiter

theorem copyBody_keepBytes {pos : Nat} (h : IsSigil text pos delimiter) :
    copyBody text (keepBytes spans (toBytes text)) (pos, delimiter) =
      some (keepBytes (spans ++ [matchSpan text (pos, delimiter)]) (toBytes text)) := by
  obtain ⟨before, here, rfl, rfl, hHere⟩ := h
  obtain ⟨hMem, rest, rfl⟩ := sigilDelimiter?_eq_some_iff.mp hHere
  have hRest := restAt_sigil hMem before rest
  have hSpan := bodySpan_sigil hMem (byteLength before) rest
  obtain ⟨hOrder, hLength⟩ :=
    IsBody.le ⟨before, delimiter, rest, hMem, rfl, (bodySpan_eq_iff hMem).mp hSpan⟩
  have hSource := length_toBytes (before ++ ("~H".toList ++ (delimiter ++ rest)))
  rw [matchSpan, Text.dropBytes_append, hSpan, copyBody, from?_eq hRest, Option.bind_some,
    ← hRest.add_byteLength]
  exact copy_keepBytes hOrder (hSource ▸ hLength)

/-- Each match copies one body. -/
theorem foldlM_copyBody {matched : List (Nat × List Char)}
    (h : ∀ found ∈ matched, IsSigil text found.1 found.2) :
    matched.foldlM (copyBody text) (keepBytes spans (toBytes text)) =
      some (keepBytes (spans ++ matched.map (matchSpan text)) (toBytes text)) := by
  induction matched generalizing spans with
  | nil => rw [List.map_nil, List.append_nil]; rfl
  | cons found matched ih =>
    obtain ⟨hOwn, hLater⟩ := List.forall_mem_cons.mp h
    obtain ⟨pos, delimiter⟩ := found
    rw [List.foldlM_cons, copyBody_keepBytes hOwn, Option.bind_eq_bind, Option.bind_some, ih hLater,
      List.append_assoc]
    rfl

/-- What opens a template does not lie in what opens another one. -/
theorem isApartFrom_readSigil (before : List Char) (hHere : sigilDelimiter? here = some delimiter) :
    Text.IsApartFrom readSigil before here := by
  intro front middle _ hMiddle previous found rest hRead
  obtain ⟨other, hOther, hPair⟩ := Option.map_eq_some_iff.mp hRead
  obtain ⟨-, later, rfl⟩ := sigilDelimiter?_eq_some_iff.mp hHere
  obtain ⟨hMem, tail, hText⟩ := sigilDelimiter?_eq_some_iff.mp hOther
  cases hPair
  -- The second `~` would be one of the four characters behind the first one.
  have hLong : 5 ≤ middle.length := by
    by_contra hShort
    have hPos := List.length_pos_iff.mpr hMiddle
    have hTilde : (middle ++ ("~H".toList ++ (delimiter ++ later)))[middle.length]? = some '~' := by
      rw [List.getElem?_append_right (Nat.le_refl _), Nat.sub_self]
      rfl
    have hOnce : ∀ quotes ∈ delimiters, ∀ i < 5, 0 < i →
        ("~H".toList ++ quotes)[i]? ≠ some '~' := by decide
    have hLength : ("~H".toList ++ found).length = 5 := by
      rw [List.length_append, length_of_mem_delimiters hMem]
      rfl
    rw [hText, ← List.append_assoc, List.getElem?_append_left (by omega)] at hTilde
    exact hOnce found hMem middle.length (Nat.lt_of_not_le hShort) hPos hTilde
  have hWhole : (middle ++ ("~H".toList ++ (delimiter ++ later))).length =
      middle.length + ("~H".toList ++ (delimiter ++ later)).length := List.length_append
  rw [List.length_drop]
  omega

theorem mem_matches_iff {pos : Nat} :
    (pos, delimiter) ∈ Text.matchesWithOffsets readSigil text ↔ IsSigil text pos delimiter := by
  constructor
  · intro hMem
    obtain ⟨before, here, previous, rest, hText, hPos, hRead⟩ :=
      Text.exists_of_mem_matchesFrom hMem
    obtain ⟨other, hOther, hPair⟩ := Option.map_eq_some_iff.mp hRead
    cases hPair
    rw [Nat.zero_add] at hPos
    exact ⟨before, here, hText, hPos, hOther⟩
  · rintro ⟨before, here, rfl, rfl, hHere⟩
    have hNe : here ≠ [] := by
      rintro rfl
      cases hHere
    have hFound : (0 + byteLength before, delimiter) ∈
        Text.matchesFrom readSigil none 0 0 (before ++ here) :=
      Text.mem_matchesFrom (isApartFrom_readSigil before hHere) (Nat.zero_le _) hNe
        fun previous => ⟨here.drop 5, by rw [readSigil, hHere]; rfl⟩
    rw [Nat.zero_add] at hFound
    exact hFound

/-- The bodies of the matches are all bodies. -/
theorem mem_matchSpans {span : Span} :
    span ∈ (Text.matchesWithOffsets readSigil text).map (matchSpan text) ↔
      span ∈ sigilSpans 0 text := by
  obtain ⟨start, stop⟩ := span
  rw [mem_sigilSpans_go, List.mem_map]
  simp only [Nat.zero_add]
  constructor
  · rintro ⟨⟨pos, delimiter⟩, hMem, hSpan⟩
    obtain ⟨before, here, rfl, rfl, hHere⟩ := mem_matches_iff.mp hMem
    rw [matchSpan, Text.dropBytes_append] at hSpan
    exact ⟨before, here, rfl, delimiter, hHere, hSpan⟩
  · rintro ⟨before, here, rfl, delimiter, hHere, hSpan⟩
    refine ⟨(byteLength before, delimiter), ?_, ?_⟩
    · exact mem_matches_iff.mpr ⟨before, here, rfl, rfl, hHere⟩
    · rw [matchSpan, Text.dropBytes_append]
      exact hSpan

/-- No copy fails, and the bytes are those of the template. -/
theorem templateText_eq (path : Path) (text : List Char) :
    templateText path text = some (toBytes (Markup.templateText path text)) := by
  rw [templateText, Markup.templateText]
  split
  · rfl
  · have hSpans : ∀ span ∈ sigilSpans 0 text, (∃ rest, RestAt text span.1 rest) ∧
        ∃ rest, RestAt text span.2 rest := fun span hSpan => (mem_sigilSpans.mp hSpan).restAt
    rw [← keepBytes_nil, foldlM_copyBody fun found => mem_matches_iff.mp, toBytes_keepSpans hSpans,
      List.nil_append]
    congr 1
    exact keepBytes_congr (fun span => mem_matchSpans) _

end PhoenixLens.Markup.ByteTemplate

namespace PhoenixLens.Markup

open ByteMask (blankByte)
open ByteScanner (length_toBytes)
open Text (RestAt byteLength span? toBytes)

variable {text other cs body after later : List Char} {spans : List Span} {pos start stop : Nat}

/-! ### Texts of files -/

theorem rewrites_keepSpans (spans : List Span) (pos : Nat) (cs : List Char) :
    Rewrites [' '] cs (keepSpans spans pos cs) := by
  induction cs generalizing pos with
  | nil => exact .nil
  | cons c cs ih =>
    rw [keepSpans]
    split
    · exact .keep c (ih _)
    · exact (rewrites_blank [c]).append (ih _)

theorem rewrites_templateText (path : Path) (text : List Char) :
    Rewrites [' '] text (templateText path text) := by
  rw [templateText]
  split
  · exact .refl _ _
  · exact rewrites_keepSpans _ _ _

theorem keepSpans_append (spans : List Span) (pos : Nat) (cs more : List Char) :
    keepSpans spans pos (cs ++ more) =
      keepSpans spans pos cs ++ keepSpans spans (pos + byteLength cs) more := by
  induction cs generalizing pos with
  | nil => rfl
  | cons c cs ih =>
    rw [List.cons_append, keepSpans, keepSpans, ih, Text.byteLength_cons, Nat.add_assoc,
      List.append_assoc]

theorem keepSpans_inside (hMem : (start, stop) ∈ spans) (hFirst : start ≤ pos)
    (hLast : pos + byteLength cs ≤ stop) : keepSpans spans pos cs = cs := by
  induction cs generalizing pos with
  | nil => rfl
  | cons c cs ih =>
    have hSize := c.utf8Size_pos
    rw [Text.byteLength_cons] at hLast
    have hInside : (spanAt? spans pos).isSome = true :=
      isSome_spanAt?_iff.mpr ⟨_, hMem, hFirst, by omega⟩
    rw [keepSpans, if_pos hInside, ih (by omega) (by omega)]
    rfl

/-- The template of a file goes on with the body where the file does. -/
theorem IsBody.restAt_keepSpans (h : IsBody text start stop) :
    ∃ body after later, RestAt text start (body ++ after) ∧
      RestAt (keepSpans (sigilSpans 0 text) 0 text) start (body ++ later) ∧
      start + byteLength body = stop := by
  have hMem := mem_sigilSpans.mpr h
  generalize sigilSpans 0 text = spans at hMem
  obtain ⟨body, after, ⟨before, rfl, rfl⟩, rfl⟩ := h.cut
  have hBefore : byteLength (keepSpans spans 0 before) = byteLength before :=
    (rewrites_keepSpans spans 0 before).byteLength_eq (List.forall_mem_singleton.mpr rfl)
  have hKept : keepSpans spans 0 (before ++ (body ++ after)) = keepSpans spans 0 before ++
      (body ++ keepSpans spans (byteLength before + byteLength body) after) := by
    rw [keepSpans_append, keepSpans_append, Nat.zero_add,
      keepSpans_inside hMem (Nat.le_refl _) (Nat.le_refl _)]
  exact ⟨body, after, _, ⟨before, rfl, rfl⟩, ⟨_, hKept, hBefore⟩, rfl⟩

/-! ### Pieces of a body -/

theorem span?_of_body {first last : Nat} {piece : List Char} (h : RestAt text start (body ++ after))
    (hOther : RestAt other start (body ++ later)) (hFirst : start ≤ first)
    (hLast : last ≤ start + byteLength body) (hPiece : span? text first last = some piece) :
    span? other first last = some piece := by
  obtain ⟨hStands, rfl⟩ := Text.span?_eq_some_iff.mp hPiece
  obtain ⟨rest, hRest⟩ := hStands.exists_rest
  obtain ⟨front, hFront, rfl⟩ := h.exists_front hRest hFirst
  obtain ⟨tail, rfl⟩ : ∃ tail, body = front ++ piece ++ tail := by
    rw [← List.append_assoc] at hFront
    rcases List.append_eq_append_iff.mp hFront with ⟨tail, hTail, -⟩ | ⟨tail, hTail, -⟩
    · have hNil : tail = [] := by
        apply Text.byteLength_eq_zero
        have hLength := congrArg byteLength hTail
        simp only [Text.byteLength_append] at hLength
        omega
      rw [hNil, List.append_nil] at hTail
      exact ⟨[], by rw [hTail, List.append_nil]⟩
    · exact ⟨tail, hTail⟩
  rw [List.append_assoc, List.append_assoc] at hOther
  exact Text.span?_eq_some_iff.mpr ⟨hOther.append.standsAt, rfl⟩

/-- Between two offsets of a body stands the same in both texts. -/
theorem IsBody.span?_eq (h : IsBody text start stop) {first last : Nat} (hFirst : start ≤ first)
    (hLast : last ≤ stop) :
    span? (keepSpans (sigilSpans 0 text) 0 text) first last = span? text first last := by
  obtain ⟨body, after, later, hText, hKept, rfl⟩ := h.restAt_keepSpans
  apply Option.ext
  intro piece
  constructor
  · exact span?_of_body hKept hText hFirst hLast
  · exact span?_of_body hText hKept hFirst hLast

theorem exists_span? {first last : Nat} (hFirst : Text.isBoundary text first = true)
    (hLast : Text.isBoundary text last = true) (hOrder : first ≤ last) :
    ∃ piece, span? text first last = some piece := by
  rw [span?, hFirst, hLast, decide_eq_true hOrder]
  exact ⟨_, rfl⟩

/-! ### Bytes -/

theorem fromUTF8?_toBytes (cs : List Char) :
    String.fromUTF8? (toBytes cs).toByteArray = some (String.ofList cs) := by
  have hValid : (toBytes cs).toByteArray.IsValidUTF8 := ⟨cs, rfl⟩
  rw [String.fromUTF8?, dif_pos hValid]
  rfl

/-- The second text is the first one with marks in place of some of its characters: its bytes, as
they are written over those of the first text, are kept or those of marks, and are read as text. -/
structure IsRewriting (marks text result : List Char) (bytes : Option (List UInt8)) : Prop where
  byteLength : byteLength result = byteLength text
  eachByte : ∀ (i : Nat) (byte : UInt8), (toBytes text)[i]? = some byte →
    (toBytes result)[i]? = some byte ∨ ∃ mark ∈ marks, (toBytes result)[i]? = some mark.toUInt8
  wholeCharacters : Rewrites marks text result
  decoded : ∃ written, bytes = some written ∧ written = toBytes result ∧
    String.fromUTF8? written.toByteArray = some (String.ofList result)

theorem Rewrites.isRewriting {marks result : List Char} {bytes : Option (List UInt8)}
    (h : Rewrites marks text result) (hMarks : ∀ mark ∈ marks, mark.utf8Size = 1)
    (hBytes : bytes = some (toBytes result)) : IsRewriting marks text result bytes where
  byteLength := h.byteLength_eq hMarks
  eachByte _ _ hByte := h.bytes hMarks hByte
  wholeCharacters := h
  decoded := ⟨_, hBytes, rfl, fromUTF8?_toBytes result⟩

/-- **Rewriting a template keeps its offsets.** Whatever a file holds, the mask and the template are
rewritten texts, so no byte is written in the middle of a character, and the template keeps its line
feeds. In a file of source the bytes of each body are those of the file and all others are blank,
and what stands between two offsets in a body, as those of a use do, stands there in the file. -/
theorem rewritten_in_place (path : Path) (text : List Char) :
    IsRewriting maskMarks text (mask text) (ByteMask.mask text) ∧
    IsRewriting [' '] text (templateText path text) (ByteTemplate.templateText path text) ∧
    (∀ i : Nat, (toBytes text)[i]? = some '\n'.toUInt8 →
      (toBytes (templateText path text))[i]? = some '\n'.toUInt8) ∧
    (path.isTemplate = false →
      (∀ start stop i, IsBody text start stop → start ≤ i → i < stop →
        (toBytes (templateText path text))[i]? = (toBytes text)[i]?) ∧
      (∀ i, (∀ start stop, IsBody text start stop → ¬(start ≤ i ∧ i < stop)) →
        (toBytes (templateText path text))[i]? = (toBytes text)[i]?.map blankByte) ∧
      ∀ start stop, IsBody text start stop →
        (∀ first last, start ≤ first → last ≤ stop →
          span? (templateText path text) first last = span? text first last) ∧
        ∀ usage ∈ usagesOf (templateText path text), ∀ first ∈ usage.offsets,
          ∀ last ∈ usage.offsets, start ≤ first → first ≤ last → last ≤ stop →
            ∃ piece, span? (templateText path text) first last = some piece ∧
              span? text first last = some piece) := by
  have hSpans : ∀ span ∈ sigilSpans 0 text, (∃ rest, RestAt text span.1 rest) ∧
      ∃ rest, RestAt text span.2 rest := fun span hSpan => (mem_sigilSpans.mp hSpan).restAt
  have hKept (i : Nat) : (toBytes (keepSpans (sigilSpans 0 text) 0 text))[i]? =
      (toBytes text)[i]?.map (keptByte (sigilSpans 0 text) i) := by
    rw [getElem?_keepSpans hSpans (.self text), Nat.zero_add]
  refine ⟨(rewrites_mask text).isRewriting (by decide) (ByteMask.mask_eq text),
    (rewrites_templateText path text).isRewriting (by decide)
      (ByteTemplate.templateText_eq path text), ?_, ?_⟩
  · intro i hFeed
    rw [templateText]
    split
    · exact hFeed
    · rw [hKept, hFeed, Option.map_some, keptByte]
      split
      · rfl
      · rfl
  · intro hSource
    have hTemplate : templateText path text = keepSpans (sigilSpans 0 text) 0 text := by
      rw [templateText, hSource]
      rfl
    rw [hTemplate]
    refine ⟨?_, ?_, ?_⟩
    · intro start stop i hBody hFirst hLast
      have hInside : (spanAt? (sigilSpans 0 text) i).isSome = true :=
        isSome_spanAt?_iff.mpr ⟨_, mem_sigilSpans.mpr hBody, hFirst, hLast⟩
      rw [hKept, keptByte_of_isSome hInside, Option.map_id]
      rfl
    · intro i hOutside
      have hNone : ¬(spanAt? (sigilSpans 0 text) i).isSome = true := by
        rw [isSome_spanAt?_iff]
        rintro ⟨⟨start, stop⟩, hMem, hFirst, hLast⟩
        exact hOutside start stop (mem_sigilSpans.mp hMem) ⟨hFirst, hLast⟩
      rw [hKept, keptByte_of_not_isSome hNone]
    · intro start stop hBody
      refine ⟨fun first last hFirst hLast => hBody.span?_eq hFirst hLast, ?_⟩
      intro usage hUsage first hFirst last hLast hStart hOrder hStop
      have hStands := (scanning_is_safe (keepSpans (sigilSpans 0 text) 0 text)).2.2.2.1 usage hUsage
      obtain ⟨piece, hPiece⟩ :=
        exists_span? (hStands.boundaries first hFirst) (hStands.boundaries last hLast) hOrder
      exact ⟨piece, hPiece, by rw [← hBody.span?_eq hStart hStop, hPiece]⟩

/-! ### A template behind a wide character -/

def panelFile : Path := ⟨"lib/panel.ex"⟩

def panelText : List Char := "é~H'''<.a b=é/>'''\n".toList

/-- A use in a body, a line feed behind it and a character before it. -/
theorem rewritten_in_place_panel :
    IsBody panelText 7 17 ∧
    (∀ usage ∈ usagesOf (templateText panelFile panelText),
      (usage.openTagStart, usage.blockEnd) = (7, 17)) ∧
    span? (templateText panelFile panelText) 7 17 = span? panelText 7 17 ∧
    (∀ usage ∈ usagesOf (templateText panelFile panelText), ∃ piece,
      span? (templateText panelFile panelText) usage.openTagStart usage.blockEnd = some piece ∧
        span? panelText usage.openTagStart usage.blockEnd = some piece) ∧
    (toBytes (templateText panelFile panelText))[12]? = (toBytes panelText)[12]? ∧
    (toBytes (templateText panelFile panelText))[0]? = (toBytes panelText)[0]?.map blankByte ∧
    (toBytes (templateText panelFile panelText))[20]? = some '\n'.toUInt8 := by
  have hSpans : sigilSpans 0 panelText = [(7, 17)] := by decide
  have hBody : IsBody panelText 7 17 := mem_sigilSpans.mp (hSpans ▸ List.mem_singleton_self _)
  have hUses : ∀ usage ∈ usagesOf (templateText panelFile panelText),
      (usage.openTagStart, usage.blockEnd) = (7, 17) := by decide
  obtain ⟨-, -, hFeeds, hSource⟩ := rewritten_in_place panelFile panelText
  obtain ⟨hInside, hOutside, hPieces⟩ := hSource (by decide)
  obtain ⟨hSame, hFound⟩ := hPieces 7 17 hBody
  refine ⟨hBody, hUses, hSame 7 17 (by decide) (by decide), ?_,
    hInside 7 17 12 hBody (by decide) (by decide), ?_, hFeeds 20 (by decide)⟩
  · intro usage hUsage
    obtain ⟨hStart, hStop⟩ := Prod.mk.inj (hUses usage hUsage)
    apply hFound usage hUsage
    · simp [ComponentUsage.offsets]
    · simp [ComponentUsage.offsets]
    · omega
    · omega
    · omega
  · apply hOutside
    intro start stop hOther
    have hMem := mem_sigilSpans.mpr hOther
    rw [hSpans, List.mem_singleton] at hMem
    cases hMem
    decide

end PhoenixLens.Markup
