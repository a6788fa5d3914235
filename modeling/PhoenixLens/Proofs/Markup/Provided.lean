import PhoenixLens.Proofs.Markup.Spans

/-!
# Filled slots

The slots that the content of a component fills are those that stand in its template, and the inner
block if there is something else.
-/

namespace PhoenixLens.Markup

theorem names_foldl (slots : List UsageSlot) :
    slots.foldl (fun names slot => if names.contains slot.name then names else names ++ [slot.name])
      [] = (slots.map UsageSlot.name).eraseDups := by
  have hLoop : ∀ found : List String,
      slots.foldl (fun names slot =>
        if names.contains slot.name then names else names ++ [slot.name]) found.reverse =
          List.eraseDupsBy.loop (· == ·) (slots.map UsageSlot.name) found := by
    induction slots with
    | nil => exact fun _ => rfl
    | cons slot slots ih =>
      intro found
      have hContains : found.reverse.contains slot.name = found.any (slot.name == ·) := by
        rw [List.contains_reverse, List.contains_eq_any_beq]
      rw [List.foldl_cons, List.map_cons, List.eraseDupsBy.loop, hContains]
      cases found.any (slot.name == ·) with
      | true => exact ih found
      | false =>
        have hNext := ih (slot.name :: found)
        rw [List.reverse_cons] at hNext
        exact hNext
  exact hLoop []

/-! ### Pieces -/

/-- A piece of the text of a template, which is a slot or stands outside of the slots. -/
structure TemplatePiece where
  isSlot : Bool
  text : List Char

namespace TemplatePiece

/-- Something other than white space stands outside of a slot. -/
def isContent (piece : TemplatePiece) : Bool := !piece.isSlot && !Text.allBlank piece.text

/-- The text of pieces that stand one after the other. -/
def join (pieces : List TemplatePiece) : List Char := pieces.flatMap text

/-- The spans of the slots among pieces that are written from an offset on. -/
def slotSpans (pos : Nat) : List TemplatePiece → List Span
  | [] => []
  | piece :: pieces =>
    let stop := pos + Text.byteLength piece.text
    (if piece.isSlot then [(pos, stop)] else []) ++ slotSpans stop pieces

theorem join_cons (piece : TemplatePiece) (pieces : List TemplatePiece) :
    join (piece :: pieces) = piece.text ++ join pieces := rfl

theorem join_append (pieces more : List TemplatePiece) :
    join (pieces ++ more) = join pieces ++ join more := List.flatMap_append

theorem slotSpans_append (pos : Nat) (pieces more : List TemplatePiece) :
    slotSpans pos (pieces ++ more) =
      slotSpans pos pieces ++ slotSpans (pos + Text.byteLength (join pieces)) more := by
  induction pieces generalizing pos with
  | nil => rfl
  | cons piece pieces ih =>
    rw [List.cons_append, slotSpans, slotSpans, ih, join_cons, Text.byteLength_append,
      Nat.add_assoc, List.append_assoc]

theorem le_of_mem_slotSpans {pos : Nat} {pieces : List TemplatePiece} :
    ∀ span ∈ slotSpans pos pieces, pos ≤ span.1 := by
  induction pieces generalizing pos with
  | nil => nofun
  | cons piece pieces ih =>
    intro span hSpan
    rw [slotSpans, List.mem_append] at hSpan
    rcases hSpan with hOwn | hMore
    · split at hOwn
      · rw [List.mem_singleton.mp hOwn]
      · cases hOwn
    · exact Nat.le_trans (Nat.le_add_right _ _) (ih span hMore)

theorem slotSpans_pairwise (pos : Nat) (pieces : List TemplatePiece) :
    (slotSpans pos pieces).Pairwise fun a b => a.1 ≤ b.1 := by
  induction pieces generalizing pos with
  | nil => exact .nil
  | cons piece pieces ih =>
    rw [slotSpans]
    split
    · refine List.pairwise_cons.mpr ⟨fun span hSpan => ?_, ih _⟩
      exact Nat.le_trans (Nat.le_add_right _ _) (le_of_mem_slotSpans span hSpan)
    · exact ih _

theorem hasBody_gap (before gap more : List Char) {pos : Nat}
    (hPos : Text.byteLength before + Text.byteLength gap = pos) :
    (decide (Text.byteLength before < pos) &&
        !Text.allBlank (Text.slice (before ++ (gap ++ more)) (Text.byteLength before) pos)) =
      !Text.allBlank gap := by
  rw [← hPos, Text.slice_append]
  cases gap with
  | nil => simp [Text.allBlank]
  | cons c gap =>
    have hLt : Text.byteLength before < Text.byteLength before + Text.byteLength (c :: gap) :=
      Nat.lt_add_of_pos_right (Nat.lt_add_right _ c.utf8Size_pos)
    rw [decide_eq_true hLt, Bool.true_and]

/-- Between the slots of a text stand its other pieces. The `gap` is what has been passed since the
last slot. -/
theorem hasBody_join (pieces : List TemplatePiece) (before gap after : List Char) {pos stop : Nat}
    (hPos : Text.byteLength before + Text.byteLength gap = pos)
    (hStop : pos + Text.byteLength (join pieces) = stop) :
    hasBody (before ++ (gap ++ (join pieces ++ after))) (Text.byteLength before) stop
        (slotSpans pos pieces) =
      (!Text.allBlank gap || pieces.any isContent) := by
  induction pieces generalizing before gap pos with
  | nil =>
    subst hStop
    rw [slotSpans, hasBody, List.any_nil, Bool.or_false]
    exact hasBody_gap before gap _ hPos
  | cons piece pieces ih =>
    generalize hNext : pos + Text.byteLength piece.text = next
    have hEnd : next + Text.byteLength (join pieces) = stop := by
      rw [← hStop, join_cons, Text.byteLength_append, ← Nat.add_assoc, hNext]
    rw [slotSpans, hNext, List.any_cons, isContent, join_cons, List.append_assoc]
    cases piece.isSlot with
    | true =>
      -- what has been passed is looked at before the slot, and nothing has been passed behind it
      have hLength : Text.byteLength (before ++ (gap ++ piece.text)) = next := by
        rw [Text.byteLength_append, Text.byteLength_append]
        omega
      have hMore := ih (before ++ (gap ++ piece.text)) [] hLength hEnd
      have hText : before ++ (gap ++ piece.text) ++ ([] ++ (join pieces ++ after)) =
          before ++ (gap ++ (piece.text ++ (join pieces ++ after))) := by simp
      have hMax : max (Text.byteLength before) next = next := Nat.max_eq_right (by omega)
      rw [hText, hLength] at hMore
      rw [if_pos rfl, List.singleton_append, hasBody, hasBody_gap before gap _ hPos, hMax, hMore]
      rfl
    | false =>
      have hLength : Text.byteLength before + Text.byteLength (gap ++ piece.text) = next := by
        rw [Text.byteLength_append]
        omega
      have hMore := ih before (gap ++ piece.text) hLength hEnd
      have hBlank : Text.allBlank (gap ++ piece.text) =
          (Text.allBlank gap && Text.allBlank piece.text) := List.all_append
      rw [List.append_assoc, hBlank, Bool.not_and, Bool.or_assoc] at hMore
      rw [if_neg Bool.false_ne_true, List.nil_append, hMore]
      rfl

end TemplatePiece

/-! ### Templates -/

theorem not_allBlank_of_angle (text : List Char) : Text.allBlank ('<' :: text) = false := by
  have hAngle : Text.isBlank '<' = false := Text.not_isBlank_of (p := (· == '<')) (by decide) rfl
  rw [Text.allBlank, List.all_cons, hAngle, Bool.false_and]

/-- The pieces that a block adds to those around it, given the pieces of its body. -/
def WrittenName.ownPieces (whole opening closing : List Char) (inner : List TemplatePiece) :
    WrittenName → List TemplatePiece
  | element _ => ⟨false, opening⟩ :: (inner ++ [⟨false, closing⟩])
  | component _ => [⟨false, whole⟩]
  | slot _ => [⟨true, whole⟩]

namespace Template

/-- A template cut at its slots. -/
def pieces : {texts : Bool} → Template texts → List TemplatePiece
  | _, done => []
  | _, text own next => ⟨false, own.1⟩ :: next.pieces
  | _, block name attributes body next =>
    let opening := startTag false name.text attributes
    let closing := closeTag name.text
    name.ownPieces (opening ++ (body.source ++ closing)) opening closing body.pieces ++ next.pieces
  | _, selfClosing name attributes next =>
    ⟨name.slot?.isSome, startTag true name.text attributes⟩ :: next.pieces
  | _, void name attributes next => ⟨false, startTag false name.1 attributes⟩ :: next.pieces

theorem join_pieces {texts : Bool} (template : Template texts) :
    TemplatePiece.join template.pieces = template.source := by
  induction template with
  | done => rfl
  | text own next ih => rw [pieces, source, TemplatePiece.join_cons, ih]
  | block name attributes body next ihBody ihNext =>
    rw [pieces, source, TemplatePiece.join_append, ihNext]
    cases name with
    | element name =>
      rw [WrittenName.ownPieces, TemplatePiece.join_cons, TemplatePiece.join_append, ihBody]
      simp [TemplatePiece.join]
    | component name => simp [WrittenName.ownPieces, TemplatePiece.join]
    | slot name => simp [WrittenName.ownPieces, TemplatePiece.join]
  | selfClosing name attributes next ih => rw [pieces, source, TemplatePiece.join_cons, ih]
  | void name attributes next ih => rw [pieces, source, TemplatePiece.join_cons, ih]

theorem any_pieces {texts : Bool} (template : Template texts) :
    template.pieces.any TemplatePiece.isContent = template.hasContent := by
  have hTag : ∀ (selfClosing : Bool) (name : List Char) (attributes : TagAttributes),
      Text.allBlank (startTag selfClosing name attributes) = false :=
    fun _ _ _ => not_allBlank_of_angle _
  induction template with
  | done => rfl
  | text own next ih => rw [pieces, hasContent, List.any_cons, ih]; rfl
  | block name attributes body next _ ih =>
    rw [pieces, hasContent, List.any_append, ih]
    cases name with
    | element name =>
      simp only [WrittenName.ownPieces, List.any_cons, TemplatePiece.isContent, hTag]
      rfl
    | component name =>
      have hWhole : Text.allBlank (startTag false (WrittenName.component name).text attributes ++
          (body.source ++ closeTag (WrittenName.component name).text)) = false :=
        not_allBlank_of_angle _
      simp only [WrittenName.ownPieces, List.any_cons, TemplatePiece.isContent, hWhole]
      rfl
    | slot name => rfl
  | selfClosing name attributes next ih =>
    rw [pieces, hasContent, List.any_cons, ih, TemplatePiece.isContent, hTag]
    cases name.slot? <;> rfl
  | void name attributes next ih =>
    rw [pieces, hasContent, List.any_cons, TemplatePiece.isContent, hTag]
    rfl

theorem slotSpans_pieces {texts : Bool} (template : Template texts) (pos : Nat) :
    (template.slots pos).map (fun slot => (slot.start, slot.stop)) =
      TemplatePiece.slotSpans pos template.pieces := by
  induction template generalizing pos with
  | done => rfl
  | text own next ih => exact ih _
  | block name attributes body next ihBody ihNext =>
    rw [slots, pieces, List.map_append, ihNext, TemplatePiece.slotSpans_append]
    cases name with
    | element name =>
      simp only [WrittenName.ownSlots, WrittenName.ownPieces, TemplatePiece.slotSpans,
        TemplatePiece.slotSpans_append, TemplatePiece.join_cons, TemplatePiece.join_append, ihBody,
        join_pieces, Text.byteLength_append]
      simp [TemplatePiece.join, Nat.add_assoc]
    | component name =>
      simp [WrittenName.ownSlots, WrittenName.ownPieces, TemplatePiece.slotSpans,
        TemplatePiece.join, Text.byteLength_append, Nat.add_assoc]
    | slot name =>
      simp [WrittenName.ownSlots, WrittenName.ownPieces, TemplatePiece.slotSpans,
        TemplatePiece.join, Text.byteLength_append, Nat.add_assoc, slotAt]
  | selfClosing name attributes next ih =>
    rw [slots, pieces, List.map_append, ih, TemplatePiece.slotSpans]
    cases name.slot? <;> rfl
  | void name attributes next ih => exact ih _

/-- The names of the slots that the body of a component fills. -/
theorem providedSlotNames_source {texts : Bool} (body : Template texts)
    (before after : List Char) {start stop : Nat} (hStart : Text.byteLength before = start)
    (hStop : start + Text.byteLength body.source = stop) :
    providedSlotNames (before ++ (body.source ++ after)) start stop (body.slots start) =
      body.providedNames start := by
  have hSpans := body.slotSpans_pieces start
  have hSorted : (body.slots start).Pairwise fun a b => decide (a.start ≤ b.start) = true := by
    have hPairs := TemplatePiece.slotSpans_pairwise start body.pieces
    rw [← hSpans, List.pairwise_map] at hPairs
    exact hPairs.imp fun hLe => decide_eq_true hLe
  have hBody := TemplatePiece.hasBody_join body.pieces before [] after hStart
    (body.join_pieces.symm ▸ hStop)
  rw [List.nil_append, body.join_pieces, body.any_pieces, ← hSpans, hStart] at hBody
  rw [providedSlotNames, List.mergeSort_of_pairwise hSorted, hBody, names_foldl]
  rfl

end Template

end PhoenixLens.Markup
