import PhoenixLens.Proofs.Markup.Names

/-!
# Spans of components

The components of a template occupy spans of its text. A reader that skips components goes by a list
of spans, which agrees with the components of every part of the template that it reads.
-/

namespace PhoenixLens.Markup

theorem spanAt?_append (spans more : List Span) (pos : Nat) :
    spanAt? (spans ++ more) pos = (spanAt? spans pos).or (spanAt? more pos) := List.find?_append

theorem spanAt?_eq_none {spans : List Span} {pos : Nat}
    (h : ∀ span ∈ spans, pos < span.1 ∨ span.2 ≤ pos) : spanAt? spans pos = none := by
  rw [spanAt?, List.find?_eq_none]
  intro span hSpan hContains
  have hEnds := h span hSpan
  simp only [Bool.and_eq_true, decide_eq_true_eq] at hContains
  omega

theorem byteLength_startTag_pos (selfClosing : Bool) (name : List Char)
    (written : TagAttributes) : 0 < Text.byteLength (startTag selfClosing name written) :=
  Nat.lt_add_right _ (Char.utf8Size_pos '<')

/-- What stands behind a tag is reached from behind its `<`. -/
theorem dropBytes_startTag (selfClosing : Bool) (name : List Char) (written : TagAttributes)
    {pos stop : Nat}
    (hStop : pos + Text.byteLength (startTag selfClosing name written) = stop) (rest : List Char) :
    Text.dropBytes (stop - (pos + 1)) (name ++ (written.text ++ (tagEnding selfClosing ++ rest))) =
      rest := by
  have hSize : ('<' : Char).utf8Size = 1 := rfl
  have hInner : stop - (pos + 1) =
      Text.byteLength (name ++ (written.text ++ tagEnding selfClosing)) := by
    rw [← hStop, startTag, Text.byteLength_cons, hSize]
    omega
  have hForm : name ++ (written.text ++ (tagEnding selfClosing ++ rest)) =
      name ++ (written.text ++ tagEnding selfClosing) ++ rest := by simp
  rw [hInner, hForm, Text.dropBytes_append]

theorem byteLength_closeTag_pos (name : List Char) : 0 < Text.byteLength (closeTag name) :=
  Nat.lt_add_right _ (Char.utf8Size_pos '<')

namespace Template

theorem byteLength_whole {name : WrittenName} {attributes : TagAttributes} {body : Template true}
    {pos inside behind stop : Nat}
    (hInside : pos + Text.byteLength (startTag false name.text attributes) = inside)
    (hBehind : inside + Text.byteLength body.source = behind)
    (hStop : behind + Text.byteLength (closeTag name.text) = stop) :
    pos + Text.byteLength (startTag false name.text attributes ++
      (body.source ++ closeTag name.text)) = stop := by
  simp only [Text.byteLength_append]
  omega

theorem byteLength_block {name : WrittenName} {attributes : TagAttributes}
    {body next : Template true} {pos inside behind stop : Nat}
    (hInside : pos + Text.byteLength (startTag false name.text attributes) = inside)
    (hBehind : inside + Text.byteLength body.source = behind)
    (hStop : behind + Text.byteLength (closeTag name.text) = stop) (texts : Bool) :
    pos + Text.byteLength (block name attributes body next : Template texts).source =
      stop + Text.byteLength next.source := by
  simp only [source, Text.byteLength_append]
  omega

/-- The spans of the components of a template that is written from an offset on. -/
def spans : {texts : Bool} → Nat → Template texts → List Span
  | _, _, done => []
  | _, pos, text own next => next.spans (pos + Text.byteLength own.1)
  | _, pos, block name attributes body next =>
    let inside := pos + Text.byteLength (startTag false name.text attributes)
    let stop := inside + Text.byteLength body.source + Text.byteLength (closeTag name.text)
    (name.component?.map fun _ => (pos, stop)).toList ++ (body.spans inside ++ next.spans stop)
  | _, pos, selfClosing name attributes next =>
    let stop := pos + Text.byteLength (startTag true name.text attributes)
    (name.component?.map fun _ => (pos, stop)).toList ++ next.spans stop
  | _, pos, void name attributes next =>
    next.spans (pos + Text.byteLength (startTag false name.1 attributes))

theorem spans_eq {texts : Bool} (template : Template texts) (pos : Nat) :
    (template.usages pos).map (fun usage => (usage.openTagStart, usage.blockEnd)) =
      template.spans pos := by
  induction template generalizing pos with
  | done => rfl
  | text own next ih => exact ih _
  | block name attributes body next ihBody ihNext =>
    rw [usages, spans, List.map_append, List.map_append, ihBody, ihNext]
    cases name.component? <;> rfl
  | selfClosing name attributes next ih =>
    rw [usages, spans, List.map_append, ih]
    cases name.component? <;> rfl
  | void name attributes next ih => exact ih _

theorem span_bounds {texts : Bool} (template : Template texts) (pos : Nat) :
    ∀ span ∈ template.spans pos, pos ≤ span.1 ∧ span.1 < span.2 ∧
      span.2 ≤ pos + Text.byteLength template.source := by
  induction template generalizing pos with
  | done => nofun
  | text own next ih =>
    intro span hSpan
    have hNext := ih _ span hSpan
    rw [source, Text.byteLength_append]
    omega
  | block name attributes body next ihBody ihNext =>
    intro span hSpan
    have hTag := byteLength_startTag_pos false name.text attributes
    simp only [source, Text.byteLength_append]
    rw [spans, List.mem_append, List.mem_append] at hSpan
    rcases hSpan with hOwn | hBody | hNext
    · obtain ⟨_, _, rfl⟩ := Option.map_eq_some_iff.mp (Option.mem_toList.mp hOwn)
      dsimp only
      omega
    · have hBounds := ihBody _ span hBody
      omega
    · have hBounds := ihNext _ span hNext
      omega
  | selfClosing name attributes next ih =>
    intro span hSpan
    have hTag := byteLength_startTag_pos true name.text attributes
    simp only [source, Text.byteLength_append]
    rw [spans, List.mem_append] at hSpan
    rcases hSpan with hOwn | hNext
    · obtain ⟨_, _, rfl⟩ := Option.map_eq_some_iff.mp (Option.mem_toList.mp hOwn)
      dsimp only
      omega
    · have hBounds := ih _ span hNext
      omega
  | void name attributes next ih =>
    intro span hSpan
    have hNext := ih _ span hSpan
    rw [source, Text.byteLength_append]
    omega

/-- Outside of the text of a template none of its components is found. -/
theorem spanAt?_spans_eq_none {texts : Bool} (template : Template texts) {pos p : Nat}
    (h : p < pos ∨ pos + Text.byteLength template.source ≤ p) :
    spanAt? (template.spans pos) p = none := by
  refine spanAt?_eq_none fun span hSpan => ?_
  have hBounds := template.span_bounds pos span hSpan
  omega

/-- What is skipped in a template: nothing, or its components. -/
def skipped (skips : Bool) {texts : Bool} (pos : Nat) (template : Template texts) : List Span :=
  if skips then template.spans pos else []

theorem spanAt?_skipped_eq_none {skips texts : Bool} (template : Template texts) {pos p : Nat}
    (h : p < pos ∨ pos + Text.byteLength template.source ≤ p) :
    spanAt? (template.skipped skips pos) p = none := by
  cases skips with
  | false => rfl
  | true => exact template.spanAt?_spans_eq_none h

def isSkipped (skips : Bool) (name : WrittenName) : Bool := skips && name.component?.isSome

/-- The span of a tag's component, if it is skipped. -/
def ownSkipped (skips : Bool) (name : WrittenName) (start stop : Nat) : List Span :=
  if isSkipped skips name then [(start, stop)] else []

theorem skipped_block (skips : Bool) (name : WrittenName) (attributes : TagAttributes)
    (body next : Template true) (pos : Nat) (texts : Bool) :
    (block name attributes body next : Template texts).skipped skips pos =
      ownSkipped skips name pos (pos + Text.byteLength (startTag false name.text attributes) +
        Text.byteLength body.source + Text.byteLength (closeTag name.text)) ++
      (body.skipped skips (pos + Text.byteLength (startTag false name.text attributes)) ++
        next.skipped skips (pos + Text.byteLength (startTag false name.text attributes) +
          Text.byteLength body.source + Text.byteLength (closeTag name.text))) := by
  cases skips with
  | false => rfl
  | true =>
    simp only [skipped, if_true, spans, ownSkipped, isSkipped, Bool.true_and]
    cases name.component? <;> rfl

theorem skipped_selfClosing (skips : Bool) (name : WrittenName) (attributes : TagAttributes)
    (next : Template true) (pos : Nat) (texts : Bool) :
    (selfClosing name attributes next : Template texts).skipped skips pos =
      ownSkipped skips name pos (pos + Text.byteLength (startTag true name.text attributes)) ++
        next.skipped skips (pos + Text.byteLength (startTag true name.text attributes)) := by
  cases skips with
  | false => rfl
  | true =>
    simp only [skipped, if_true, spans, ownSkipped, isSkipped, Bool.true_and]
    cases name.component? <;> rfl

theorem spanAt?_ownSkipped_eq_none {skips : Bool} {name : WrittenName} {start stop p : Nat}
    (h : isSkipped skips name = false ∨ stop ≤ p) :
    spanAt? (ownSkipped skips name start stop) p = none := by
  refine spanAt?_eq_none fun span hSpan => ?_
  rw [ownSkipped] at hSpan
  split at hSpan
  · rename_i hOwn
    rcases h with hNone | hBehind
    · rw [hNone] at hOwn
      cases hOwn
    · rw [List.mem_singleton.mp hSpan]
      exact .inr hBehind
  · cases hSpan

theorem spanAt?_ownSkipped {skips : Bool} {name : WrittenName} {start stop p : Nat}
    (h : isSkipped skips name = true) (hp : start ≤ p) (hEnd : p < stop) :
    spanAt? (ownSkipped skips name start stop) p = some (start, stop) := by
  rw [ownSkipped, if_pos h]
  simp [spanAt?, hp, hEnd]

end Template

/-- Nothing is skipped from one offset to another. -/
def SkipsNone (skip : List Span) (start stop : Nat) : Prop :=
  ∀ p, start ≤ p → p < stop → spanAt? skip p = none

/-- From one offset to another the same is skipped. -/
def SkipsAs (skip spans : List Span) (start stop : Nat) : Prop :=
  ∀ p, start ≤ p → p < stop → spanAt? skip p = spanAt? spans p

namespace SkipsAs

open Template

variable {skip : List Span} {skips : Bool}

theorem text {own : PlainText} {next : Template false} {pos : Nat}
    (h : SkipsAs skip ((Template.text own next).skipped skips pos) pos
      (pos + Text.byteLength (Template.text own next).source)) :
    SkipsNone skip pos (pos + Text.byteLength own.1) ∧
      SkipsAs skip (next.skipped skips (pos + Text.byteLength own.1))
        (pos + Text.byteLength own.1)
        (pos + Text.byteLength own.1 + Text.byteLength next.source) := by
  have hSame : (Template.text own next).skipped skips pos =
      next.skipped skips (pos + Text.byteLength own.1) := by
    cases skips <;> rfl
  rw [hSame, source, Text.byteLength_append] at h
  refine ⟨fun p hp hEnd => ?_, fun p hp hEnd => h p (by omega) (by omega)⟩
  exact (h p hp (by omega)).trans (next.spanAt?_skipped_eq_none (.inl hEnd))

section

variable {name : WrittenName} {attributes : TagAttributes} {body next : Template true}
  {texts : Bool} {pos inside behind stop : Nat}

theorem block_next
    (h : SkipsAs skip ((block name attributes body next : Template texts).skipped skips pos) pos
      (stop + Text.byteLength next.source))
    (hInside : pos + Text.byteLength (startTag false name.text attributes) = inside)
    (hBehind : inside + Text.byteLength body.source = behind)
    (hStop : behind + Text.byteLength (closeTag name.text) = stop) :
    SkipsAs skip (next.skipped skips stop) stop (stop + Text.byteLength next.source) := by
  intro p hp hEnd
  rw [skipped_block, hInside, hBehind, hStop] at h
  rw [h p (by omega) hEnd, spanAt?_append, spanAt?_append,
    spanAt?_ownSkipped_eq_none (.inr hp), body.spanAt?_skipped_eq_none (.inr (by omega))]
  rfl

/-- A component that is skipped is skipped as a whole. -/
theorem block_own
    (h : SkipsAs skip ((block name attributes body next : Template texts).skipped skips pos) pos
      (stop + Text.byteLength next.source))
    (hInside : pos + Text.byteLength (startTag false name.text attributes) = inside)
    (hBehind : inside + Text.byteLength body.source = behind)
    (hStop : behind + Text.byteLength (closeTag name.text) = stop)
    (hOwn : isSkipped skips name = true) :
    pos < stop ∧ ∀ p, pos ≤ p → p < stop → spanAt? skip p = some (pos, stop) := by
  have hTag := byteLength_startTag_pos false name.text attributes
  rw [skipped_block, hInside, hBehind, hStop] at h
  refine ⟨by omega, fun p hp hEnd => ?_⟩
  rw [h p hp (by omega), spanAt?_append, spanAt?_ownSkipped hOwn hp hEnd]
  rfl

theorem block_inner
    (h : SkipsAs skip ((block name attributes body next : Template texts).skipped skips pos) pos
      (stop + Text.byteLength next.source))
    (hInside : pos + Text.byteLength (startTag false name.text attributes) = inside)
    (hBehind : inside + Text.byteLength body.source = behind)
    (hStop : behind + Text.byteLength (closeTag name.text) = stop)
    (hOwn : isSkipped skips name = false) :
    SkipsNone skip pos inside ∧ SkipsAs skip (body.skipped skips inside) inside behind ∧
      SkipsNone skip behind stop := by
  rw [skipped_block, hInside, hBehind, hStop] at h
  have hBody : ∀ p, pos ≤ p → p < stop →
      spanAt? skip p = spanAt? (body.skipped skips inside) p := by
    intro p hp hEnd
    rw [h p hp (by omega), spanAt?_append, spanAt?_append, spanAt?_ownSkipped_eq_none (.inl hOwn),
      next.spanAt?_skipped_eq_none (.inl hEnd), Option.none_or, Option.or_none]
  refine ⟨fun p hp hEnd => ?_, fun p hp hEnd => hBody p (by omega) (by omega),
    fun p hp hEnd => ?_⟩
  · exact (hBody p hp (by omega)).trans (body.spanAt?_skipped_eq_none (.inl hEnd))
  · exact (hBody p (by omega) hEnd).trans (body.spanAt?_skipped_eq_none (.inr (by omega)))

end

section

variable {name : WrittenName} {attributes : TagAttributes} {next : Template true} {texts : Bool}
  {pos stop : Nat}

theorem selfClosing_next
    (h : SkipsAs skip ((selfClosing name attributes next : Template texts).skipped skips pos) pos
      (stop + Text.byteLength next.source))
    (hStop : pos + Text.byteLength (startTag true name.text attributes) = stop) :
    SkipsAs skip (next.skipped skips stop) stop (stop + Text.byteLength next.source) := by
  intro p hp hEnd
  rw [skipped_selfClosing, hStop] at h
  rw [h p (by omega) hEnd, spanAt?_append, spanAt?_ownSkipped_eq_none (.inr hp)]
  rfl

theorem selfClosing_own
    (h : SkipsAs skip ((selfClosing name attributes next : Template texts).skipped skips pos) pos
      (stop + Text.byteLength next.source))
    (hStop : pos + Text.byteLength (startTag true name.text attributes) = stop)
    (hOwn : isSkipped skips name = true) :
    pos < stop ∧ ∀ p, pos ≤ p → p < stop → spanAt? skip p = some (pos, stop) := by
  have hTag := byteLength_startTag_pos true name.text attributes
  rw [skipped_selfClosing, hStop] at h
  refine ⟨by omega, fun p hp hEnd => ?_⟩
  rw [h p hp (by omega), spanAt?_append, spanAt?_ownSkipped hOwn hp hEnd]
  rfl

theorem selfClosing_inner
    (h : SkipsAs skip ((selfClosing name attributes next : Template texts).skipped skips pos) pos
      (stop + Text.byteLength next.source))
    (hStop : pos + Text.byteLength (startTag true name.text attributes) = stop)
    (hOwn : isSkipped skips name = false) : SkipsNone skip pos stop := by
  intro p hp hEnd
  rw [skipped_selfClosing, hStop] at h
  rw [h p hp (by omega), spanAt?_append, spanAt?_ownSkipped_eq_none (.inl hOwn),
    next.spanAt?_skipped_eq_none (.inl hEnd)]
  rfl

end

theorem void {name : ElementName} {attributes : TagAttributes} {next : Template true}
    {texts : Bool} {pos stop : Nat}
    (h : SkipsAs skip ((Template.void name attributes next : Template texts).skipped skips pos) pos
      (stop + Text.byteLength next.source))
    (hStop : pos + Text.byteLength (startTag false name.1 attributes) = stop) :
    SkipsNone skip pos stop ∧
      SkipsAs skip (next.skipped skips stop) stop (stop + Text.byteLength next.source) := by
  have hSame : (Template.void name attributes next : Template texts).skipped skips pos =
      next.skipped skips stop := by
    rw [← hStop]
    cases skips <;> rfl
  rw [hSame] at h
  refine ⟨fun p hp hEnd => ?_, fun p hp hEnd => h p (by omega) hEnd⟩
  exact (h p hp (by omega)).trans (next.spanAt?_skipped_eq_none (.inl hEnd))

end SkipsAs

end PhoenixLens.Markup
