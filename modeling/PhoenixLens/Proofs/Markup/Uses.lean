import PhoenixLens.Proofs.Markup.Provided
import PhoenixLens.Proofs.Markup.Slots

/-!
# Uses of components

The uses of components that are found in the text of a template are those of the components that it
was written with, each with its own slots.
-/

namespace PhoenixLens.Markup

/-! ### Tags -/

/-- A use without what is found in its content. -/
def bare (usage : ComponentUsage) : ComponentUsage :=
  { usage with slots := [], providedSlotNames := [] }

theorem bareUsages_cons_of_ne {c : Char} (h : c ≠ '<') (pos : Nat) (cs : List Char) :
    bareUsages pos (c :: cs) = bareUsages (pos + c.utf8Size) cs := by
  rw [bareUsages, if_neg (by simpa using h)]
  rfl

theorem bareUsages_angle (pos : Nat) (cs : List Char) :
    bareUsages pos ('<' :: cs) = (usageAt? pos cs).toList ++ bareUsages (pos + 1) cs := rfl

theorem usageAt?_eq_none {cs : List Char} (h : callName? cs = none) (pos : Nat) :
    usageAt? pos cs = none := by
  rw [usageAt?, h]
  rfl

theorem bareUsages_text {text rest : List Char} (hText : IsTaglessBefore rest text) (pos : Nat) :
    bareUsages pos (text ++ rest) = bareUsages (pos + Text.byteLength text) rest := by
  induction text generalizing pos with
  | nil => rfl
  | cons c text ih =>
    rw [List.cons_append, Text.byteLength_cons, ← Nat.add_assoc, ← ih hText.tail]
    by_cases hAngle : c = '<'
    · subst hAngle
      rw [bareUsages_angle, usageAt?_eq_none (callName?_of_beginsNoTag hText.beginsNoTag)]
      rfl
    · exact bareUsages_cons_of_ne hAngle pos _

/-- Behind the `<` of a tag no other use is found up to the end of the tag. -/
theorem bareUsages_tag {inner : List Char} (hInner : IsTagless inner) (pos : Nat)
    (rest : List Char) :
    bareUsages pos ('<' :: (inner ++ rest)) =
      (usageAt? pos (inner ++ rest)).toList ++
        bareUsages (pos + Text.byteLength ('<' :: inner)) rest := by
  have hSize : ('<' : Char).utf8Size = 1 := rfl
  rw [bareUsages_angle, bareUsages_text (hInner.before rest), Text.byteLength_cons, hSize,
    Nat.add_assoc]

theorem bareUsages_startTag (selfClosing : Bool) (name : WrittenName) (attributes : TagAttributes)
    (pos : Nat) (rest : List Char) :
    bareUsages pos (startTag selfClosing name.text attributes ++ rest) =
      (usageAt? pos (name.text ++ (attributes.text ++ (tagEnding selfClosing ++ rest)))).toList ++
        bareUsages (pos + Text.byteLength (startTag selfClosing name.text attributes)) rest := by
  have hTag := bareUsages_tag (IsTagless.inner name.isNameChar selfClosing attributes) pos rest
  rw [List.append_assoc, List.append_assoc] at hTag
  rw [startTag, List.cons_append, List.append_assoc, List.append_assoc]
  exact hTag

theorem bareUsages_closeTag (name : WrittenName) (pos : Nat) (rest : List Char) :
    bareUsages pos (closeTag name.text ++ rest) =
      bareUsages (pos + Text.byteLength (closeTag name.text)) rest := by
  have hNone : usageAt? pos ('/' :: (name.text ++ ['>']) ++ rest) = none :=
    usageAt?_eq_none (callName?_eq_none (by decide) (by decide) _) pos
  rw [closeTag, List.cons_append, bareUsages_tag (IsTagless.closing name.isNameChar), hNone]
  rfl

theorem callName?_of_component?_eq_none {name : WrittenName} (h : name.component? = none)
    {rest : List Char} (hRest : EndsName rest) : callName? (name.text ++ rest) = none := by
  cases name with
  | element name => exact callName?_element name hRest
  | component name => cases h
  | slot name => exact callName?_eq_none (by decide) (by decide) _

theorem isLocal_callName (name : ComponentName) :
    name.callName.moduleName.isNone = name.modules.isEmpty := by
  rw [ComponentName.callName]
  cases name.modules <;> rfl

theorem usageAt?_selfClosing (name : WrittenName) (attributes : TagAttributes) {pos stop : Nat}
    (hStop : pos + Text.byteLength (startTag true name.text attributes) = stop)
    (rest : List Char) :
    usageAt? pos (name.text ++ (attributes.text ++ (tagEnding true ++ rest))) =
      name.component?.map fun name => usageWithout pos name attributes stop stop := by
  have hEnds := endsName_attributes attributes true rest
  cases hKind : name with
  | component other =>
    subst hKind
    have hTag := readOpenTag?_written true pos other.callName.written attributes rest
    rw [WrittenName.text] at hStop ⊢
    rw [writtenTag, hStop] at hTag
    simp only [usageAt?, callName?_component other hEnds, List.drop_left, hTag,
      Option.bind_eq_bind, Option.bind_some, if_true, isLocal_callName]
    rfl
  | _ => exact usageAt?_eq_none (callName?_of_component?_eq_none rfl hEnds) pos

theorem usageAt?_block (name : WrittenName) (attributes : TagAttributes) (body : Template true)
    {pos inside behind stop : Nat}
    (hInside : pos + Text.byteLength (startTag false name.text attributes) = inside)
    (hBehind : inside + Text.byteLength body.source = behind)
    (hStop : behind + Text.byteLength (closeTag name.text) = stop) (rest : List Char) :
    usageAt? pos (name.text ++ (attributes.text ++ (tagEnding false ++
        (body.source ++ (closeTag name.text ++ rest))))) =
      name.component?.map fun name =>
        { usageWithout pos name attributes inside stop with
          selfClosing := false
          contentStart := some inside
          contentEnd := some behind } := by
  generalize hRest : body.source ++ (closeTag name.text ++ rest) = behindTag
  have hEnds := endsName_attributes attributes false behindTag
  cases hKind : name with
  | component other =>
    subst hKind
    have hTag := readOpenTag?_written false pos other.callName.written attributes behindTag
    have hName : ∀ element, WrittenName.component other ≠ .element element := fun _ => nofun
    have hNone : SkipsAs [] (body.skipped false inside) inside behind := fun _ _ _ => rfl
    have hClose := matchingClose?_closeTag hName hBehind hStop hNone rfl rest
    rw [hRest] at hClose
    rw [WrittenName.text] at hInside hClose ⊢
    rw [writtenTag, hInside] at hTag
    have hDrop := dropBytes_startTag false other.callName.written attributes hInside behindTag
    simp only [usageAt?, callName?_component other hEnds, List.drop_left, hTag,
      Option.bind_eq_bind, Option.bind_some, hDrop, hClose, isLocal_callName]
    rfl
  | _ => exact usageAt?_eq_none (callName?_of_component?_eq_none rfl hEnds) pos

/-! ### Templates -/

/-- The uses in a template are found, and looking for uses goes on behind it. -/
theorem bareUsages_template {texts : Bool} (template : Template texts) :
    ∀ (pos : Nat) (rest : List Char), BeginsNoTag rest →
      bareUsages pos (template.source ++ rest) =
        (template.usages pos).map bare ++
          bareUsages (pos + Text.byteLength template.source) rest := by
  induction template with
  | done => exact fun pos rest _ => rfl
  | text own next ih =>
    intro pos rest hRest
    have hText : IsTaglessBefore (next.source ++ rest) own.1 :=
      ⟨own.2, fun _ => next.beginsNoTag_source hRest⟩
    rw [Template.source, Text.byteLength_append, ← Nat.add_assoc, List.append_assoc,
      bareUsages_text hText, ih _ rest hRest]
    rfl
  | block name attributes body next ihBody ihNext =>
    intro pos rest hRest
    generalize hInside : pos + Text.byteLength (startTag false name.text attributes) = inside
    generalize hBehind : inside + Text.byteLength body.source = behind
    generalize hStop : behind + Text.byteLength (closeTag name.text) = stop
    have hBody := ihBody inside (closeTag name.text ++ (next.source ++ rest))
      (beginsNoTag_closeTag _ _)
    rw [hBehind, bareUsages_closeTag, hStop, ihNext stop rest hRest] at hBody
    rw [Template.byteLength_block hInside hBehind hStop, Template.source, List.append_assoc,
      List.append_assoc, List.append_assoc, bareUsages_startTag, hInside, hBody,
      usageAt?_block name attributes body hInside hBehind hStop, Template.usages, hInside, hBehind,
      hStop, List.map_append, List.map_append, List.append_assoc, List.append_assoc]
    cases name.component? <;> rfl
  | selfClosing name attributes next ih =>
    intro pos rest hRest
    generalize hStop : pos + Text.byteLength (startTag true name.text attributes) = stop
    rw [Template.source, Text.byteLength_append, ← Nat.add_assoc, List.append_assoc,
      bareUsages_startTag, usageAt?_selfClosing name attributes hStop, hStop, ih stop rest hRest,
      Template.usages, hStop, List.map_append, List.append_assoc]
    cases name.component? <;> rfl
  | void name attributes next ih =>
    intro pos rest hRest
    generalize hStop : pos + Text.byteLength (startTag false name.1 attributes) = stop
    have hOpen := bareUsages_startTag false (.element name) attributes pos (next.source ++ rest)
    rw [usageAt?_eq_none
      (callName?_of_component?_eq_none rfl (endsName_attributes attributes false _))] at hOpen
    rw [Template.source, Text.byteLength_append, ← Nat.add_assoc, List.append_assoc,
      Template.usages, hStop, ← ih stop rest hRest, ← hStop]
    exact hOpen

/-! ### Content -/

/-- The spans that lie between two offsets. -/
def within (start stop : Nat) (spans : List Span) : List Span :=
  spans.filter fun (first, last) => start ≤ first && last ≤ stop

theorem within_within {start stop first last : Nat} (hFirst : start ≤ first)
    (hLast : last ≤ stop) (spans : List Span) :
    within first last (within start stop spans) = within first last spans := by
  rw [within, within, within, List.filter_filter]
  refine List.filter_congr fun span _ => ?_
  rw [Bool.eq_iff_iff]
  simp only [Bool.and_eq_true, decide_eq_true_eq]
  omega

theorem within_append (start stop : Nat) (spans more : List Span) :
    within start stop (spans ++ more) = within start stop spans ++ within start stop more :=
  List.filter_append _ _

theorem within_spans {texts : Bool} (template : Template texts) (pos : Nat) :
    within pos (pos + Text.byteLength template.source) (template.spans pos) =
      template.spans pos := by
  refine List.filter_eq_self.mpr fun span hSpan => ?_
  have hBounds := template.span_bounds pos span hSpan
  simp only [Bool.and_eq_true, decide_eq_true_eq]
  omega

theorem within_spans_eq_nil {texts : Bool} (template : Template texts) {pos start stop : Nat}
    (h : pos + Text.byteLength template.source ≤ start ∨ stop ≤ pos) :
    within start stop (template.spans pos) = [] := by
  refine List.filter_eq_nil_iff.mpr fun span hSpan => ?_
  have hBounds := template.span_bounds pos span hSpan
  simp only [Bool.and_eq_true, decide_eq_true_eq]
  omega

theorem within_own {name : WrittenName} {pos stop first last : Nat}
    (h : pos < first ∨ last < stop) :
    within first last (name.component?.map fun _ => (pos, stop)).toList = [] := by
  cases name.component? with
  | none => rfl
  | some _ =>
    refine List.filter_eq_nil_iff.mpr fun span hSpan => ?_
    rw [List.mem_singleton.mp hSpan]
    simp only [Bool.and_eq_true, decide_eq_true_eq]
    omega

theorem within_block {name : WrittenName} {attributes : TagAttributes} {body next : Template true}
    {texts : Bool} {spans : List Span} {pos inside behind stop : Nat}
    (hInside : pos + Text.byteLength (startTag false name.text attributes) = inside)
    (hBehind : inside + Text.byteLength body.source = behind)
    (hStop : behind + Text.byteLength (closeTag name.text) = stop)
    (hSpans : within pos (stop + Text.byteLength next.source) spans =
      (Template.block name attributes body next : Template texts).spans pos) :
    within inside behind spans = body.spans inside ∧
      within stop (stop + Text.byteLength next.source) spans = next.spans stop := by
  have hOpen := byteLength_startTag_pos false name.text attributes
  have hClose := byteLength_closeTag_pos name.text
  rw [Template.spans, hInside, hBehind, hStop] at hSpans
  constructor
  · have hBody := within_spans body inside
    rw [hBehind] at hBody
    rw [← within_within (show pos ≤ inside by omega)
        (show behind ≤ stop + Text.byteLength next.source by omega), hSpans, within_append,
      within_append, within_own (.inl (by omega)), hBody,
      within_spans_eq_nil next (.inr (by omega)), List.nil_append, List.append_nil]
  · rw [← within_within (show pos ≤ stop by omega) (Nat.le_refl _), hSpans, within_append,
      within_append, within_own (.inl (by omega)), within_spans next stop,
      within_spans_eq_nil body (.inl (by omega))]
    rfl

theorem within_selfClosing {name : WrittenName} {attributes : TagAttributes}
    {next : Template true} {texts : Bool} {spans : List Span} {pos stop : Nat}
    (hStop : pos + Text.byteLength (startTag true name.text attributes) = stop)
    (hSpans : within pos (stop + Text.byteLength next.source) spans =
      (Template.selfClosing name attributes next : Template texts).spans pos) :
    within stop (stop + Text.byteLength next.source) spans = next.spans stop := by
  have hTag := byteLength_startTag_pos true name.text attributes
  rw [Template.spans, hStop] at hSpans
  rw [← within_within (show pos ≤ stop by omega) (Nat.le_refl _), hSpans, within_append,
    within_own (.inl (by omega)), within_spans next stop]
  rfl

theorem withSlots_body (body : Template true) {before after text : List Char} {spans : List Span}
    {inside behind : Nat} (hText : text = before ++ (body.source ++ after))
    (hBefore : Text.byteLength before = inside)
    (hBehind : inside + Text.byteLength body.source = behind) (hAfter : BeginsNoTag after)
    (hSpans : within inside behind spans = body.spans inside) {usage : ComponentUsage}
    (hStart : usage.contentStart = some inside) (hStop : usage.contentEnd = some behind) :
    withSlots text spans usage =
      { usage with
        slots := body.slots inside
        providedSlotNames := body.providedNames inside } := by
  have hDrop : Text.dropBytes inside text = body.source ++ after := by
    rw [hText, ← hBefore, Text.dropBytes_append]
  have hSkip : SkipsAs (body.spans inside) (body.skipped true inside) inside behind :=
    fun _ _ _ => rfl
  have hSlots := slotsOf_source hBehind hSkip hAfter
  have hNames := body.providedSlotNames_source before after hBefore hBehind
  rw [← hText] at hNames
  rw [within] at hSpans
  simp only [withSlots, hStart, hStop, hSpans, hDrop, hSlots, hNames]

/-- The slots of every component in a template are added to its use. -/
theorem map_withSlots {texts : Bool} (template : Template texts) {text : List Char}
    {spans : List Span} :
    ∀ {before rest : List Char} {pos : Nat}, text = before ++ (template.source ++ rest) →
      Text.byteLength before = pos → BeginsNoTag rest →
      within pos (pos + Text.byteLength template.source) spans = template.spans pos →
      ((template.usages pos).map bare).map (withSlots text spans) = template.usages pos := by
  induction template with
  | done => exact fun _ _ _ _ => rfl
  | text own next ih =>
    intro before rest pos hText hBefore hRest hSpans
    have hLength : Text.byteLength (before ++ own.1) = pos + Text.byteLength own.1 := by
      rw [Text.byteLength_append, hBefore]
    have hNextText : text = (before ++ own.1) ++ (next.source ++ rest) := by
      rw [hText, Template.source]
      simp
    refine ih hNextText hLength hRest ?_
    rw [Template.source, Text.byteLength_append, ← Nat.add_assoc, Template.spans] at hSpans
    have hOwn := within_spans next (pos + Text.byteLength own.1)
    rw [← within_within (Nat.le_add_right _ _) (Nat.le_refl _), hSpans, hOwn]
  | block name attributes body next ihBody ihNext =>
    intro before rest pos hText hBefore hRest hSpans
    generalize hInside : pos + Text.byteLength (startTag false name.text attributes) = inside
    generalize hBehind : inside + Text.byteLength body.source = behind
    generalize hStop : behind + Text.byteLength (closeTag name.text) = stop
    rw [Template.byteLength_block hInside hBehind hStop] at hSpans
    -- of all spans in the text, those between the two tags are those of the body
    obtain ⟨hBodySpans, hNextSpans⟩ := within_block hInside hBehind hStop hSpans
    have hAfter := beginsNoTag_closeTag name.text (next.source ++ rest)
    have hBodyText : text = (before ++ startTag false name.text attributes) ++
        (body.source ++ (closeTag name.text ++ (next.source ++ rest))) := by
      rw [hText, Template.source]
      simp
    have hOpened : Text.byteLength (before ++ startTag false name.text attributes) = inside := by
      rw [Text.byteLength_append, hBefore, hInside]
    have hNextText : text = (before ++ (startTag false name.text attributes ++
        (body.source ++ closeTag name.text))) ++ (next.source ++ rest) := by
      rw [hText, Template.source]
      simp
    have hClosed : Text.byteLength (before ++ (startTag false name.text attributes ++
        (body.source ++ closeTag name.text))) = stop := by
      rw [Text.byteLength_append, hBefore, Template.byteLength_whole hInside hBehind hStop]
    have hBody := ihBody hBodyText hOpened hAfter (hBehind ▸ hBodySpans)
    have hNext := ihNext hNextText hClosed hRest hNextSpans
    rw [Template.usages, hInside, hBehind, hStop, List.map_append, List.map_append, List.map_append,
      List.map_append, hBody, hNext]
    congr 1
    cases name.component? with
    | none => rfl
    | some own =>
      refine congrArg (fun usage => [usage]) ?_
      exact withSlots_body body hBodyText hOpened hBehind hAfter hBodySpans rfl rfl
  | selfClosing name attributes next ih =>
    intro before rest pos hText hBefore hRest hSpans
    generalize hStop : pos + Text.byteLength (startTag true name.text attributes) = stop
    rw [Template.source, Text.byteLength_append, ← Nat.add_assoc, hStop] at hSpans
    have hClosed : Text.byteLength (before ++ startTag true name.text attributes) = stop := by
      rw [Text.byteLength_append, hBefore, hStop]
    have hNext := ih (by rw [hText, Template.source]; simp) hClosed hRest
      (within_selfClosing hStop hSpans)
    rw [Template.usages, hStop, List.map_append, List.map_append, hNext]
    cases name.component? <;> rfl
  | void name attributes next ih =>
    intro before rest pos hText hBefore hRest hSpans
    generalize hStop : pos + Text.byteLength (startTag false name.1 attributes) = stop
    rw [Template.source, Text.byteLength_append, ← Nat.add_assoc, Template.spans, hStop] at hSpans
    have hClosed : Text.byteLength (before ++ startTag false name.1 attributes) = stop := by
      rw [Text.byteLength_append, hBefore, hStop]
    rw [Template.usages, hStop]
    refine ih (by rw [hText, Template.source]; simp) hClosed hRest ?_
    have hOwn := within_spans next stop
    rw [← within_within (show pos ≤ stop by omega) (Nat.le_refl _), hSpans, hOwn]

/-- The uses that are found in the text of a template are those of its components. -/
theorem Template.usagesOf_source (template : Template true) :
    usagesOf template.source = template.usages 0 := by
  have hBare := bareUsages_template template 0 [] nofun
  have hSpans : ((template.usages 0).map bare).map
      (fun usage => (usage.openTagStart, usage.blockEnd)) = template.spans 0 := by
    rw [List.map_map]
    exact template.spans_eq 0
  rw [List.append_nil, bareUsages, List.append_nil] at hBare
  rw [usagesOf, hBare]
  simp only [hSpans]
  have hText : template.source = [] ++ (template.source ++ []) := (List.append_nil _).symm
  exact map_withSlots template hText Text.byteLength_nil nofun (within_spans template 0)

end PhoenixLens.Markup
