import PhoenixLens.Proofs.Markup.MarkedText
import PhoenixLens.Proofs.Markup.Uses

/-!
# What stands inside of values, expressions and comments

In the text of a template some characters stand inside of a region: of a quoted value, of an
expression in braces, of a comment or of embedded code. As long as no tag begins in the regions,
what they hold does not matter to where uses and slots are found.
-/

namespace PhoenixLens.Markup

/-! ### Regions of a text -/

/-- A region, from the first character of its inside to the end of it, and where the text goes on
behind what closes it. -/
structure Region where
  start : Nat
  stop : Nat
  behind : Nat

/-- The comment, the embedded code or the expression that a text begins with. -/
def regionAt? (pos : Nat) (cs : List Char) : Option Region :=
  match Text.stripPrefix? "<!--" cs with
  | some rest =>
    (Text.offsetOf? ['-', '-', '>'] (pos + 4) rest).map fun stop => ⟨pos + 4, stop, stop + 3⟩
  | none =>
    match Text.stripPrefix? "<%" cs with
    | some rest =>
      (Text.offsetOf? ['%', '>'] (pos + 2) rest).map fun stop => ⟨pos + 2, stop, stop + 2⟩
    | none =>
      if cs.head? == some '{' then
        (expressionEnd? pos cs).map fun behind => ⟨pos + 1, behind - 1, behind⟩
      else none

/-- Marks what stands inside of comments, of embedded code and of expressions. -/
def markText (text : List Char) : MarkedText :=
  go ⟨0, 0, 0⟩ 0 text
where
  /-- Continues in a region or behind it. -/
  go (region : Region) (pos : Nat) : List Char → MarkedText
    | [] => []
    | c :: cs =>
      let next := pos + c.utf8Size
      if pos < region.behind then
        (c, region.start ≤ pos && pos < region.stop) :: go region next cs
      else (c, false) :: go ((regionAt? pos (c :: cs)).getD region) next cs

theorem chars_markText_go (region : Region) (pos : Nat) (text : List Char) :
    (markText.go region pos text).chars = text := by
  induction text generalizing region pos with
  | nil => rfl
  | cons c text ih =>
    rw [markText.go]
    split
    · rw [MarkedText.chars_cons, ih]
    · rw [MarkedText.chars_cons, ih]

@[simp]
theorem chars_markText (text : List Char) : (markText text).chars = text :=
  chars_markText_go _ _ _

theorem not_isBlank_of_regionAt? {pos : Nat} {c : Char} {cs : List Char} {region : Region}
    (h : regionAt? pos (c :: cs) = some region) : Text.isBlank c = false := by
  rw [← Bool.not_eq_true]
  intro hBlank
  have hAngle : '<' ≠ c := by
    rintro rfl
    exact absurd hBlank (by decide)
  have hBrace : c ≠ '{' := by
    rintro rfl
    exact absurd hBlank (by decide)
  rw [regionAt?, Text.stripPrefix?_eq_none rfl hAngle, Text.stripPrefix?_eq_none rfl hAngle] at h
  simp [hBrace] at h

/-- What opens a region is seen, so a text of white space is told from any other. -/
theorem allBlank_blanked_go {region : Region} {pos : Nat} (h : region.behind ≤ pos)
    (text : List Char) :
    Text.allBlank (markText.go region pos text).blanked = Text.allBlank text := by
  induction text generalizing region pos with
  | nil => rfl
  | cons c text ih =>
    rw [markText.go, if_neg (Nat.not_lt.mpr h), MarkedText.blanked, Text.allBlank, List.all_cons,
      Text.allBlank, List.all_cons]
    cases hRegion : regionAt? pos (c :: text) with
    | none => exact congrArg _ (ih (Nat.le_add_right_of_le h))
    | some next => rw [not_isBlank_of_regionAt? hRegion, Bool.false_and, Bool.false_and]

/-! ### Regions of a template -/

/-- Marks what stands between the braces. -/
def Expression.marked (value : Expression) : MarkedText :=
  .outside (value.1.take 1) ++
    (.inside value.1.tail.dropLast ++ .outside value.1.tail.getLast?.toList)

def TagAttribute.marked : TagAttribute → MarkedText
  | bare name => .outside name.1
  | quoted name value => .outside (name.1 ++ ['=', '"']) ++ (.inside value.1 ++ .outside ['"'])
  | expression name value => .outside (name.1 ++ ['=']) ++ Expression.marked value
  | spread value => Expression.marked value

def TagAttributes.marked (written : TagAttributes) : MarkedText :=
  written.attributes.flatMap (fun (gap, given) => .outside gap.1 ++ given.marked) ++
    .outside written.ending.1

def markedTag (selfClosing : Bool) (name : List Char) (attributes : TagAttributes) : MarkedText :=
  .outside ('<' :: name) ++ (attributes.marked ++ .outside (tagEnding selfClosing))

def Template.marked : {texts : Bool} → Template texts → MarkedText
  | _, done => []
  | _, text own next => markText own.1 ++ next.marked
  | _, block name attributes body next =>
    markedTag false name.text attributes ++
      (body.marked ++ (.outside (closeTag name.text) ++ next.marked))
  | _, selfClosing name attributes next => markedTag true name.text attributes ++ next.marked
  | _, void name attributes next => markedTag false name.1 attributes ++ next.marked

/-! ### The same template with spaces in its regions -/

def PlainText.blank (own : PlainText) : PlainText :=
  ⟨(markText own.1).blanked, MarkedText.hasNoTag_blanked ((chars_markText own.1).symm ▸ own.2)⟩

theorem notMem_spaces {c : Char} (h : c ≠ ' ') (n : Nat) : c ∉ List.replicate n ' ' :=
  fun hMem => h (List.eq_of_mem_replicate hMem)

def QuotedText.blank (value : QuotedText) : QuotedText :=
  ⟨List.replicate (Text.byteLength value.1) ' ', notMem_spaces (by decide) _,
    hasNoTag_of_not_mem (notMem_spaces (by decide) _)⟩

/-- An expression is a brace, its inside and what closes it. -/
theorem Expression.parts (value : Expression) :
    ∃ inner c, value.1 = '{' :: (inner ++ [c]) ∧ Elixir.isClosing c = true := by
  obtain ⟨inner, hText⟩ := value.2.1
  have hEnd := value.2.2.1
  rw [expressionEnd?, ← Nat.zero_add (Text.byteLength value.1)] at hEnd
  obtain ⟨before, c, hLast, hClosing⟩ := IsTagless.expressionEnd?_go_last hEnd
  cases before with
  | nil =>
    cases hText.symm.trans hLast
    cases hClosing
  | cons first before =>
    cases hText.symm.trans hLast
    exact ⟨before, c, hLast, hClosing⟩

theorem expressionEnd?_go_spaces {c : Char} (h : Elixir.isClosing c = true) (n pos : Nat) :
    expressionEnd?.go .code 1 pos (List.replicate n ' ' ++ [c]) = some (pos + n + c.utf8Size) := by
  induction n generalizing pos with
  | zero =>
    have hOpening : Elixir.isOpening c = false := by
      simp only [Elixir.isClosing, Bool.or_eq_true, beq_iff_eq] at h
      obtain (rfl | rfl) | rfl := h <;> rfl
    rw [List.replicate_zero, List.nil_append, expressionEnd?.go, if_neg (by simp [hOpening]),
      if_pos h, if_pos (Nat.le_refl 1), Nat.add_zero]
  | succ n ih =>
    have hSize : (' ' : Char).utf8Size = 1 := rfl
    rw [List.replicate_succ, List.cons_append, expressionEnd?.go, if_neg (by decide),
      if_neg (by decide), hSize]
    refine (ih (pos + 1)).trans ?_
    rw [Nat.add_assoc pos 1 n, Nat.add_comm 1 n]

theorem Expression.blanked_marked {value : Expression} {inner : List Char} {c : Char}
    (hParts : value.1 = '{' :: (inner ++ [c])) :
    (Expression.marked value).blanked =
      '{' :: (List.replicate (Text.byteLength inner) ' ' ++ [c]) := by
  rw [Expression.marked, hParts]
  simp

def Expression.blank (value : Expression) : Expression :=
  ⟨(Expression.marked value).blanked, by
    obtain ⟨inner, c, hParts, hClosing⟩ := Expression.parts value
    rw [Expression.blanked_marked hParts]
    refine ⟨⟨_, rfl⟩, ?_, hasNoTag_of_not_mem ?_⟩
    · have hSize : ('{' : Char).utf8Size = 1 := rfl
      rw [expressionEnd?, expressionEnd?.go, if_pos (by decide), expressionEnd?_go_spaces hClosing,
        Text.byteLength_cons, Text.byteLength_append, MarkedText.byteLength_spaces]
      simp [Nat.add_assoc]
    · have hLast : '<' ≠ c := by
        rintro rfl
        cases hClosing
      simp [hLast]⟩

def TagAttribute.blank : TagAttribute → TagAttribute
  | bare name => bare name
  | quoted name value => quoted name (QuotedText.blank value)
  | expression name value => expression name (Expression.blank value)
  | spread value => spread (Expression.blank value)

def TagAttributes.blank (written : TagAttributes) : TagAttributes :=
  { written with attributes := written.attributes.map fun (gap, given) => (gap, given.blank) }

/-- The template with spaces in its regions. -/
def Template.blank : {texts : Bool} → Template texts → Template texts
  | _, done => done
  | _, text own next => text (PlainText.blank own) next.blank
  | _, block name attributes body next => block name attributes.blank body.blank next.blank
  | _, selfClosing name attributes next => selfClosing name attributes.blank next.blank
  | _, void name attributes next => void name attributes.blank next.blank

theorem Expression.chars_marked (value : Expression) :
    (Expression.marked value).chars = value.1 := by
  obtain ⟨inner, c, hParts, _⟩ := Expression.parts value
  rw [Expression.marked, hParts]
  simp

theorem TagAttribute.chars_marked (given : TagAttribute) : given.marked.chars = given.text := by
  cases given with
  | bare name => exact MarkedText.chars_outside _
  | quoted name value => simp [TagAttribute.marked, TagAttribute.text]
  | expression name value => simp [TagAttribute.marked, TagAttribute.text, Expression.chars_marked]
  | spread value => exact Expression.chars_marked value

theorem TagAttribute.blanked_marked (given : TagAttribute) :
    given.marked.blanked = given.blank.text := by
  cases given with
  | bare name => exact MarkedText.blanked_outside _
  | quoted name value =>
    simp [TagAttribute.marked, TagAttribute.blank, TagAttribute.text, QuotedText.blank]
  | expression name value =>
    simp [TagAttribute.marked, TagAttribute.blank, TagAttribute.text, Expression.blank]
  | spread value => rfl

theorem TagAttributes.chars_marked (written : TagAttributes) :
    written.marked.chars = written.text := by
  obtain ⟨attributes, ending⟩ := written
  rw [TagAttributes.marked, TagAttributes.text, MarkedText.chars_append, MarkedText.chars_outside]
  congr 1
  induction attributes with
  | nil => rfl
  | cons first attributes ih =>
    rw [List.flatMap_cons, List.flatMap_cons, MarkedText.chars_append, ih]
    simp [TagAttribute.chars_marked]

theorem TagAttributes.blanked_marked (written : TagAttributes) :
    written.marked.blanked = written.blank.text := by
  obtain ⟨attributes, ending⟩ := written
  rw [TagAttributes.marked, TagAttributes.text, MarkedText.blanked_append,
    MarkedText.blanked_outside, TagAttributes.blank]
  congr 1
  induction attributes with
  | nil => rfl
  | cons first attributes ih =>
    rw [List.flatMap_cons, MarkedText.blanked_append, ih, List.map_cons, List.flatMap_cons]
    simp [TagAttribute.blanked_marked]

theorem chars_markedTag (selfClosing : Bool) (name : List Char) (attributes : TagAttributes) :
    (markedTag selfClosing name attributes).chars = startTag selfClosing name attributes := by
  simp [markedTag, startTag, TagAttributes.chars_marked]

theorem blanked_markedTag (selfClosing : Bool) (name : List Char) (attributes : TagAttributes) :
    (markedTag selfClosing name attributes).blanked =
      startTag selfClosing name attributes.blank := by
  simp [markedTag, startTag, TagAttributes.blanked_marked]

namespace Template

theorem chars_marked {texts : Bool} (template : Template texts) :
    template.marked.chars = template.source := by
  induction template with
  | done => rfl
  | text own next ih => simp [marked, source, ih]
  | block name attributes body next ihBody ihNext =>
    simp [marked, source, chars_markedTag, ihBody, ihNext]
  | selfClosing name attributes next ih => simp [marked, source, chars_markedTag, ih]
  | void name attributes next ih => simp [marked, source, chars_markedTag, ih]

theorem blanked_marked {texts : Bool} (template : Template texts) :
    template.marked.blanked = template.blank.source := by
  induction template with
  | done => rfl
  | text own next ih => simp [marked, blank, source, ih, PlainText.blank]
  | block name attributes body next ihBody ihNext =>
    simp [marked, blank, source, blanked_markedTag, ihBody, ihNext]
  | selfClosing name attributes next ih => simp [marked, blank, source, blanked_markedTag, ih]
  | void name attributes next ih => simp [marked, blank, source, blanked_markedTag, ih]

theorem byteLength_blank {texts : Bool} (template : Template texts) :
    Text.byteLength template.blank.source = Text.byteLength template.source := by
  rw [← blanked_marked, MarkedText.byteLength_blanked, chars_marked]

end Template

theorem byteLength_blank_text (own : PlainText) :
    Text.byteLength (PlainText.blank own).1 = Text.byteLength own.1 := by
  rw [PlainText.blank, MarkedText.byteLength_blanked, chars_markText]

theorem byteLength_startTag_blank (selfClosing : Bool) (name : List Char)
    (attributes : TagAttributes) :
    Text.byteLength (startTag selfClosing name attributes.blank) =
      Text.byteLength (startTag selfClosing name attributes) := by
  rw [← blanked_markedTag, MarkedText.byteLength_blanked, chars_markedTag]

theorem byteLength_blank_attribute (given : TagAttribute) :
    Text.byteLength given.blank.text = Text.byteLength given.text := by
  rw [← TagAttribute.blanked_marked, MarkedText.byteLength_blanked, TagAttribute.chars_marked]

/-! ### What is found -/

def withoutValue (given : UsageAttribute) : UsageAttribute :=
  { given with value := given.value.map fun _ => "" }

def slotWithoutValues (slot : UsageSlot) : UsageSlot :=
  { slot with attributes := slot.attributes.map withoutValue }

/-- The use with all ranges and names, but without the texts of values. -/
def usageWithoutValues (usage : ComponentUsage) : ComponentUsage :=
  { usage with
    attributes := usage.attributes.map withoutValue
    slots := usage.slots.map slotWithoutValues }

theorem map_withoutValue_given? (given : TagAttribute) (pos : Nat) :
    (given.blank.given? pos).map withoutValue = (given.given? pos).map withoutValue := by
  cases given with
  | bare name => rfl
  | quoted name value =>
    simp [TagAttribute.blank, TagAttribute.given?, withoutValue, QuotedText.blank,
      MarkedText.byteLength_spaces]
  | expression name value =>
    have hLength : Text.byteLength (Expression.blank value).1 = Text.byteLength value.1 :=
      byteLength_blank_attribute (.spread value)
    simp [TagAttribute.blank, TagAttribute.given?, withoutValue, hLength]
  | spread value => rfl

theorem map_withoutValue_givenAttributes (attributes : List (TagGap × TagAttribute)) (pos : Nat) :
    (givenAttributes pos (attributes.map fun (gap, given) => (gap, given.blank))).map
        withoutValue = (givenAttributes pos attributes).map withoutValue := by
  induction attributes generalizing pos with
  | nil => rfl
  | cons first attributes ih =>
    obtain ⟨gap, given⟩ := first
    rw [List.map_cons, givenAttributes, givenAttributes, List.map_append, List.map_append, ih,
      byteLength_blank_attribute, ← Option.toList_map, ← Option.toList_map, map_withoutValue_given?]

theorem slotWithoutValues_blank (pos : Nat) (name : Identifier) (attributes : TagAttributes)
    (openTagEnd stop : Nat) (selfClosing : Bool) :
    slotWithoutValues (slotAt pos name attributes.blank openTagEnd stop selfClosing) =
      slotWithoutValues (slotAt pos name attributes openTagEnd stop selfClosing) := by
  rw [slotAt, slotAt, slotWithoutValues, slotWithoutValues]
  simp only [TagAttributes.blank, map_withoutValue_givenAttributes]

theorem usageWithoutValues_blank (pos : Nat) (name : ComponentName) (attributes : TagAttributes)
    (openTagEnd blockEnd : Nat) :
    usageWithoutValues (usageWithout pos name attributes.blank openTagEnd blockEnd) =
      usageWithoutValues (usageWithout pos name attributes openTagEnd blockEnd) := by
  rw [usageWithout, usageWithout, usageWithoutValues, usageWithoutValues]
  simp only [TagAttributes.blank, map_withoutValue_givenAttributes]

namespace Template

theorem map_slots_blank {texts : Bool} (template : Template texts) (pos : Nat) :
    (template.blank.slots pos).map slotWithoutValues =
      (template.slots pos).map slotWithoutValues := by
  induction template generalizing pos with
  | done => rfl
  | text own next ih =>
    rw [blank, slots, slots, byteLength_blank_text, ih]
  | block name attributes body next ihBody ihNext =>
    rw [blank, slots, slots, byteLength_startTag_blank, byteLength_blank, List.map_append,
      List.map_append, ihNext]
    congr 1
    cases name with
    | element name => exact ihBody _
    | component name => rfl
    | slot name => exact congrArg (fun slot => [slot]) (slotWithoutValues_blank ..)
  | selfClosing name attributes next ih =>
    rw [blank, slots, slots, byteLength_startTag_blank, List.map_append, List.map_append, ih]
    congr 1
    cases name with
    | slot name => exact congrArg (fun slot => [slot]) (slotWithoutValues_blank ..)
    | _ => rfl
  | void name attributes next ih => rw [blank, slots, slots, byteLength_startTag_blank, ih]

theorem hasContent_blank {texts : Bool} (template : Template texts) :
    template.blank.hasContent = template.hasContent := by
  induction template with
  | done => rfl
  | text own next ih =>
    have hBlank : Text.allBlank (PlainText.blank own).1 = Text.allBlank own.1 :=
      allBlank_blanked_go (Nat.le_refl 0) own.1
    rw [blank, hasContent, hasContent, hBlank, ih]
  | block name attributes body next _ ih => rw [blank, hasContent, hasContent, ih]
  | selfClosing name attributes next ih => rw [blank, hasContent, hasContent, ih]
  | void name attributes next ih => rfl

theorem providedNames_blank {texts : Bool} (template : Template texts) (pos : Nat) :
    template.blank.providedNames pos = template.providedNames pos := by
  have hNames : (template.blank.slots pos).map UsageSlot.name =
      (template.slots pos).map UsageSlot.name := by
    have hSlots := congrArg (List.map UsageSlot.name) (map_slots_blank template pos)
    rwa [List.map_map, List.map_map] at hSlots
  rw [providedNames, providedNames, hNames, hasContent_blank]

theorem map_usages_blank {texts : Bool} (template : Template texts) (pos : Nat) :
    (template.blank.usages pos).map usageWithoutValues =
      (template.usages pos).map usageWithoutValues := by
  induction template generalizing pos with
  | done => rfl
  | text own next ih =>
    rw [blank, usages, usages, byteLength_blank_text, ih]
  | block name attributes body next ihBody ihNext =>
    rw [blank, usages, usages, byteLength_startTag_blank, byteLength_blank, List.map_append,
      List.map_append, List.map_append, List.map_append, ihBody, ihNext]
    congr 1
    cases name with
    | component name =>
      refine congrArg (fun usage => [usage]) ?_
      simp only [usageWithoutValues, usageWithout, TagAttributes.blank,
        map_withoutValue_givenAttributes, map_slots_blank, providedNames_blank]
    | _ => rfl
  | selfClosing name attributes next ih =>
    rw [blank, usages, usages, byteLength_startTag_blank, List.map_append, List.map_append, ih]
    congr 1
    cases name with
    | component name => exact congrArg (fun usage => [usage]) (usageWithoutValues_blank ..)
    | _ => rfl
  | void name attributes next ih => rw [blank, usages, usages, byteLength_startTag_blank, ih]

end Template

/-! ### Where uses and slots start -/

namespace MarkedText.StandsAt

variable {marked : MarkedText} {pos : Nat}

/-- A tag begins outside of all regions. -/
theorem marksAt_tag {selfClosing : Bool} {name : List Char} {attributes : TagAttributes}
    (h : marked.StandsAt (markedTag selfClosing name attributes) pos) :
    marked.MarksAt pos false := by
  obtain ⟨before, after, hMarked, hBefore⟩ := h
  exact ⟨before, '<', _, hMarked, hBefore⟩

theorem block {texts : Bool} {name : WrittenName} {attributes : TagAttributes}
    {body next : Template true} {inside behind stop : Nat}
    (h : marked.StandsAt (Template.block name attributes body next : Template texts).marked pos)
    (hInside : pos + Text.byteLength (startTag false name.text attributes) = inside)
    (hBehind : inside + Text.byteLength body.source = behind)
    (hStop : behind + Text.byteLength (closeTag name.text) = stop) :
    marked.StandsAt body.marked inside ∧ marked.StandsAt next.marked stop := by
  rw [← chars_markedTag] at hInside
  rw [← body.chars_marked] at hBehind
  rw [← chars_outside (closeTag name.text)] at hStop
  have hBody := h.right hInside
  exact ⟨hBody.left, (hBody.right hBehind).right hStop⟩

theorem selfClosing {texts : Bool} {name : WrittenName} {attributes : TagAttributes}
    {next : Template true}
    (h : marked.StandsAt (Template.selfClosing name attributes next : Template texts).marked pos) :
    marked.StandsAt next.marked
      (pos + Text.byteLength (startTag true name.text attributes)) :=
  h.right (by rw [chars_markedTag])

theorem void {texts : Bool} {name : ElementName} {attributes : TagAttributes}
    {next : Template true}
    (h : marked.StandsAt (Template.void name attributes next : Template texts).marked pos) :
    marked.StandsAt next.marked (pos + Text.byteLength (startTag false name.1 attributes)) :=
  h.right (by rw [chars_markedTag])

theorem text {own : PlainText} {next : Template false}
    (h : marked.StandsAt (Template.text own next).marked pos) :
    marked.StandsAt next.marked (pos + Text.byteLength own.1) :=
  h.right (by rw [chars_markText])

end MarkedText.StandsAt

namespace Template

theorem marksAt_slots {texts : Bool} (template : Template texts) {marked : MarkedText}
    {pos : Nat} (h : marked.StandsAt template.marked pos) :
    ∀ slot ∈ template.slots pos, marked.MarksAt slot.start false := by
  induction template generalizing pos with
  | done => nofun
  | text own next ih => exact ih h.text
  | block name attributes body next ihBody ihNext =>
    obtain ⟨hBody, hNext⟩ := h.block rfl rfl rfl
    intro slot hSlot
    obtain hOwn | hLater := List.mem_append.mp hSlot
    · cases name with
      | element name => exact ihBody hBody slot hOwn
      | component name => cases hOwn
      | slot name =>
        rw [List.mem_singleton.mp hOwn]
        exact h.left.marksAt_tag
    · exact ihNext hNext slot hLater
  | selfClosing name attributes next ih =>
    intro slot hSlot
    obtain hOwn | hLater := List.mem_append.mp hSlot
    · obtain ⟨_, _, rfl⟩ := Option.map_eq_some_iff.mp (Option.mem_toList.mp hOwn)
      exact h.left.marksAt_tag
    · exact ih h.selfClosing slot hLater
  | void name attributes next ih => exact ih h.void

theorem marksAt_usages {texts : Bool} (template : Template texts) {marked : MarkedText}
    {pos : Nat} (h : marked.StandsAt template.marked pos) :
    ∀ usage ∈ template.usages pos, marked.MarksAt usage.openTagStart false ∧
      ∀ slot ∈ usage.slots, marked.MarksAt slot.start false := by
  induction template generalizing pos with
  | done => nofun
  | text own next ih => exact ih h.text
  | block name attributes body next ihBody ihNext =>
    obtain ⟨hBody, hNext⟩ := h.block rfl rfl rfl
    intro usage hUsage
    obtain hOwn | hMore := List.mem_append.mp hUsage
    · obtain ⟨_, _, rfl⟩ := Option.map_eq_some_iff.mp (Option.mem_toList.mp hOwn)
      exact ⟨h.left.marksAt_tag, marksAt_slots body hBody⟩
    · obtain hInner | hLater := List.mem_append.mp hMore
      · exact ihBody hBody usage hInner
      · exact ihNext hNext usage hLater
  | selfClosing name attributes next ih =>
    intro usage hUsage
    obtain hOwn | hLater := List.mem_append.mp hUsage
    · obtain ⟨_, _, rfl⟩ := Option.map_eq_some_iff.mp (Option.mem_toList.mp hOwn)
      exact ⟨h.left.marksAt_tag, nofun⟩
    · exact ih h.selfClosing usage hLater
  | void name attributes next ih => exact ih h.void

/-- Where no tag begins in the regions of a template, no use and no slot starts in one of them, and
with spaces in place of what the regions hold the same is found at the same places, but for the
texts of values. -/
theorem usagesOf_blanked (template : Template true) :
    template.marked.chars = template.source ∧
      (∀ usage ∈ usagesOf template.source,
        ¬template.marked.MarksAt usage.openTagStart true ∧
          ∀ slot ∈ usage.slots, ¬template.marked.MarksAt slot.start true) ∧
      (usagesOf template.marked.blanked).map usageWithoutValues =
        (usagesOf template.source).map usageWithoutValues := by
  have hStands : template.marked.StandsAt template.marked 0 :=
    ⟨[], [], (List.append_nil _).symm, rfl⟩
  rw [blanked_marked, usagesOf_source, usagesOf_source]
  refine ⟨template.chars_marked, fun usage hUsage => ?_, map_usages_blank template 0⟩
  obtain ⟨hUse, hSlots⟩ := marksAt_usages template hStands usage hUsage
  exact ⟨hUse.not_inside, fun slot hSlot => (hSlots slot hSlot).not_inside⟩

end Template

/-- A tag in a comment is found all the same, and is not if spaces stand in its place. -/
theorem usagesOf_commented_out :
    let text := "<!-- <.foo /> -->".toList
    (markText text).MarksAt 5 true ∧
      (usagesOf text).map (fun usage => (usage.componentName, usage.openTagStart)) = [("foo", 5)] ∧
      usagesOf (markText text).blanked = [] := by
  intro text
  refine ⟨⟨(markText text).take 5, '<', (markText text).drop 6, ?_, ?_⟩, ?_, ?_⟩
  · decide
  · decide
  · decide
  · decide

end PhoenixLens.Markup
