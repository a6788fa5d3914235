import PhoenixLens.Proofs.Markup.Uses

/-!
# Components around an offset

The components of a template around an offset are found by going down its tree: at each level into
the tag whose block contains the offset. The blocks of the components that are met on the way lie in
each other. Keeping the blocks that contain the offset, out of those found in the text, and sorting
them by their ends gives the same components in the same order.
-/

namespace PhoenixLens.Markup

variable {texts : Bool} {pos inside behind stop offset : Nat}

/-- The offset stands in the block of the tag, which its end is not a part of. -/
def StandsInBlock (offset : Nat) (usage : ComponentUsage) : Prop :=
  usage.openTagStart ≤ offset ∧ offset < usage.blockEnd

instance (offset : Nat) (usage : ComponentUsage) : Decidable (StandsInBlock offset usage) :=
  inferInstanceAs (Decidable (_ ∧ _))

/-- The block of one use begins and ends strictly inside the block of the other. -/
def EnclosesUse (outer inner : ComponentUsage) : Prop :=
  outer.openTagStart < inner.openTagStart ∧ inner.blockEnd < outer.blockEnd

def blockLength (usage : ComponentUsage) : Nat := usage.blockEnd - usage.openTagStart

namespace Template

/-- The use of a component that has a closing tag. -/
def blockUsage? (pos : Nat) (name : WrittenName) (attributes : TagAttributes)
    (body : Template true) : Option ComponentUsage :=
  let inside := pos + Text.byteLength (startTag false name.text attributes)
  let behind := inside + Text.byteLength body.source
  let stop := behind + Text.byteLength (closeTag name.text)
  name.component?.map fun name =>
    { usageWithout pos name attributes inside stop with
      slots := body.slots inside
      selfClosing := false
      contentStart := some inside
      contentEnd := some behind
      providedSlotNames := body.providedNames inside }

/-- The components of a template around an offset, from the outside in. -/
def usagesAround (offset : Nat) : {texts : Bool} → Nat → Template texts → List ComponentUsage
  | _, _, done => []
  | _, pos, text own next => next.usagesAround offset (pos + Text.byteLength own.1)
  | _, pos, block name attributes body next =>
    let inside := pos + Text.byteLength (startTag false name.text attributes)
    let stop := inside + Text.byteLength body.source + Text.byteLength (closeTag name.text)
    if pos ≤ offset ∧ offset < stop then
      (blockUsage? pos name attributes body).toList ++ body.usagesAround offset inside
    else next.usagesAround offset stop
  | _, pos, selfClosing name attributes next =>
    let stop := pos + Text.byteLength (startTag true name.text attributes)
    if pos ≤ offset ∧ offset < stop then
      (name.component?.map fun name => usageWithout pos name attributes stop stop).toList
    else next.usagesAround offset stop
  | _, pos, void name attributes next =>
    next.usagesAround offset (pos + Text.byteLength (startTag false name.1 attributes))

/-! ### Blocks -/

theorem usage_bounds (template : Template texts) (pos : Nat) :
    ∀ usage ∈ template.usages pos, pos ≤ usage.openTagStart ∧
      usage.openTagStart < usage.blockEnd ∧
      usage.blockEnd ≤ pos + Text.byteLength template.source := by
  intro usage hUsage
  have hSpan := List.mem_map_of_mem (f := fun u => (u.openTagStart, u.blockEnd)) hUsage
  rw [template.spans_eq] at hSpan
  exact template.span_bounds pos _ hSpan

theorem blockUsage?_ends {name : WrittenName} {attributes : TagAttributes} {body : Template true}
    (hInside : pos + Text.byteLength (startTag false name.text attributes) = inside)
    (hBehind : inside + Text.byteLength body.source = behind)
    (hStop : behind + Text.byteLength (closeTag name.text) = stop) :
    ∀ usage ∈ blockUsage? pos name attributes body,
      usage.openTagStart = pos ∧ usage.blockEnd = stop := by
  intro usage hUsage
  rw [blockUsage?, hInside, hBehind, hStop] at hUsage
  obtain ⟨own, -, rfl⟩ := Option.map_eq_some_iff.mp hUsage
  exact ⟨rfl, rfl⟩

theorem filter_usages_eq_nil (template : Template texts)
    (h : offset < pos ∨ pos + Text.byteLength template.source ≤ offset) :
    (template.usages pos).filter (StandsInBlock offset ·) = [] := by
  rw [List.filter_eq_nil_iff]
  intro usage hUsage
  obtain ⟨hStart, -, hStop⟩ := template.usage_bounds pos usage hUsage
  rw [decide_eq_true_eq]
  rintro ⟨hFirst, hLast⟩
  omega

theorem filter_own {own : Option ComponentUsage} (offset : Nat)
    (h : ∀ usage ∈ own, usage.openTagStart = pos ∧ usage.blockEnd = stop) :
    own.toList.filter (StandsInBlock offset ·) =
      if pos ≤ offset ∧ offset < stop then own.toList else [] := by
  cases own with
  | none => simp
  | some usage =>
    obtain ⟨rfl, rfl⟩ := h usage rfl
    split
    · rename_i hHere
      exact List.filter_eq_self.mpr (List.forall_mem_singleton.mpr (decide_eq_true hHere))
    · rename_i hNot
      apply List.filter_eq_nil_iff.mpr
      exact List.forall_mem_singleton.mpr fun hOwn => hNot (of_decide_eq_true hOwn)

/-- Going down the tree leads to the components whose blocks contain the offset. -/
theorem filter_usages {texts : Bool} (template : Template texts) (pos : Nat) :
    (template.usages pos).filter (StandsInBlock offset ·) = template.usagesAround offset pos := by
  induction template generalizing pos with
  | done => rfl
  | text own next ih => exact ih _
  | @block texts name attributes body next ihBody ihNext =>
    generalize hInside : pos + Text.byteLength (startTag false name.text attributes) = inside
    generalize hBehind : inside + Text.byteLength body.source = behind
    generalize hStop : behind + Text.byteLength (closeTag name.text) = stop
    have hOwn := filter_own offset (blockUsage?_ends hInside hBehind hStop)
    have hOpen := byteLength_startTag_pos false name.text attributes
    have hClose := byteLength_closeTag_pos name.text
    have hUsages : (block name attributes body next : Template texts).usages pos =
        (blockUsage? pos name attributes body).toList ++
          (body.usages inside ++ next.usages stop) := by
      rw [← hStop, ← hBehind, ← hInside]
      rfl
    rw [hUsages, usagesAround, hInside, hBehind, hStop, List.filter_append, List.filter_append,
      hOwn]
    -- An offset in the block is not behind it, and one outside of it is not in its body.
    split
    · rename_i hHere
      rw [ihBody, next.filter_usages_eq_nil (.inl hHere.2), List.append_nil]
    · rename_i hElsewhere
      rw [ihNext, body.filter_usages_eq_nil (by omega)]
      rfl
  | selfClosing name attributes next ih =>
    generalize hStop : pos + Text.byteLength (startTag true name.text attributes) = stop
    have hOwn : ∀ usage ∈ name.component?.map fun name =>
        usageWithout pos name attributes stop stop,
          usage.openTagStart = pos ∧ usage.blockEnd = stop := by
      intro usage hUsage
      obtain ⟨own, -, rfl⟩ := Option.map_eq_some_iff.mp hUsage
      exact ⟨rfl, rfl⟩
    rw [usages, usagesAround, hStop, List.filter_append, filter_own offset hOwn]
    split
    · rename_i hHere
      rw [next.filter_usages_eq_nil (.inl hHere.2), List.append_nil]
    · rw [ih]
      rfl
  | void name attributes next ih => exact ih _

theorem mem_usagesAround {template : Template texts} {usage : ComponentUsage} :
    usage ∈ template.usagesAround offset pos ↔
      usage ∈ template.usages pos ∧ StandsInBlock offset usage := by
  rw [← filter_usages, List.mem_filter, decide_eq_true_eq]

theorem pairwise_usagesAround (template : Template texts) (offset pos : Nat) :
    (template.usagesAround offset pos).Pairwise EnclosesUse := by
  induction template generalizing pos with
  | done => exact .nil
  | text own next ih => exact ih _
  | block name attributes body next ihBody ihNext =>
    generalize hInside : pos + Text.byteLength (startTag false name.text attributes) = inside
    generalize hBehind : inside + Text.byteLength body.source = behind
    generalize hStop : behind + Text.byteLength (closeTag name.text) = stop
    have hEnds := blockUsage?_ends hInside hBehind hStop
    have hOpen := byteLength_startTag_pos false name.text attributes
    have hClose := byteLength_closeTag_pos name.text
    rw [usagesAround, hInside, hBehind, hStop]
    split
    · rw [List.pairwise_append]
      refine ⟨?_, ihBody inside, ?_⟩
      · cases blockUsage? pos name attributes body with
        | none => exact .nil
        | some usage => exact List.pairwise_singleton _ _
      · intro outer hOuter inner hInner
        obtain ⟨hStart, hEnd⟩ := hEnds outer (Option.mem_toList.mp hOuter)
        have hBounds := body.usage_bounds inside inner (mem_usagesAround.mp hInner).1
        constructor <;> omega
    · exact ihNext stop
  | selfClosing name attributes next ih =>
    rw [usagesAround]
    split
    · cases name.component? with
      | none => exact .nil
      | some own => exact List.pairwise_singleton _ _
    · exact ih _
  | void name attributes next ih => exact ih _

end Template

/-! ### Stacks -/

theorem contains_eq {usage : ComponentUsage} (h : usage.blockEnd ≠ offset) :
    usage.contains offset = decide (StandsInBlock offset usage) := by
  rw [Bool.eq_iff_iff, ComponentUsage.contains, Bool.and_eq_true, decide_eq_true_eq,
    decide_eq_true_eq, decide_eq_true_eq]
  constructor
  · rintro ⟨hStart, hEnd⟩
    exact ⟨hStart, by omega⟩
  · rintro ⟨hStart, hEnd⟩
    exact ⟨hStart, Nat.le_of_lt hEnd⟩

theorem usageStack_of_pairwise {usages : List ComponentUsage}
    (h : (usages.filter (·.contains offset)).Pairwise EnclosesUse) :
    usageStack usages offset = usages.filter (·.contains offset) := by
  rw [usageStack]
  apply List.mergeSort_of_pairwise
  apply h.imp
  intro outer inner hOuter
  simp [hOuter.1]

theorem EnclosesUse.blockLength_lt {outer inner : ComponentUsage} (h : EnclosesUse outer inner)
    (hInner : StandsInBlock offset inner) : blockLength inner < blockLength outer := by
  obtain ⟨hStart, hEnd⟩ := h
  obtain ⟨hFirst, hLast⟩ := hInner
  rw [blockLength, blockLength]
  omega

/-- Of blocks that lie in each other the last one is the smallest. -/
theorem getLast?_eq_some_iff_of_pairwise {usages : List ComponentUsage}
    (h : usages.Pairwise EnclosesUse) (hBlocks : ∀ usage ∈ usages, StandsInBlock offset usage)
    {inner : ComponentUsage} :
    usages.getLast? = some inner ↔
      inner ∈ usages ∧ ∀ usage ∈ usages, blockLength inner ≤ blockLength usage := by
  constructor
  · intro hLast
    obtain ⟨front, rfl⟩ := List.getLast?_eq_some_iff.mp hLast
    refine ⟨by simp, ?_⟩
    intro usage hUsage
    rcases List.mem_append.mp hUsage with hFront | hOwn
    · have hOuter := (List.pairwise_append.mp h).2.2 usage hFront inner (by simp)
      exact Nat.le_of_lt (hOuter.blockLength_lt (hBlocks inner (by simp)))
    · rw [List.mem_singleton.mp hOwn]
  · rintro ⟨hMem, hAll⟩
    obtain ⟨front, rest, rfl⟩ := List.append_of_mem hMem
    cases rest with
    | nil => exact List.getLast?_concat
    | cons next rest =>
      have hInner : EnclosesUse inner next :=
        (List.pairwise_cons.mp (List.pairwise_append.mp h).2.1).1 next List.mem_cons_self
      have hLess := hInner.blockLength_lt (hBlocks next (by simp))
      have hLeast := hAll next (by simp)
      omega

/-- **The uses around an offset are the components of the tree around it.** They are found in the
text in the order in which the tree goes down to the offset, each block strictly inside of the one
before it. The last one is the smallest block around the offset, and there is none where no
component stands. -/
theorem Template.usageStack_source (template : Template true)
    (hEnds : ∀ usage ∈ usagesOf template.source, usage.blockEnd ≠ offset) :
    usageStack (usagesOf template.source) offset = template.usagesAround offset 0 ∧
    (∀ usage, usage ∈ template.usagesAround offset 0 ↔
      usage ∈ template.usages 0 ∧ StandsInBlock offset usage) ∧
    (template.usagesAround offset 0).Pairwise EnclosesUse ∧
    (∀ inner, (usageStack (usagesOf template.source) offset).getLast? = some inner ↔
      (inner ∈ template.usages 0 ∧ StandsInBlock offset inner) ∧
        ∀ usage ∈ template.usages 0, StandsInBlock offset usage →
          blockLength inner ≤ blockLength usage) ∧
    ((usageStack (usagesOf template.source) offset).getLast? = none ↔
      ∀ usage ∈ template.usages 0, ¬StandsInBlock offset usage) := by
  rw [template.usagesOf_source] at hEnds ⊢
  have hNested := template.pairwise_usagesAround offset 0
  have hFilter : (template.usages 0).filter (·.contains offset) =
      template.usagesAround offset 0 := by
    rw [← filter_usages]
    apply List.filter_congr
    intro usage hUsage
    exact contains_eq (hEnds usage hUsage)
  have hStack : usageStack (template.usages 0) offset = template.usagesAround offset 0 := by
    rw [usageStack_of_pairwise (hFilter ▸ hNested), hFilter]
  rw [hStack]
  refine ⟨rfl, fun usage => mem_usagesAround, hNested, ?_, ?_⟩
  · intro inner
    rw [getLast?_eq_some_iff_of_pairwise hNested fun usage hMem => (mem_usagesAround.mp hMem).2]
    simp only [mem_usagesAround, and_imp]
  · rw [List.getLast?_eq_none_iff, List.eq_nil_iff_forall_not_mem]
    simp only [mem_usagesAround, not_and]

/-! ### A component in one of its name -/

theorem isIdentifier_p : IsIdentifier "p".toList := ⟨⟨'p', [], rfl, by decide⟩, by decide⟩

/-- A component around one of the same name, with two self-closing ones beside each other. -/
def panels : Template true :=
  let none : TagAttributes := ⟨[], ⟨[], isTagBlank_of_mem_nil⟩⟩
  let panel : WrittenName :=
    .component
      { modules := [], name := ⟨"p".toList, isIdentifier_p⟩, mark := ⟨[], isMark_nil⟩ }
  let leaf : Template true → Template true := .selfClosing panel none
  .block panel none (leaf (.block panel none (leaf .done) .done)) (leaf .done)

/-- At an offset in the innermost of three tags with one name. -/
theorem Template.usageStack_source_panels :
    panels.source = "<.p><.p/><.p><.p/></.p></.p><.p/>".toList ∧
      (∀ usage ∈ usagesOf panels.source, usage.blockEnd ≠ 14) ∧
      usageStack (usagesOf panels.source) 14 = panels.usagesAround 14 0 ∧
      ((panels.usagesAround 14 0).map fun usage => (usage.openTagStart, usage.blockEnd)) =
        [(0, 28), (9, 23), (13, 18)] := by
  have hEnds : ∀ usage ∈ usagesOf panels.source, usage.blockEnd ≠ 14 := by decide
  exact ⟨by decide, hEnds, (panels.usageStack_source hEnds).1, by decide⟩

end PhoenixLens.Markup
