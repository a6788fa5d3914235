import PhoenixLens.Proofs.Markup.TreeNodes
import PhoenixLens.Proofs.Markup.Uses

/-!
# Uses in the tree of a template

What is read from the tree of a template are the components that the template was written with, each
with its own slots. The text of the template tells the same, so that it makes no difference whether
its tree is kept.
-/

namespace PhoenixLens.Markup

open Text (StandsAt)

variable {text : List Char} {pos : Nat}

/-! ### Slots -/

theorem slotsInNodes_append (depth : Nat) (nodes more : List Node) :
    slotsInNodes text depth (nodes ++ more) =
      slotsInNodes text depth nodes ++ slotsInNodes text depth more := by
  induction nodes with
  | nil => rfl
  | cons node nodes ih =>
    rw [List.cons_append, slotsInNodes, slotsInNodes, ih, List.append_assoc]

theorem slotsInNode_of_ne {node : Node} (h : node.kind ≠ .element) (depth : Nat) :
    slotsInNode text depth node = [] := by
  obtain ⟨kind, start, stop, children⟩ := node
  have hOther : (kind != .element) = true := bne_iff_ne.mpr h
  rw [slotsInNode, hOther, Bool.or_true]
  rfl

theorem kind_endTag_ne (start stop : Nat) (nodes : List Node) :
    (Node.mk .endTag start stop nodes).kind ≠ .element := nofun

theorem slotsInNodes_concat {node : Node} (h : node.kind ≠ .element) (depth : Nat)
    (nodes : List Node) :
    slotsInNodes text depth (nodes ++ [node]) = slotsInNodes text depth nodes := by
  rw [slotsInNodes_append, slotsInNodes, slotsInNode_of_ne h]
  exact List.append_nil _

theorem slotsInNodes_tagNode (depth : Nat) (selfClosing : Bool) (pos : Nat) (name : List Char)
    (attributes : TagAttributes) (nodes : List Node) :
    slotsInNodes text depth (tagNode selfClosing pos name attributes :: nodes) =
      slotsInNodes text depth nodes := by
  rw [slotsInNodes, slotsInNode_of_ne (kind_tagNode_ne selfClosing pos name attributes)]
  rfl

theorem slotsInNode_tagNode {selfClosing : Bool} {name : WrittenName} {attributes : TagAttributes}
    (h : StandsAt text (startTag selfClosing name.text attributes) pos) {depth : Nat}
    (hDepth : depth ≤ maxTreeDepth) (stop : Nat) (nodes : List Node) :
    slotsInNode text depth
        (.mk .element pos stop (tagNode selfClosing pos name.text attributes :: nodes)) =
      match name with
      | .element _ => slotsInNodes text (depth + 1) nodes
      | .component _ => []
      | .slot slot =>
        let inside := pos + Text.byteLength (startTag selfClosing name.text attributes)
        [slotAt pos slot attributes inside stop selfClosing] := by
  have hNot : (decide (depth > maxTreeDepth) || NodeKind.element != .element) = false := by
    rw [decide_eq_false (Nat.not_lt.mpr hDepth)]
    rfl
  have hAttributes := usageAttributes_tagNode h
  rw [slotsInNode, hNot, elementMeaning?_tagNode h, openTagOf?_tagNode]
  cases name with
  | element name => exact slotsInNodes_tagNode _ _ _ _ _ _
  | component name => rfl
  | slot name =>
    refine congrArg (· :: []) ?_
    rw [usageSlot, hAttributes]
    cases selfClosing <;> rfl

/-- The slots of a template are read from its nodes, if no element is nested too deep. -/
theorem slotsInNodes_template {texts : Bool} (template : Template texts) {ends : Nat → Nat}
    {depth : Nat} (hDepth : depth + template.height ≤ maxTreeDepth)
    (h : StandsAt text template.source pos) :
    slotsInNodes text depth (template.nodes ends pos) = template.slots pos := by
  induction template generalizing pos depth with
  | done => rfl
  | text own next ih => exact ih hDepth h.right
  | block name attributes body next ihBody ihNext =>
    rw [Template.height] at hDepth
    have hBody := h.right.left
    have hNext := h.right.right.right
    rw [Template.nodes, slotsInNodes, slotsInNode_tagNode h.left (by omega), Template.slots,
      ihNext (by omega) hNext]
    congr 1
    cases name with
    | component name => rfl
    | slot name => rfl
    | element name =>
      exact (slotsInNodes_concat (kind_endTag_ne _ _ _) _ _).trans (ihBody (by omega) hBody)
  | selfClosing name attributes next ih =>
    rw [Template.height] at hDepth
    rw [Template.nodes, slotsInNodes, slotsInNode_tagNode h.left (by omega), Template.slots,
      ih (by omega) h.right]
    cases name <;> rfl
  | void name attributes next ih =>
    rw [Template.height] at hDepth
    have hNone := @slotsInNode_tagNode text pos false (.element name) attributes h.left depth
      (by omega) (ends pos) []
    rw [Template.nodes, slotsInNodes, Template.slots, ih (by omega) h.right]
    exact congrArg (· ++ _) hNone

/-! ### Uses -/

theorem child?_endTag_tagNode (selfClosing : Bool) (start stop pos : Nat) (name : List Char)
    (attributes : TagAttributes) (nodes : List Node) :
    (Node.mk .element start stop (tagNode selfClosing pos name attributes :: nodes)).child?
        [.endTag] =
      (Node.mk .element start stop nodes).child? [.endTag] := by
  cases selfClosing <;> rfl

theorem child?_endTag {closing : Node} (hClosing : closing.kind = .endTag) {nodes : List Node}
    (hNodes : ∀ node ∈ nodes, node.kind = .element) (start stop : Nat) :
    (Node.mk .element start stop (nodes ++ [closing])).child? [.endTag] = some closing := by
  have hNone : ∀ node ∈ nodes, ¬[NodeKind.endTag].contains node.kind = true := by
    intro node hNode
    rw [hNodes node hNode]
    decide
  rw [Node.child?, Node.children, List.find?_append, List.find?_eq_none.mpr hNone,
    List.find?_singleton, hClosing]
  rfl

theorem Template.kind_of_mem_nodes {texts : Bool} (template : Template texts) {ends : Nat → Nat}
    {node : Node} (h : node ∈ template.nodes ends pos) : node.kind = .element := by
  induction template generalizing pos with
  | done => cases h
  | text own next ih => exact ih h
  | block name attributes body next _ ih =>
    rw [Template.nodes, List.mem_cons] at h
    rcases h with rfl | h
    · rfl
    · exact ih h
  | selfClosing name attributes next ih =>
    rw [Template.nodes, List.mem_cons] at h
    rcases h with rfl | h
    · rfl
    · exact ih h
  | void name attributes next ih =>
    rw [Template.nodes, List.mem_cons] at h
    rcases h with rfl | h
    · rfl
    · exact ih h

theorem usageOfElement?_of_not_component {selfClosing : Bool} {name : WrittenName}
    {attributes : TagAttributes} (hName : name.component? = none)
    (h : StandsAt text (startTag selfClosing name.text attributes) pos) (stop : Nat)
    (nodes : List Node) :
    usageOfElement? text
        (.mk .element pos stop (tagNode selfClosing pos name.text attributes :: nodes)) = none := by
  rw [usageOfElement?, openTagOf?_tagNode, elementMeaning?_tagNode h]
  cases name with
  | component name => cases hName
  | element name => rfl
  | slot name => rfl

theorem usageOfElement?_component {selfClosing : Bool} {name : ComponentName}
    {attributes : TagAttributes} {inside stop contentEnd : Nat} {nodes : List Node}
    {slots : List UsageSlot}
    (h : StandsAt text (startTag selfClosing name.callName.written attributes) pos)
    (hInside : pos + Text.byteLength (startTag selfClosing name.callName.written attributes) =
      inside)
    (hSlots : slotsInNodes text 0 nodes = slots)
    (hEnd : (((Node.mk .element pos stop nodes).child? [.endTag]).map Node.start).getD stop =
      contentEnd) (hLe : inside ≤ contentEnd) :
    usageOfElement? text (.mk .element pos stop
        (tagNode selfClosing pos name.callName.written attributes :: nodes)) =
      some { usageWithout pos name attributes inside stop with
        slots
        selfClosing
        contentStart := if selfClosing then none else some inside
        contentEnd := if selfClosing then none else some contentEnd
        providedSlotNames :=
          if selfClosing then [] else providedSlotNames text inside contentEnd slots } := by
  have hMeaning := @elementMeaning?_tagNode text pos selfClosing (.component name) attributes h pos
    stop nodes
  have hOpen := openTagOf?_tagNode selfClosing pos stop pos name.callName.written attributes nodes
  have hAttributes := usageAttributes_tagNode h
  have hStop : (tagNode selfClosing pos name.callName.written attributes).stop = inside := hInside
  rw [WrittenName.text] at hMeaning
  rw [usageOfElement?, hOpen, hMeaning, child?_endTag_tagNode]
  simp only [Option.bind_eq_bind, Option.bind_some, WrittenName.meaning, hStop, hAttributes,
    isSelfClosing_tagNode]
  rw [Node.children, slotsInNodes_tagNode, hSlots, isLocal_callName]
  simp only [Node.stop, hEnd, Nat.max_eq_left hLe]
  rfl

theorem usageOfElement?_block {name : WrittenName} {attributes : TagAttributes}
    {body : Template true} {ends : Nat → Nat} {inside behind stop : Nat} {rest : List Char}
    (hHeight : body.height ≤ maxTreeDepth)
    (h : StandsAt text (startTag false name.text attributes ++ (body.source ++ rest)) pos)
    (hInside : pos + Text.byteLength (startTag false name.text attributes) = inside)
    (hBehind : inside + Text.byteLength body.source = behind) :
    usageOfElement? text (.mk .element pos stop (tagNode false pos name.text attributes ::
        (body.nodes ends inside ++ [.mk .endTag behind stop []]))) =
      name.component?.map fun name =>
        { usageWithout pos name attributes inside stop with
          slots := body.slots inside
          selfClosing := false
          contentStart := some inside
          contentEnd := some behind
          providedSlotNames := body.providedNames inside } := by
  cases name with
  | component name =>
    have hBody := hInside ▸ h.right.left
    have hSlots : slotsInNodes text 0 (body.nodes ends inside ++ [.mk .endTag behind stop []]) =
        body.slots inside :=
      (slotsInNodes_concat (kind_endTag_ne _ _ _) _ _).trans (slotsInNodes_template body (by omega) hBody)
    have hNames : providedSlotNames text inside behind (body.slots inside) =
        body.providedNames inside := by
      obtain ⟨before, after, rfl, hBefore⟩ := hBody
      exact body.providedSlotNames_source before after hBefore hBehind
    have hEnd : (((Node.mk .element pos stop (body.nodes ends inside ++
        [.mk .endTag behind stop []])).child? [.endTag]).map Node.start).getD stop = behind := by
      rw [child?_endTag rfl fun node hNode => body.kind_of_mem_nodes hNode]
      rfl
    have hUsage := usageOfElement?_component h.left hInside hSlots hEnd (by omega)
    rw [hNames] at hUsage
    exact hUsage
  | element name => exact usageOfElement?_of_not_component rfl h.left _ _
  | slot name => exact usageOfElement?_of_not_component rfl h.left _ _

theorem usageOfElement?_selfClosing {name : WrittenName} {attributes : TagAttributes} {stop : Nat}
    (h : StandsAt text (startTag true name.text attributes) pos)
    (hStop : pos + Text.byteLength (startTag true name.text attributes) = stop) :
    usageOfElement? text (.mk .element pos stop [tagNode true pos name.text attributes]) =
      name.component?.map fun name => usageWithout pos name attributes stop stop := by
  cases name with
  | component name => exact usageOfElement?_component h hStop rfl rfl (Nat.le_refl _)
  | element name => exact usageOfElement?_of_not_component rfl h _ _
  | slot name => exact usageOfElement?_of_not_component rfl h _ _

theorem usagesInNodes_append (depth : Nat) (nodes more : List Node) :
    usagesInNodes text depth (nodes ++ more) =
      usagesInNodes text depth nodes ++ usagesInNodes text depth more := by
  induction nodes with
  | nil => rfl
  | cons node nodes ih =>
    rw [List.cons_append, usagesInNodes, usagesInNodes, ih, List.append_assoc]

theorem usagesInNodes_concat_endTag (depth start stop : Nat) (nodes : List Node) :
    usagesInNodes text depth (nodes ++ [.mk .endTag start stop []]) =
      usagesInNodes text depth nodes := by
  rw [usagesInNodes_append, usagesInNodes,
    usagesInNode_eq_nil depth (.mk .endTag start stop []) (kind_endTag_ne _ _ _) rfl]
  exact List.append_nil _

theorem usagesInNode_tagNode {depth : Nat} (hDepth : depth ≤ maxTreeDepth) (selfClosing : Bool)
    (name : List Char) (attributes : TagAttributes) (pos stop : Nat) (nodes : List Node) :
    usagesInNode text depth
        (.mk .element pos stop (tagNode selfClosing pos name attributes :: nodes)) =
      (usageOfElement? text
        (.mk .element pos stop (tagNode selfClosing pos name attributes :: nodes))).toList ++
          usagesInNodes text (depth + 1) nodes := by
  rw [usagesInNode, if_neg (Nat.not_lt.mpr hDepth), usagesInNodes,
    usagesInNode_eq_nil (depth + 1) (tagNode selfClosing pos name attributes)
      (kind_tagNode_ne _ _ _ _) (isNested_tagNode _ _ _ _)]
  rfl

/-- The uses in a template are read from its nodes, if no element is nested too deep. -/
theorem usagesInNodes_template {texts : Bool} (template : Template texts) {ends : Nat → Nat}
    {depth : Nat} (hDepth : depth + template.height ≤ maxTreeDepth + 1)
    (h : StandsAt text template.source pos) :
    usagesInNodes text depth (template.nodes ends pos) = template.usages pos := by
  induction template generalizing pos depth with
  | done => rfl
  | text own next ih => exact ih hDepth h.right
  | block name attributes body next ihBody ihNext =>
    rw [Template.height] at hDepth
    have hInner : depth + 1 + body.height ≤ maxTreeDepth + 1 := by omega
    have hOuter : depth + next.height ≤ maxTreeDepth + 1 := by omega
    have hBody := ihBody hInner h.right.left
    have hNext := ihNext hOuter h.right.right.right
    rw [Template.nodes, usagesInNodes, usagesInNode_tagNode (by omega),
      usageOfElement?_block (by omega) h rfl rfl, usagesInNodes_concat_endTag, hBody, hNext,
      List.append_assoc]
    rfl
  | selfClosing name attributes next ih =>
    rw [Template.height] at hDepth
    have hOuter : depth + next.height ≤ maxTreeDepth + 1 := by omega
    have hNext := ih hOuter h.right
    rw [Template.nodes, usagesInNodes, usagesInNode_tagNode (by omega),
      usageOfElement?_selfClosing h.left rfl, hNext, usagesInNodes, List.append_nil]
    rfl
  | void name attributes next ih =>
    rw [Template.height] at hDepth
    have hNone := @usageOfElement?_of_not_component text pos false (.element name) attributes rfl
      h.left (ends pos) []
    have hOuter : depth + next.height ≤ maxTreeDepth + 1 := by omega
    have hNext := ih hOuter h.right
    rw [Template.nodes, usagesInNodes, usagesInNode_tagNode (by omega), hNext]
    exact congrArg (fun own => own.toList ++ [] ++ _) hNone

/-! ### Trees -/

theorem Template.spans_pairwise {texts : Bool} (template : Template texts) (pos : Nat) :
    (template.spans pos).Pairwise fun span later => span.1 ≤ later.1 := by
  induction template generalizing pos with
  | done => exact .nil
  | text own next ih => exact ih _
  | block name attributes body next ihBody ihNext =>
    generalize hInside : pos + Text.byteLength (startTag false name.text attributes) = inside
    generalize hStop : inside + Text.byteLength body.source + Text.byteLength (closeTag name.text) =
      stop
    have hWhole : pos ≤ stop := by omega
    have hInner : ∀ span ∈ body.spans inside, pos ≤ span.1 ∧ span.1 ≤ stop := by
      intro span hSpan
      have hBounds := body.span_bounds inside span hSpan
      omega
    have hOuter : ∀ span ∈ next.spans stop, stop ≤ span.1 :=
      fun span hSpan => (next.span_bounds stop span hSpan).1
    have hRest : (body.spans inside ++ next.spans stop).Pairwise fun span later =>
        span.1 ≤ later.1 := by
      refine List.pairwise_append.mpr ⟨ihBody inside, ihNext stop, ?_⟩
      intro span hSpan later hLater
      exact Nat.le_trans (hInner span hSpan).2 (hOuter later hLater)
    rw [spans, hInside, hStop]
    cases name.component? with
    | none => exact hRest
    | some other =>
      refine List.pairwise_cons.mpr ⟨fun later hLater => ?_, hRest⟩
      have hSplit : later ∈ body.spans inside ++ next.spans stop := hLater
      rcases List.mem_append.mp hSplit with hBody | hNext
      · exact (hInner later hBody).1
      · exact Nat.le_trans hWhole (hOuter later hNext)
  | selfClosing name attributes next ih =>
    rw [spans]
    cases name.component? with
    | none => exact ih _
    | some other =>
      refine List.pairwise_cons.mpr ⟨fun later hLater => ?_, ih _⟩
      exact Nat.le_trans (Nat.le_add_right _ _) (next.span_bounds _ later hLater).1
  | void name attributes next ih => exact ih _

theorem Template.usages_pairwise {texts : Bool} (template : Template texts) (pos : Nat) :
    (template.usages pos).Pairwise fun usage later =>
      decide (usage.openTagStart ≤ later.openTagStart) = true := by
  have hSpans := template.spans_pairwise pos
  rw [← template.spans_eq pos, List.pairwise_map] at hSpans
  exact hSpans.imp fun hLe => decide_eq_true hLe

theorem usagesOfTree_source {tree : Node} {template : Template true} (h : tree.Shows template)
    (hHeight : template.height ≤ maxTreeDepth) :
    usagesOfTree template.source tree = template.usages 0 := by
  obtain ⟨hRoot, hNested, ends, hOutline⟩ := h
  obtain ⟨kind, start, stop, children⟩ := tree
  have hNodes : usagesInNodes template.source 1 children = template.usages 0 := by
    rw [← usagesInNodes_outlines 1 children hNested]
    have hWhole : StandsAt template.source template.source 0 := ⟨[], [], by simp, rfl⟩
    rw [show Node.outlines children = template.nodes ends 0 from hOutline]
    exact usagesInNodes_template template (by omega) hWhole
  have hNot : (kind == .element) = false := beq_false_of_ne hRoot
  rw [usagesOfTree, usagesInNode, if_neg (Nat.not_lt.mpr (Nat.zero_le _)), hNodes, hNot]
  exact List.mergeSort_of_pairwise (template.usages_pairwise 0)

end PhoenixLens.Markup
