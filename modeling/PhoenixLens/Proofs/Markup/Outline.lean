import Mathlib.Data.List.Basic
import PhoenixLens.Markup.Tree

/-!
# Outlines of trees

A tree has nodes that nobody asks for: signs, pieces of text, what stands in a quoted value. The
outline of a tree leaves them out, and what is read from a tree is what is read from its outline.
-/

namespace PhoenixLens.Markup

namespace NodeKind

/-- Nobody asks for such nodes. -/
def isOther : NodeKind → Bool
  | other _ => true
  | _ => false

/-- Something is asked for in such nodes. -/
def hasParts : NodeKind → Bool
  | element | startTag | selfClosingTag | attributePair => true
  | _ => false

end NodeKind

namespace Node

mutual

/-- The node with those nodes in it that are asked for. -/
def outline : Node → Node
  | mk kind start stop children =>
    mk kind start stop (if kind.hasParts then outlines children else [])

def outlines : List Node → List Node
  | [] => []
  | node :: nodes => if node.kind.isOther then outlines nodes else node.outline :: outlines nodes

end

mutual

/-- Elements stand directly in elements. -/
def isNested : Node → Bool
  | mk kind _ _ children =>
    (kind == .element || children.all (·.kind != .element)) && areNested children

def areNested : List Node → Bool
  | [] => true
  | node :: nodes => node.isNested && areNested nodes

end

mutual

def decEq : (a b : Node) → Decidable (a = b)
  | mk kind start stop children, mk kind' start' stop' children' =>
    have := decEqAll children children'
    decidable_of_iff (kind = kind' ∧ start = start' ∧ stop = stop' ∧ children = children') (by simp)

def decEqAll : (nodes more : List Node) → Decidable (nodes = more)
  | [], [] => isTrue rfl
  | [], _ :: _ => isFalse nofun
  | _ :: _, [] => isFalse nofun
  | a :: nodes, b :: more =>
    have := decEq a b
    have := decEqAll nodes more
    decidable_of_iff (a = b ∧ nodes = more) (by simp)

end

instance : DecidableEq Node := decEq

variable {node : Node} {nodes : List Node} {kinds : List NodeKind} {text : List Char}

theorem outline_element (start stop : Nat) (nodes : List Node) :
    (mk .element start stop nodes).outline = mk .element start stop (outlines nodes) := rfl

@[simp] theorem kind_outline (node : Node) : node.outline.kind = node.kind := by cases node; rfl

@[simp] theorem start_outline (node : Node) : node.outline.start = node.start := by cases node; rfl

@[simp] theorem stop_outline (node : Node) : node.outline.stop = node.stop := by cases node; rfl

@[simp] theorem text?_outline (node : Node) (text : List Char) :
    node.outline.text? text = node.text? text := by
  rw [text?, start_outline, stop_outline, text?]

theorem children_outline (h : node.kind.hasParts = true) :
    node.outline.children = outlines node.children := by
  obtain ⟨kind, start, stop, children⟩ := node
  exact congrArg Node.children (congrArg (Node.mk kind start stop) (if_pos h))

/-- Looking for nodes that are asked for. -/
theorem find?_outlines (hKinds : ∀ kind ∈ kinds, kind.isOther = false) (nodes : List Node) :
    (outlines nodes).find? (fun c => kinds.contains c.kind) =
      (nodes.find? fun c => kinds.contains c.kind).map outline := by
  induction nodes with
  | nil => rfl
  | cons node nodes ih =>
    rw [outlines, List.find?_cons]
    split
    · rename_i hOther
      have hNot : kinds.contains node.kind = false := by
        rw [← Bool.not_eq_true, List.contains_iff_mem]
        intro hMem
        rw [hKinds _ hMem] at hOther
        cases hOther
      rw [hNot, ih]
    · rw [List.find?_cons, kind_outline, ih]
      split <;> rfl

theorem child?_outline (h : node.kind.hasParts = true)
    (hKinds : ∀ kind ∈ kinds, kind.isOther = false) :
    node.outline.child? kinds = (node.child? kinds).map outline := by
  rw [child?, children_outline h, find?_outlines hKinds, child?]

theorem filter_outlines {kind : NodeKind} (hKind : kind.isOther = false) (nodes : List Node) :
    (outlines nodes).filter (·.kind == kind) = (nodes.filter (·.kind == kind)).map outline := by
  induction nodes with
  | nil => rfl
  | cons node nodes ih =>
    rw [outlines, List.filter_cons]
    split
    · rename_i hOther
      have hNot : (node.kind == kind) = false := by
        refine beq_false_of_ne ?_
        rintro rfl
        rw [hKind] at hOther
        cases hOther
      rw [hNot, ih]
      rfl
    · rw [List.filter_cons, kind_outline, ih]
      split <;> rfl

theorem kind_of_child? {child : Node} (h : node.child? kinds = some child) :
    child.kind ∈ kinds := by
  have hFound := List.find?_some h
  simpa using hFound

end Node

open Node

variable {text : List Char}

/-! ### Elements -/

theorem hasParts_of_openTag {element tag : Node}
    (h : element.child? [.startTag, .selfClosingTag] = some tag) : tag.kind.hasParts = true := by
  have hKind := kind_of_child? h
  simp only [List.mem_cons, List.not_mem_nil, or_false] at hKind
  rcases hKind with hKind | hKind <;> rw [hKind] <;> rfl

theorem openTagOf?_outline {element : Node} (h : element.kind = .element) :
    openTagOf? element.outline =
      (openTagOf? element).map fun found => (found.1.outline, found.2.outline) := by
  have hTag := @child?_outline element [.startTag, .selfClosingTag] (by rw [h]; rfl) (by decide)
  rw [openTagOf?, openTagOf?, hTag]
  cases hFound : element.child? [.startTag, .selfClosingTag] with
  | none => rfl
  | some tag =>
    have hName := @child?_outline tag [.tagName] (hasParts_of_openTag hFound) (by decide)
    simp only [Option.map_some, Option.bind_eq_bind, Option.bind_some, hName]
    cases tag.child? [.tagName] <;> rfl

theorem elementMeaning?_outline {element : Node} (h : element.kind = .element) :
    elementMeaning? text element.outline = elementMeaning? text element := by
  rw [elementMeaning?, elementMeaning?, openTagOf?_outline h]
  cases openTagOf? element with
  | none => rfl
  | some found => simp

theorem usageAttribute?_outline {pair : Node} (h : pair.kind = .attributePair) :
    usageAttribute? text pair.outline = usageAttribute? text pair := by
  have hParts : pair.kind.hasParts = true := by rw [h]; rfl
  have hName := @child?_outline pair [.attributeName] hParts (by decide)
  have hValue := @child?_outline pair [.quotedValue, .plainValue] hParts (by decide)
  rw [usageAttribute?, usageAttribute?, hName, hValue]
  cases pair.child? [.attributeName] with
  | none => rfl
  | some name =>
    cases pair.child? [.quotedValue, .plainValue] with
    | none => simp
    | some value => simp [valueSpan]

theorem usageAttributes_outline {tag : Node} (h : tag.kind.hasParts = true) :
    usageAttributes text tag.outline = usageAttributes text tag := by
  rw [usageAttributes, usageAttributes, children_outline h, filter_outlines rfl, List.filterMap_map]
  refine List.filterMap_congr fun pair hPair => ?_
  have hKind : pair.kind = .attributePair := by simpa using (List.mem_filter.mp hPair).2
  exact usageAttribute?_outline hKind

theorem hasParts_of_openTagOf? {element tag name : Node}
    (h : openTagOf? element = some (tag, name)) : tag.kind.hasParts = true := by
  obtain ⟨found, hFound, hRest⟩ := Option.bind_eq_some_iff.mp h
  obtain ⟨_, -, hPair⟩ := Option.bind_eq_some_iff.mp hRest
  cases hPair
  exact hasParts_of_openTag hFound

theorem usageSlot_outline {tag : Node} (h : tag.kind.hasParts = true) (name : List Char)
    (element : Node) :
    usageSlot text name element.outline tag.outline = usageSlot text name element tag := by
  simp [usageSlot, usageAttributes_outline h]

/-! ### Slots -/

mutual

theorem slotsInNode_outline (depth : Nat) : (node : Node) →
    slotsInNode text depth node.outline = slotsInNode text depth node
  | .mk kind start stop children => by
    by_cases hKind : kind = .element
    · subst hKind
      have hMeaning := @elementMeaning?_outline text (.mk .element start stop children) rfl
      have hTag := @openTagOf?_outline (.mk .element start stop children) rfl
      have hSlot := fun tag h name =>
        @usageSlot_outline text tag h name (.mk .element start stop children)
      rw [outline_element] at hMeaning hTag hSlot ⊢
      rw [slotsInNode, slotsInNode]
      simp only [hMeaning, hTag, slotsInNodes_outlines]
      cases hFound : openTagOf? (.mk .element start stop children) with
      | none => rfl
      | some found =>
        have hSame := hSlot found.1 (hasParts_of_openTagOf? hFound)
        cases elementMeaning? text (.mk .element start stop children) with
        | none => rfl
        | some meaning => cases meaning <;> simp [hSame]
    · have hOther : (kind != .element) = true := by simpa using hKind
      rw [outline, slotsInNode, slotsInNode, hOther, Bool.or_true]
      rfl

theorem slotsInNodes_outlines (depth : Nat) : (nodes : List Node) →
    slotsInNodes text depth (outlines nodes) = slotsInNodes text depth nodes
  | [] => rfl
  | node :: nodes => by
    rw [outlines, slotsInNodes]
    split
    · rename_i hOther
      have hNone : slotsInNode text depth node = [] := by
        cases node with
        | mk kind start stop children =>
          cases kind <;> cases hOther
          rw [slotsInNode]
          simp
      rw [hNone, slotsInNodes_outlines depth nodes]
      rfl
    · rw [slotsInNodes, slotsInNode_outline depth node, slotsInNodes_outlines depth nodes]

end

/-! ### Uses -/

theorem usageOfElement?_outline {element : Node} (h : element.kind = .element) :
    usageOfElement? text element.outline = usageOfElement? text element := by
  have hParts : element.kind.hasParts = true := by rw [h]; rfl
  have hEnd := @child?_outline element [.endTag] hParts (by decide)
  rw [usageOfElement?, usageOfElement?, openTagOf?_outline h, elementMeaning?_outline h, hEnd,
    children_outline hParts, slotsInNodes_outlines]
  cases hFound : openTagOf? element with
  | none => rfl
  | some found =>
    have hAttributes := @usageAttributes_outline text _ (hasParts_of_openTagOf? hFound)
    have hStarts : ((element.child? [.endTag]).map outline).map Node.start =
        (element.child? [.endTag]).map Node.start := by
      rw [Option.map_map]
      congr 1
      funext node
      exact start_outline node
    simp [hAttributes, hStarts]

mutual

/-- Where no element stands, no use is found. -/
theorem usagesInNode_eq_nil (depth : Nat) : (node : Node) → node.kind ≠ .element →
    node.isNested = true → usagesInNode text depth node = []
  | .mk kind start stop children, hKind, hNested => by
    have hNot : (kind == .element) = false := beq_false_of_ne hKind
    rw [isNested, hNot, Bool.false_or, Bool.and_eq_true, List.all_eq_true] at hNested
    rw [usagesInNode, hNot]
    split
    · rfl
    · rw [usagesInNodes_eq_nil (depth + 1) children (by simpa using hNested.1) hNested.2]
      rfl

theorem usagesInNodes_eq_nil (depth : Nat) : (nodes : List Node) →
    (∀ node ∈ nodes, node.kind ≠ .element) → areNested nodes = true →
    usagesInNodes text depth nodes = []
  | [], _, _ => rfl
  | node :: nodes, hKinds, hNested => by
    rw [areNested, Bool.and_eq_true] at hNested
    rw [usagesInNodes, usagesInNode_eq_nil depth node (hKinds _ List.mem_cons_self) hNested.1,
      usagesInNodes_eq_nil depth nodes (fun n hn => hKinds n (List.mem_cons_of_mem _ hn)) hNested.2]
    rfl

end

mutual

theorem usagesInNode_outline (depth : Nat) : (node : Node) → node.isNested = true →
    usagesInNode text depth node.outline = usagesInNode text depth node
  | .mk kind start stop children, hNested => by
    by_cases hKind : kind = .element
    · subst hKind
      have hUsage := @usageOfElement?_outline text (.mk .element start stop children) rfl
      rw [isNested, Bool.and_eq_true] at hNested
      rw [outline_element] at hUsage ⊢
      rw [usagesInNode, usagesInNode, hUsage, usagesInNodes_outlines (depth + 1) children hNested.2]
    · have hNot : (kind == .element) = false := beq_false_of_ne hKind
      rw [isNested, hNot, Bool.false_or, Bool.and_eq_true, List.all_eq_true] at hNested
      have hNone : usagesInNodes text (depth + 1) children = [] :=
        usagesInNodes_eq_nil (depth + 1) children (by simpa using hNested.1) hNested.2
      have hOutlined : usagesInNodes text (depth + 1)
          (if kind.hasParts then outlines children else []) = [] := by
        split
        · rw [usagesInNodes_outlines (depth + 1) children hNested.2, hNone]
        · rfl
      rw [outline, usagesInNode, usagesInNode, hNone, hOutlined, hNot]
      rfl

theorem usagesInNodes_outlines (depth : Nat) : (nodes : List Node) → areNested nodes = true →
    usagesInNodes text depth (outlines nodes) = usagesInNodes text depth nodes
  | [], _ => rfl
  | node :: nodes, hNested => by
    rw [areNested, Bool.and_eq_true] at hNested
    rw [outlines, usagesInNodes]
    split
    · rename_i hOther
      have hKind : node.kind ≠ .element := by
        intro hElement
        rw [hElement] at hOther
        cases hOther
      rw [usagesInNode_eq_nil depth node hKind hNested.1,
        usagesInNodes_outlines depth nodes hNested.2]
      rfl
    · rw [usagesInNodes, usagesInNode_outline depth node hNested.1,
        usagesInNodes_outlines depth nodes hNested.2]

end

end PhoenixLens.Markup
