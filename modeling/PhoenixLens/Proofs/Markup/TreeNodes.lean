import PhoenixLens.Proofs.Markup.Outline
import PhoenixLens.Proofs.Markup.Names

/-!
# Nodes of templates

The tree of a template has a node for each of its tags, names and attributes. From the nodes of a
tag are read the name and the attributes that the tag was written with.
-/

namespace PhoenixLens.Markup

/-- The node of an attribute that is written at an offset. An expression alone has none. -/
def TagAttribute.node? (pos : Nat) : TagAttribute → Option Node
  | bare name =>
    let nameEnd := pos + Text.byteLength name.1
    some (.mk .attributePair pos nameEnd [.mk .attributeName pos nameEnd []])
  | quoted name value =>
    let nameEnd := pos + Text.byteLength name.1
    let stop := nameEnd + 1 + (Text.byteLength value.1 + 2)
    some (.mk .attributePair pos stop
      [.mk .attributeName pos nameEnd [], .mk .quotedValue (nameEnd + 1) stop []])
  | expression name value =>
    let nameEnd := pos + Text.byteLength name.1
    let stop := nameEnd + 1 + Text.byteLength value.1
    some (.mk .attributePair pos stop
      [.mk .attributeName pos nameEnd [], .mk .quotedValue (nameEnd + 1) stop []])
  | spread _ => none

/-- The nodes of attributes that are written from an offset on. -/
def attributeNodes (pos : Nat) : List (TagGap × TagAttribute) → List Node
  | [] => []
  | (gap, given) :: more =>
    let start := pos + Text.byteLength gap.1
    (given.node? start).toList ++ attributeNodes (start + Text.byteLength given.text) more

def tagNode (selfClosing : Bool) (pos : Nat) (name : List Char) (attributes : TagAttributes) :
    Node :=
  .mk (if selfClosing then .selfClosingTag else .startTag) pos
    (pos + Text.byteLength (startTag selfClosing name attributes))
    (.mk .tagName (pos + 1) (nameEndAt pos name) [] ::
      attributeNodes (nameEndAt pos name) attributes.attributes)

/-- The nodes of a template that is written from an offset on. Where an element ends that has no
closing tag is left to the parser. -/
def Template.nodes (ends : Nat → Nat) : {texts : Bool} → Nat → Template texts → List Node
  | _, _, done => []
  | _, pos, text own next => next.nodes ends (pos + Text.byteLength own.1)
  | _, pos, block name attributes body next =>
    let inside := pos + Text.byteLength (startTag false name.text attributes)
    let behind := inside + Text.byteLength body.source
    let stop := behind + Text.byteLength (closeTag name.text)
    .mk .element pos stop (tagNode false pos name.text attributes ::
      (body.nodes ends inside ++ [.mk .endTag behind stop []])) :: next.nodes ends stop
  | _, pos, selfClosing name attributes next =>
    let stop := pos + Text.byteLength (startTag true name.text attributes)
    .mk .element pos stop [tagNode true pos name.text attributes] :: next.nodes ends stop
  | _, pos, void name attributes next =>
    .mk .element pos (ends pos) [tagNode false pos name.1 attributes] ::
      next.nodes ends (pos + Text.byteLength (startTag false name.1 attributes))

/-- How deep the elements of a template are nested. -/
def Template.height : {texts : Bool} → Template texts → Nat
  | _, done => 0
  | _, text _ next => next.height
  | _, block _ _ body next => max (body.height + 1) next.height
  | _, selfClosing _ _ next => max 1 next.height
  | _, void _ _ next => max 1 next.height

/-- The tree is that of the template, with any other nodes beside its elements, tags, names and
attributes. -/
structure Node.Shows (tree : Node) (template : Template true) : Prop where
  root : tree.kind ≠ .element
  nested : areNested tree.children = true
  outline : ∃ ends, outlines tree.children = template.nodes ends 0

variable {text : List Char} {pos : Nat}

/-! ### Names -/

def WrittenName.meaning : WrittenName → TagMeaning
  | element _ => .html
  | component name => .component name.callName.moduleName name.callName.name
  | slot name => .slot name.1

theorem lastSegment_append_dot {front name : List Char} (h : '.' ∉ name) :
    Text.lastSegment (front ++ '.' :: name) = name := by
  have hAll : ∀ c ∈ name.reverse, (c != '.') = true := by
    intro c hc
    rw [bne_iff_ne]
    rintro rfl
    exact h (List.mem_reverse.mp hc)
  rw [Text.lastSegment, List.reverse_append, List.reverse_cons, List.append_assoc,
    List.takeWhile_append_of_pos hAll, List.singleton_append, List.takeWhile_cons_of_neg (by simp),
    List.append_nil, List.reverse_reverse]

theorem cutAtLastDot?_append {front name : List Char} (h : '.' ∉ name) :
    cutAtLastDot? (front ++ '.' :: name) = some (front, name) := by
  have hDot : (front ++ '.' :: name).contains '.' = true := by simp
  have hLength : (front ++ '.' :: name).length - name.length - 1 = front.length := by
    rw [List.length_append, List.length_cons]
    omega
  rw [cutAtLastDot?, if_pos hDot, lastSegment_append_dot h]
  dsimp only
  rw [hLength, List.take_left]

theorem meaningOf_of_first {c : Char} (hDot : c ≠ '.') (hColon : c ≠ ':') (cs : List Char) :
    meaningOf (c :: cs) =
      match cutAtLastDot? (c :: cs) with
      | some (moduleName, name) =>
        if Text.isAsciiUpper c && name.head?.any Text.startsIdentifier then
          .component (some moduleName) name
        else .html
      | none => .html := by
  rw [meaningOf]
  · rfl
  · rintro name ⟨⟩
    exact hDot rfl
  · rintro name ⟨⟩
    exact hColon rfl

theorem meaningOf_component (name : ComponentName) :
    meaningOf name.callName.written = .component name.callName.moduleName name.callName.name := by
  have hDots : '.' ∉ name.name.1 ++ name.mark.1 := by
    rw [List.mem_append, not_or]
    constructor
    · intro hMem
      have hWord := name.name.2.all '.' hMem
      revert hWord
      decide
    · have hMarks : ∀ mark ∈ [[], ['?'], ['!']], '.' ∉ mark := by decide
      exact hMarks name.mark.1 name.mark.2
  rw [name.written_eq, ComponentName.callName]
  cases name.modules with
  | nil => rfl
  | cons part more =>
    obtain ⟨c, rest, hFirst, hUpper⟩ := ModulePart.join_first part more
    have hCut := @cutAtLastDot?_append (Text.join ['.'] ((part :: more).map (·.1))) _ hDots
    have hNot (d : Char) (hd : Text.isAsciiUpper d = false) : c ≠ d := by
      rintro rfl
      rw [hUpper] at hd
      cases hd
    obtain ⟨d, tail, hName, hStart⟩ := name.name.2.first
    have hHead : (name.name.1 ++ name.mark.1).head?.any Text.startsIdentifier = true := by
      rw [hName]
      exact hStart
    rw [hFirst] at hCut ⊢
    rw [List.cons_append] at hCut ⊢
    rw [meaningOf_of_first (hNot '.' (by decide)) (hNot ':' (by decide)), hCut]
    simp only [hUpper, hHead]
    rfl

theorem meaningOf_text (name : WrittenName) : meaningOf name.text = name.meaning := by
  cases name with
  | slot name => rfl
  | component name => exact meaningOf_component name
  | element name =>
    obtain ⟨c, rest, hName, hLetter⟩ := name.2.first
    have hDots : '.' ∉ name.1 := by
      intro hMem
      have hChar := name.2.all '.' hMem
      revert hChar
      decide
    have hNone : cutAtLastDot? name.1 = none :=
      if_neg fun hDot => hDots (List.contains_iff_mem.mp hDot)
    have hNot (d : Char) (hd : Text.isAsciiLetter d = false) : c ≠ d := by
      rintro rfl
      rw [hLetter] at hd
      cases hd
    rw [WrittenName.text, hName, meaningOf_of_first (hNot '.' (by decide)) (hNot ':' (by decide)),
      ← hName, hNone]
    rfl

/-! ### Tags -/

open Text (StandsAt)

theorem kind_tagNode_ne (selfClosing : Bool) (pos : Nat) (name : List Char)
    (attributes : TagAttributes) : (tagNode selfClosing pos name attributes).kind ≠ .element := by
  cases selfClosing <;> nofun

theorem isSelfClosing_tagNode (selfClosing : Bool) (pos : Nat) (name : List Char)
    (attributes : TagAttributes) :
    ((tagNode selfClosing pos name attributes).kind == .selfClosingTag) = selfClosing := by
  cases selfClosing <;> rfl

theorem openTagOf?_tagNode (selfClosing : Bool) (start stop pos : Nat) (name : List Char)
    (attributes : TagAttributes) (rest : List Node) :
    openTagOf? (.mk .element start stop (tagNode selfClosing pos name attributes :: rest)) =
      some (tagNode selfClosing pos name attributes,
        .mk .tagName (pos + 1) (nameEndAt pos name) []) := by
  cases selfClosing <;> rfl

theorem elementMeaning?_tagNode {selfClosing : Bool} {name : WrittenName}
    {attributes : TagAttributes} (h : StandsAt text (startTag selfClosing name.text attributes) pos)
    (start stop : Nat) (rest : List Node) :
    elementMeaning? text
        (.mk .element start stop (tagNode selfClosing pos name.text attributes :: rest)) =
      some name.meaning := by
  have hName : Node.text? (.mk .tagName (pos + 1) (nameEndAt pos name.text) []) text =
      some name.text := h.tail.left.span?
  rw [elementMeaning?, openTagOf?_tagNode]
  simp only [Option.bind_eq_bind, Option.bind_some, hName, meaningOf_text]
  rfl

/-! ### Attributes -/

theorem valueSpan_quoted {value : List Char} (h : StandsAt text ('"' :: (value ++ ['"'])) pos) :
    valueSpan text (.mk .quotedValue pos (pos + (Text.byteLength value + 2)) []) =
      some (pos + 1, pos + 1 + Text.byteLength value) := by
  have hSize : ('"' : Char).utf8Size = 1 := rfl
  have hStop : pos + Text.byteLength ('"' :: (value ++ ['"'])) =
      pos + (Text.byteLength value + 2) := by
    simp only [Text.byteLength_cons, Text.byteLength_append, Text.byteLength_nil, hSize]
    omega
  have hWritten : Node.text? (.mk .quotedValue pos (pos + (Text.byteLength value + 2)) []) text =
      some ('"' :: (value ++ ['"'])) := hStop ▸ h.span?
  have hEnd : max (pos + (Text.byteLength value + 2) - 1) (pos + 1) =
      pos + 1 + Text.byteLength value := by omega
  rw [valueSpan, hWritten, ← hEnd]
  rfl

theorem valueSpan_expression (value : Expression) (h : StandsAt text value.1 pos) :
    valueSpan text (.mk .quotedValue pos (pos + Text.byteLength value.1) []) =
      some (pos, pos + Text.byteLength value.1) := by
  have hWritten : Node.text? (.mk .quotedValue pos (pos + Text.byteLength value.1) []) text =
      some value.1 := h.span?
  obtain ⟨inner, hInner⟩ := value.2.1
  rw [valueSpan, hWritten, hInner]
  rfl

theorem usageAttribute?_bare {name : List Char} (h : StandsAt text name pos) :
    usageAttribute? text (.mk .attributePair pos (pos + Text.byteLength name)
        [.mk .attributeName pos (pos + Text.byteLength name) []]) =
      some
        { name := String.ofList name
          nameStart := pos
          nameEnd := pos + Text.byteLength name } := by
  generalize hNode : Node.mk .attributeName pos (pos + Text.byteLength name) [] = node
  have hWritten : node.text? text = some name := hNode ▸ h.span?
  have hName : (Node.mk .attributePair pos (pos + Text.byteLength name) [node]).child?
      [.attributeName] = some node := hNode ▸ rfl
  have hValue : (Node.mk .attributePair pos (pos + Text.byteLength name) [node]).child?
      [.quotedValue, .plainValue] = none := hNode ▸ rfl
  rw [usageAttribute?, hName, hValue]
  simp only [Option.bind_eq_bind, Option.bind_some, hWritten]
  exact hNode ▸ rfl

theorem usageAttribute?_value {name value : List Char} {start stop first last : Nat}
    (hName : StandsAt text name pos)
    (hSpan : valueSpan text (.mk .quotedValue start stop []) = some (first, last))
    (hValue : Text.span? text first last = some value) :
    usageAttribute? text (.mk .attributePair pos stop
        [.mk .attributeName pos (pos + Text.byteLength name) [], .mk .quotedValue start stop []]) =
      some
        { name := String.ofList name
          nameStart := pos
          nameEnd := pos + Text.byteLength name
          value := some (String.ofList value)
          valueStart := some first
          valueEnd := some last } := by
  generalize hNode : Node.mk .attributeName pos (pos + Text.byteLength name) [] = node
  generalize hOther : Node.mk .quotedValue start stop [] = other at hSpan
  have hWritten : node.text? text = some name := hNode ▸ hName.span?
  have hFirst : (Node.mk .attributePair pos stop [node, other]).child? [.attributeName] =
      some node := hNode ▸ rfl
  have hSecond : (Node.mk .attributePair pos stop [node, other]).child?
      [.quotedValue, .plainValue] = some other := hNode ▸ hOther ▸ rfl
  rw [usageAttribute?, hFirst, hSecond]
  simp only [Option.bind_eq_bind, Option.bind_some, hWritten, hSpan, hValue]
  exact hNode ▸ rfl

theorem bind_usageAttribute? (given : TagAttribute) (h : StandsAt text given.text pos) :
    (given.node? pos).bind (usageAttribute? text) = given.given? pos := by
  cases given with
  | spread value => rfl
  | bare name => exact usageAttribute?_bare h
  | quoted name value =>
    have hText : StandsAt text (name.1 ++ '=' :: '"' :: (value.1 ++ ['"'])) pos := by
      simpa [TagAttribute.text] using h
    have hValue := hText.right.tail
    exact usageAttribute?_value hText.left (valueSpan_quoted hValue) hValue.tail.left.span?
  | expression name value =>
    have hValue := h.right.tail
    exact usageAttribute?_value h.left (valueSpan_expression value hValue) hValue.span?

theorem kind_of_mem_attributeNodes {attributes : List (TagGap × TagAttribute)} {node : Node}
    (h : node ∈ attributeNodes pos attributes) : node.kind = .attributePair := by
  induction attributes generalizing pos with
  | nil => cases h
  | cons first attributes ih =>
    obtain hFirst | hMore := List.mem_append.mp h
    · obtain ⟨gap, given⟩ := first
      cases given <;> cases Option.mem_toList.mp hFirst <;> rfl
    · exact ih hMore

theorem areNested_attributeNodes (attributes : List (TagGap × TagAttribute)) (pos : Nat) :
    Node.areNested (attributeNodes pos attributes) = true := by
  induction attributes generalizing pos with
  | nil => rfl
  | cons first attributes ih =>
    obtain ⟨gap, given⟩ := first
    cases given <;> exact ih _

theorem isNested_tagNode (selfClosing : Bool) (pos : Nat) (name : List Char)
    (attributes : TagAttributes) : (tagNode selfClosing pos name attributes).isNested = true := by
  have hKinds : ∀ node ∈ attributeNodes (nameEndAt pos name) attributes.attributes,
      (node.kind != .element) = true := by
    intro node hNode
    rw [kind_of_mem_attributeNodes hNode]
    rfl
  rw [tagNode, Node.isNested, Bool.and_eq_true, Bool.or_eq_true]
  constructor
  · exact .inr (List.all_eq_true.mpr (List.forall_mem_cons.mpr ⟨rfl, hKinds⟩))
  · exact areNested_attributeNodes attributes.attributes _

theorem filterMap_attributeNodes (attributes : List (TagGap × TagAttribute))
    (h : StandsAt text (attributes.flatMap fun (gap, given) => gap.1 ++ given.text) pos) :
    (attributeNodes pos attributes).filterMap (usageAttribute? text) =
      givenAttributes pos attributes := by
  induction attributes generalizing pos with
  | nil => rfl
  | cons first attributes ih =>
    obtain ⟨gap, given⟩ := first
    rw [List.flatMap_cons] at h
    have hMore := h.right
    rw [Text.byteLength_append, ← Nat.add_assoc] at hMore
    rw [attributeNodes, givenAttributes, List.filterMap_append, ih hMore,
      ← bind_usageAttribute? given h.left.right]
    congr 1
    cases given.node? (pos + Text.byteLength gap.1) with
    | none => rfl
    | some node =>
      rw [Option.toList_some, List.filterMap_cons, Option.bind_some]
      cases usageAttribute? text node <;> rfl

theorem usageAttributes_tagNode {selfClosing : Bool} {name : List Char}
    {attributes : TagAttributes} (h : StandsAt text (startTag selfClosing name attributes) pos) :
    usageAttributes text (tagNode selfClosing pos name attributes) =
      givenAttributes (nameEndAt pos name) attributes.attributes := by
  have hNodes : (tagNode selfClosing pos name attributes).children.filter
      (·.kind == .attributePair) =
        attributeNodes (nameEndAt pos name) attributes.attributes :=
    List.filter_eq_self.mpr fun node hNode => beq_iff_eq.mpr (kind_of_mem_attributeNodes hNode)
  rw [usageAttributes, hNodes]
  exact filterMap_attributeNodes _ h.tail.right.left.left

end PhoenixLens.Markup
