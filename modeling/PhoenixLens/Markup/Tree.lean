import PhoenixLens.Markup.Html
import PhoenixLens.Markup.Usages
import PhoenixLens.Text.Casing

/-!
# Uses of components in a tree

The components that a template uses, found in its tree. The tree gives spans only; names and values
are taken from the text of the template.
-/

namespace PhoenixLens.Markup

/-- Nodes deeper than this are not looked at. -/
def maxTreeDepth : Nat := 256

/-- What the name of a tag stands for. -/
inductive TagMeaning where
  | component (moduleName : Option (List Char)) (name : List Char)
  | slot (name : List Char)
  | html
deriving DecidableEq, Repr

def cutAtLastDot? (name : List Char) : Option (List Char × List Char) :=
  if name.contains '.' then
    let last := Text.lastSegment name
    some (name.take (name.length - last.length - 1), last)
  else none

/-- What a name as written stands for. -/
def meaningOf (written : List Char) : TagMeaning :=
  match written with
  | '.' :: name => .component none name
  | ':' :: name => .slot name
  | _ =>
    match cutAtLastDot? written with
    | some (moduleName, name) =>
      if written.head?.any Text.isAsciiUpper && name.head?.any Text.startsIdentifier then
        .component (some moduleName) name
      else .html
    | none => .html

/-- The open tag of an element and the name in it. -/
def openTagOf? (element : Node) : Option (Node × Node) := do
  let tag ← element.child? [.startTag, .selfClosingTag]
  return (tag, ← tag.child? [.tagName])

def elementMeaning? (text : List Char) (element : Node) : Option TagMeaning := do
  let (_, name) ← openTagOf? element
  return meaningOf (← name.text? text)

/-- The ends of the value that a node stands for, without the quotes around it. -/
def valueSpan (text : List Char) (value : Node) : Option Span :=
  (value.text? text).map fun written =>
    if written.head? == some '{' || value.kind == .plainValue then (value.start, value.stop)
    else (value.start + 1, max (value.stop - 1) (value.start + 1))

def usageAttribute? (text : List Char) (pair : Node) : Option UsageAttribute := do
  let name ← pair.child? [.attributeName]
  let bare : UsageAttribute :=
    { name := String.ofList (← name.text? text), nameStart := name.start, nameEnd := name.stop }
  match pair.child? [.quotedValue, .plainValue] with
  | none => return bare
  | some value =>
    let (start, stop) ← valueSpan text value
    return { bare with
      value := (Text.span? text start stop).map String.ofList
      valueStart := start
      valueEnd := stop }

def usageAttributes (text : List Char) (tag : Node) : List UsageAttribute :=
  (tag.children.filter (·.kind == .attributePair)).filterMap (usageAttribute? text)

def usageSlot (text : List Char) (name : List Char) (element tag : Node) : UsageSlot :=
  { name := String.ofList name
    start := element.start
    openTagEnd := tag.stop
    stop := element.stop
    attributes := usageAttributes text tag
    selfClosing := tag.kind == .selfClosingTag }

mutual

/-- The slots that a node and what it contains fill for the component around it. -/
def slotsInNode (text : List Char) (depth : Nat) : Node → List UsageSlot
  | .mk kind start stop children =>
    let node := Node.mk kind start stop children
    if depth > maxTreeDepth || kind != .element then []
    else
      match elementMeaning? text node, openTagOf? node with
      | some (.slot name), some (tag, _) => [usageSlot text name node tag]
      | some (.component _ _), _ => []
      | _, _ => slotsInNodes text (depth + 1) children

def slotsInNodes (text : List Char) (depth : Nat) : List Node → List UsageSlot
  | [] => []
  | node :: nodes => slotsInNode text depth node ++ slotsInNodes text depth nodes

end

/-- The use of a component that an element stands for. -/
def usageOfElement? (text : List Char) (element : Node) : Option ComponentUsage := do
  let (tag, name) ← openTagOf? element
  match ← elementMeaning? text element with
  | .component moduleName componentName =>
    let selfClosing := tag.kind == .selfClosingTag
    let contentEnd :=
      max (((element.child? [.endTag]).map Node.start).getD element.stop) tag.stop
    let slots := slotsInNodes text 0 element.children
    return {
      componentName := String.ofList componentName
      moduleContext := moduleName.map String.ofList
      isLocal := moduleName.isNone
      openTagStart := element.start
      openTagEnd := tag.stop
      nameStart := name.start
      nameEnd := name.stop
      attributes := usageAttributes text tag
      slots
      selfClosing
      contentStart := if selfClosing then none else some tag.stop
      contentEnd := if selfClosing then none else some contentEnd
      blockEnd := element.stop
      providedSlotNames :=
        if selfClosing then [] else providedSlotNames text tag.stop contentEnd slots }
  | _ => none

mutual

/-- The uses of components in a node and what it contains, outer ones first. -/
def usagesInNode (text : List Char) (depth : Nat) : Node → List ComponentUsage
  | .mk kind start stop children =>
    if depth > maxTreeDepth then []
    else
      let usage :=
        if kind == .element then usageOfElement? text (.mk kind start stop children) else none
      usage.toList ++ usagesInNodes text (depth + 1) children

def usagesInNodes (text : List Char) (depth : Nat) : List Node → List ComponentUsage
  | [] => []
  | node :: nodes => usagesInNode text depth node ++ usagesInNodes text depth nodes

end

/-- The uses of components in a tree, in order of their open tags. -/
def usagesOfTree (text : List Char) (root : Node) : List ComponentUsage :=
  (usagesInNode text 0 root).mergeSort fun a b => a.openTagStart ≤ b.openTagStart

end PhoenixLens.Markup
