import PhoenixLens.Markup.Usages
import PhoenixLens.Proofs.Text.Rest

/-!
# Templates as trees

A template is a tree of text, elements, components and slots. It is written as a text, and the uses
of its components with their slots are found by going through the tree, with the offset of each part
in that text.
-/

namespace PhoenixLens.Markup

/-! ### Parts of tags -/

/-- What makes a tag of a `<` before it. -/
def startsTag (c : Char) : Bool := Text.isAsciiLetter c || c == '.' || c == ':' || c == '/'

/-- No tag begins in the text. -/
def HasNoTag (text : List Char) : Prop := text.IsChain fun c d => c = '<' → startsTag d = false

structure IsIdentifier (name : List Char) : Prop where
  first : ∃ c rest, name = c :: rest ∧ Text.startsIdentifier c = true
  all : ∀ c ∈ name, Text.isAsciiWord c = true

structure IsCapitalised (part : List Char) : Prop where
  first : ∃ c rest, part = c :: rest ∧ Text.isAsciiUpper c = true
  all : ∀ c ∈ part, Text.isAsciiWord c = true

/-- What continues the name of an element. -/
def isElementChar (c : Char) : Bool := Text.isAsciiWord c || c == '-' || c == ':'

structure IsElementName (name : List Char) : Prop where
  first : ∃ c rest, name = c :: rest ∧ Text.isAsciiLetter c = true
  all : ∀ c ∈ name, isElementChar c = true

abbrev PlainText := { text : List Char // HasNoTag text }

abbrev Identifier := { name : List Char // IsIdentifier name }

abbrev ModulePart := { part : List Char // IsCapitalised part }

abbrev ElementName := { name : List Char // IsElementName name }

/-- A question or exclamation mark at the end of a name, or nothing. -/
abbrev NameMark := { mark : List Char // mark ∈ [[], ['?'], ['!']] }

theorem isMark_nil : [] ∈ [[], ['?'], ['!']] := List.mem_cons_self

/-- White space in a tag. -/
abbrev TagBlanks := { blanks : List Char // ∀ c ∈ blanks, Text.isTagBlank c = true }

theorem isTagBlank_of_mem_nil : ∀ c ∈ [], Text.isTagBlank c = true := List.forall_mem_nil _

/-- White space before an attribute. -/
abbrev TagGap := { gap : List Char // gap ≠ [] ∧ ∀ c ∈ gap, Text.isTagBlank c = true }

abbrev AttributeName :=
  { name : List Char // name ≠ [] ∧ ∀ c ∈ name, isAttributeNameChar c = true ∧ c ≠ '<' }

/-- What may stand between quotes. -/
abbrev QuotedText := { text : List Char // '"' ∉ text ∧ HasNoTag text }

/-- An expression with its braces, which closes where the text ends. -/
abbrev Expression :=
  { text : List Char // (∃ inner, text = '{' :: inner) ∧
      expressionEnd? 0 text = some (Text.byteLength text) ∧ HasNoTag text }

/-- The name of a component; a local one has no module. -/
structure ComponentName where
  modules : List ModulePart
  name : Identifier
  mark : NameMark

inductive WrittenName where
  | element (name : ElementName)
  | component (name : ComponentName)
  | slot (name : Identifier)

inductive TagAttribute where
  | bare (name : AttributeName)
  | quoted (name : AttributeName) (value : QuotedText)
  | expression (name : AttributeName) (value : Expression)
  /-- An expression that stands for attributes. -/
  | spread (value : Expression)

/-- The attributes of a tag with the white space before each of them and behind the last. -/
structure TagAttributes where
  attributes : List (TagGap × TagAttribute)
  ending : TagBlanks

namespace WrittenName

def component? : WrittenName → Option ComponentName
  | component name => some name
  | _ => none

def slot? : WrittenName → Option Identifier
  | slot name => some name
  | _ => none

end WrittenName

/-- What stands in a template, one after the other. The index says whether it may begin with text,
which it may not behind text. -/
inductive Template : Bool → Type where
  | done {texts : Bool} : Template texts
  | text (text : PlainText) (next : Template false) : Template true
  /-- A tag with its closing tag and what stands between them. -/
  | block {texts : Bool} (name : WrittenName) (attributes : TagAttributes)
      (body next : Template true) : Template texts
  | selfClosing {texts : Bool} (name : WrittenName) (attributes : TagAttributes)
      (next : Template true) : Template texts
  /-- An element that has no closing tag. -/
  | void {texts : Bool} (name : ElementName) (attributes : TagAttributes) (next : Template true) :
      Template texts

/-! ### Text -/

namespace ComponentName

def callName (name : ComponentName) : CallName where
  moduleName :=
    if name.modules.isEmpty then none else some (Text.join ['.'] (name.modules.map (·.1)))
  name := name.name.1 ++ name.mark.1

end ComponentName

/-- The name as a tag has it, with a leading dot or colon. -/
def WrittenName.text : WrittenName → List Char
  | element name => name.1
  | component name => name.callName.written
  | slot name => ':' :: name.1

def TagAttribute.text : TagAttribute → List Char
  | bare name => name.1
  | quoted name value => name.1 ++ '=' :: '"' :: value.1 ++ ['"']
  | expression name value => name.1 ++ '=' :: value.1
  | spread value => value.1

def TagAttributes.text (written : TagAttributes) : List Char :=
  written.attributes.flatMap (fun (gap, given) => gap.1 ++ given.text) ++ written.ending.1

/-- How a tag ends, with a slash before its end or without. -/
def tagEnding (selfClosing : Bool) : List Char := if selfClosing then ['/', '>'] else ['>']

def startTag (selfClosing : Bool) (name : List Char) (attributes : TagAttributes) : List Char :=
  '<' :: (name ++ (attributes.text ++ tagEnding selfClosing))

def closeTag (name : List Char) : List Char := '<' :: '/' :: (name ++ ['>'])

def Template.source : {texts : Bool} → Template texts → List Char
  | _, done => []
  | _, text own next => own.1 ++ next.source
  | _, block name attributes body next =>
    startTag false name.text attributes ++ (body.source ++ (closeTag name.text ++ next.source))
  | _, selfClosing name attributes next => startTag true name.text attributes ++ next.source
  | _, void name attributes next => startTag false name.1 attributes ++ next.source

/-! ### Meaning -/

/-- The attribute that is written at an offset, unless it is an expression alone. -/
def TagAttribute.given? (pos : Nat) : TagAttribute → Option UsageAttribute
  | bare name =>
    some
      { name := String.ofList name.1
        nameStart := pos
        nameEnd := pos + Text.byteLength name.1 }
  | quoted name value =>
    let start := pos + Text.byteLength name.1 + 2
    some
      { name := String.ofList name.1
        nameStart := pos
        nameEnd := pos + Text.byteLength name.1
        value := some (String.ofList value.1)
        valueStart := some start
        valueEnd := some (start + Text.byteLength value.1) }
  | expression name value =>
    let start := pos + Text.byteLength name.1 + 1
    some
      { name := String.ofList name.1
        nameStart := pos
        nameEnd := pos + Text.byteLength name.1
        value := some (String.ofList value.1)
        valueStart := some start
        valueEnd := some (start + Text.byteLength value.1) }
  | spread _ => none

/-- The attributes that are written from an offset on. -/
def givenAttributes (pos : Nat) : List (TagGap × TagAttribute) → List UsageAttribute
  | [] => []
  | (gap, given) :: more =>
    let start := pos + Text.byteLength gap.1
    (given.given? start).toList ++ givenAttributes (start + Text.byteLength given.text) more

/-- The offset behind the name of a tag that begins at `pos`. -/
def nameEndAt (pos : Nat) (name : List Char) : Nat := pos + 1 + Text.byteLength name

def slotAt (pos : Nat) (name : Identifier) (attributes : TagAttributes) (openTagEnd stop : Nat)
    (selfClosing : Bool) : UsageSlot :=
  { name := String.ofList name.1
    start := pos
    openTagEnd
    stop
    attributes := givenAttributes (nameEndAt pos (':' :: name.1)) attributes.attributes
    selfClosing }

/-- What a block adds to the slots of the component around it, given the slots in its body. -/
def WrittenName.ownSlots (pos : Nat) (attributes : TagAttributes) (openTagEnd stop : Nat)
    (inner : List UsageSlot) : WrittenName → List UsageSlot
  | element _ => inner
  | component _ => []
  | slot name => [slotAt pos name attributes openTagEnd stop false]

/-- The use of a component whose tag begins at `pos`, without what is in it. -/
def usageWithout (pos : Nat) (name : ComponentName) (attributes : TagAttributes)
    (openTagEnd blockEnd : Nat) : ComponentUsage :=
  { componentName := String.ofList name.callName.name
    moduleContext := name.callName.moduleName.map String.ofList
    isLocal := name.modules.isEmpty
    openTagStart := pos
    openTagEnd
    nameStart := pos + 1
    nameEnd := nameEndAt pos name.callName.written
    attributes :=
      givenAttributes (nameEndAt pos name.callName.written) attributes.attributes
    selfClosing := true
    blockEnd }

namespace Template

/-- The slots of a template that belong to the component around it. -/
def slots : {texts : Bool} → Nat → Template texts → List UsageSlot
  | _, _, done => []
  | _, pos, text own next => next.slots (pos + Text.byteLength own.1)
  | _, pos, block name attributes body next =>
    let inside := pos + Text.byteLength (startTag false name.text attributes)
    let stop := inside + Text.byteLength body.source + Text.byteLength (closeTag name.text)
    name.ownSlots pos attributes inside stop (body.slots inside) ++ next.slots stop
  | _, pos, selfClosing name attributes next =>
    let stop := pos + Text.byteLength (startTag true name.text attributes)
    let own := name.slot?.map fun name => slotAt pos name attributes stop stop true
    own.toList ++ next.slots stop
  | _, pos, void name attributes next =>
    next.slots (pos + Text.byteLength (startTag false name.1 attributes))

/-- Something other than white space stands outside of the slots. -/
def hasContent : {texts : Bool} → Template texts → Bool
  | _, done => false
  | _, text own next => !Text.allBlank own.1 || next.hasContent
  | _, block name _ _ next => name.slot?.isNone || next.hasContent
  | _, selfClosing name _ next => name.slot?.isNone || next.hasContent
  | _, void _ _ _ => true

/-- The slots that content fills, in order of their first tags, and the inner block behind them. -/
def providedNames (pos : Nat) {texts : Bool} (template : Template texts) : List String :=
  let names := ((template.slots pos).map UsageSlot.name).eraseDups
  if template.hasContent && !names.contains innerBlock then names ++ [innerBlock] else names

/-- The uses of the components of a template that is written from an offset on. -/
def usages : {texts : Bool} → Nat → Template texts → List ComponentUsage
  | _, _, done => []
  | _, pos, text own next => next.usages (pos + Text.byteLength own.1)
  | _, pos, block name attributes body next =>
    let inside := pos + Text.byteLength (startTag false name.text attributes)
    let behind := inside + Text.byteLength body.source
    let stop := behind + Text.byteLength (closeTag name.text)
    let own := name.component?.map fun name =>
      { usageWithout pos name attributes inside stop with
        slots := body.slots inside
        selfClosing := false
        contentStart := some inside
        contentEnd := some behind
        providedSlotNames := body.providedNames inside }
    own.toList ++ (body.usages inside ++ next.usages stop)
  | _, pos, selfClosing name attributes next =>
    let stop := pos + Text.byteLength (startTag true name.text attributes)
    let own := name.component?.map fun name => usageWithout pos name attributes stop stop
    own.toList ++ next.usages stop
  | _, pos, void name attributes next =>
    next.usages (pos + Text.byteLength (startTag false name.1 attributes))

end Template

end PhoenixLens.Markup
