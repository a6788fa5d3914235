import PhoenixLens.Markup.Tag
import PhoenixLens.Model.Component

/-!
# Uses of components in a text

The components that a template uses, found in its text alone. The closing tag of a component is
found by counting tags of its name, and the slots of a component are the slots in its content that
do not stand inside another component.
-/

namespace PhoenixLens.Markup

open Elixir (identifier? withMark)

/-- A range of offsets, without its end. -/
abbrev Span := Nat × Nat

structure CallName where
  moduleName : Option (List Char)
  name : List Char
deriving DecidableEq, Repr

def CallName.written (callName : CallName) : List Char :=
  callName.moduleName.getD [] ++ '.' :: callName.name

/-- The name of a component of a module: capitalised parts, then an identifier. -/
def remoteName? (cs : List Char) : Option CallName :=
  let continues := fun c => Text.isAsciiWord c || c == '.'
  let parts := Text.splitAt '.' (cs.takeWhile continues)
  let isModulePart := fun part : List Char => part.head?.any Text.isAsciiUpper
  match parts.takeWhile isModulePart, parts.dropWhile isModulePart with
  | [], _ => none
  | _, [] => none
  | moduleParts, part :: further =>
    (identifier? part).map fun name =>
      { moduleName := some (Text.join ['.'] moduleParts)
        name := if further.isEmpty then withMark name (cs.dropWhile continues) else name }

/-- The name of a component that a text begins with. -/
def callName? (cs : List Char) : Option CallName :=
  match cs with
  | '.' :: rest =>
    (identifier? rest).map fun name =>
      { moduleName := none, name := withMark name (rest.drop name.length) }
  | cs => remoteName? cs

/-! ### Closing tags -/

/-- The name of a tag may end before the text. -/
def endsName (cs : List Char) : Bool :=
  match cs with
  | [] => true
  | c :: _ => Text.isBlank c || c == '>' || c == '/'

/-- What follows the name of a tag that a text begins with. -/
def afterTagName? (tag cs : List Char) : Option (List Char) :=
  (tag.isPrefixOf? cs).filter endsName

/-- The span among those given that contains the offset. -/
def spanAt? (spans : List Span) (pos : Nat) : Option Span :=
  spans.find? fun (start, stop) => start ≤ pos && pos < stop

/-- The closing tag that belongs to an open tag of the given name, in the text behind the open tag.
Tags in the spans `skip` do not count. -/
def matchingClose? (tag : List Char) (skip : List Span) (pos : Nat) (cs : List Char) :
    Option Span :=
  go 0 pos pos cs
where
  /-- Continues at `resume` with the given number of further open tags of that name. -/
  go (depth resume pos : Nat) : List Char → Option Span
    | [] => none
    | c :: cs =>
      let next := pos + c.utf8Size
      if pos < resume || c != '<' then go depth resume next cs
      else
        match spanAt? skip pos with
        | some (_, stop) => go depth stop next cs
        | none =>
          match Text.stripPrefix? "/" cs with
          | some after =>
            match afterTagName? tag after with
            | some _ =>
              match Text.offsetOf? ['>'] next cs, depth with
              | none, _ => none
              | some close, 0 => some (pos, close + 1)
              | some close, depth + 1 => go depth (close + 1) next cs
            | none => go depth resume next cs
          | none =>
            let tagEnd := (afterTagName? tag cs).bind (tagEnd? (next + Text.byteLength tag))
            match tagEnd with
            | some e => go (if e.selfClosing then depth else depth + 1) e.stop next cs
            | none => go depth resume next cs

/-! ### Slots -/

/-- The slots in a text up to the offset `stop`. Slots in the spans `nested` do not count. -/
def slotsOf (stop : Nat) (nested : List Span) (pos : Nat) (cs : List Char) : List UsageSlot :=
  go pos pos cs
where
  /-- Continues at `resume`. -/
  go (resume pos : Nat) : List Char → List UsageSlot
    | [] => []
    | c :: cs =>
      let next := pos + c.utf8Size
      if stop ≤ pos then []
      else if pos < resume || c != '<' then go resume next cs
      else
        match slotName? cs with
        | none => go resume next cs
        | some name =>
          match spanAt? nested pos with
          | some (_, skipped) => go skipped next cs
          | none =>
            let written := ':' :: name
            match readOpenTag? pos written (cs.drop written.length) with
            | none => go resume next cs
            | some tag =>
              let behind := Text.dropBytes (tag.stop - next) cs
              let slotEnd := if tag.selfClosing then tag.stop else
                ((matchingClose? written nested tag.stop behind).map (·.2)).getD tag.stop
              { name := String.ofList name
                start := pos
                openTagEnd := tag.stop
                stop := slotEnd
                attributes := tag.attributes
                selfClosing := tag.selfClosing : UsageSlot } :: go slotEnd next cs
  slotName? (cs : List Char) : Option (List Char) :=
    match cs with
    | ':' :: rest => identifier? rest
    | _ => none

/-- Something other than white space stands between `start` and `stop` outside of the spans. -/
def hasBody (text : List Char) (start stop : Nat) (spans : List Span) : Bool :=
  match spans with
  | [] => start < stop && !Text.allBlank (Text.slice text start stop)
  | (first, last) :: spans =>
    (start < first && !Text.allBlank (Text.slice text start first)) ||
      hasBody text (max start last) stop spans

/-- The names of the slots that content fills, each once. Content outside of slots fills the inner
block. -/
def providedSlotNames (text : List Char) (start stop : Nat) (slots : List UsageSlot) :
    List String :=
  let names := slots.foldl
    (fun names slot => if names.contains slot.name then names else names ++ [slot.name]) []
  let ordered := slots.mergeSort fun a b => a.start ≤ b.start
  let spans := ordered.map fun slot => (slot.start, slot.stop)
  if hasBody text start stop spans && !names.contains innerBlock then names ++ [innerBlock]
  else names

/-! ### Uses -/

/-- The use of a component that a tag begins, without its slots. The tag begins at `pos`, and `cs`
follows the `<`. -/
def usageAt? (pos : Nat) (cs : List Char) : Option ComponentUsage := do
  let callName ← callName? cs
  let written := callName.written
  let tag ← readOpenTag? pos written (cs.drop written.length)
  let close := if tag.selfClosing then none else
    matchingClose? written [] tag.stop (Text.dropBytes (tag.stop - (pos + 1)) cs)
  return {
    componentName := String.ofList callName.name
    moduleContext := callName.moduleName.map String.ofList
    isLocal := callName.moduleName.isNone
    openTagStart := tag.start
    openTagEnd := tag.stop
    nameStart := tag.start + 1
    nameEnd := tag.nameEnd
    attributes := tag.attributes
    selfClosing := tag.selfClosing
    contentStart := close.map fun _ => tag.stop
    contentEnd := close.map (·.1)
    blockEnd := (close.map (·.2)).getD tag.stop }

/-- The uses of components in a text that begins at the offset `pos`, without their slots. -/
def bareUsages (pos : Nat) : List Char → List ComponentUsage
  | [] => []
  | c :: cs =>
    (if c == '<' then usageAt? pos cs else none).toList ++ bareUsages (pos + c.utf8Size) cs

/-- Adds the slots of a use, given the spans of all uses. -/
def withSlots (text : List Char) (spans : List Span) (usage : ComponentUsage) : ComponentUsage :=
  match usage.contentStart, usage.contentEnd with
  | some start, some stop =>
    let nested := spans.filter fun (first, last) => start ≤ first && last ≤ stop
    let slots := slotsOf stop nested start (Text.dropBytes start text)
    { usage with slots, providedSlotNames := providedSlotNames text start stop slots }
  | _, _ => usage

/-- The uses of components in a text, in order of their open tags. -/
def usagesOf (text : List Char) : List ComponentUsage :=
  let usages := bareUsages 0 text
  let spans := usages.map fun usage => (usage.openTagStart, usage.blockEnd)
  usages.map (withSlots text spans)

/-- The uses whose blocks contain the offset, from the outside in. -/
def usageStack (usages : List ComponentUsage) (offset : Nat) : List ComponentUsage :=
  (usages.filter (·.contains offset)).mergeSort fun a b =>
    a.openTagStart < b.openTagStart ||
      (a.openTagStart == b.openTagStart && b.blockEnd ≤ a.blockEnd)

end PhoenixLens.Markup
