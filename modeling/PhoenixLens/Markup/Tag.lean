import PhoenixLens.Elixir.Lexical
import PhoenixLens.Model.Usage

/-!
# Tags

Open tags of a template, read without a tree. An attribute value may hold an expression in braces,
with strings and brackets of its own, so the end of a tag is the first `>` outside of quotes and
expressions. Functions that look ahead take the text from the offset `pos` on; functions that walk
over a text jump by skipping characters up to an offset to resume at.
-/

namespace PhoenixLens.Markup

open Elixir (Quoting isQuote isOpening isClosing withMark)

/-- The offset behind the bracket that closes the first one of the text. -/
def expressionEnd? (pos : Nat) (cs : List Char) : Option Nat :=
  go .code 0 pos cs
where
  /-- Continues with the given number of open brackets. -/
  go : Quoting → Nat → Nat → List Char → Option Nat
    | _, _, _, [] => none
    | .code, depth, pos, c :: cs =>
      let next := pos + c.utf8Size
      if isOpening c then go .code (depth + 1) next cs
      else if isClosing c then
        if depth ≤ 1 then some next else go .code (depth - 1) next cs
      else go (Quoting.code.step c) depth next cs
    | state, depth, pos, c :: cs => go (state.step c) depth (pos + c.utf8Size) cs

structure TagEnd where
  /-- The offset behind the `>`. -/
  stop : Nat
  /-- The offset of the slash, if nothing but white space stands between it and the `>`. -/
  slash : Option Nat
deriving DecidableEq, Repr

namespace TagEnd

def selfClosing (tagEnd : TagEnd) : Bool := tagEnd.slash.isSome

def attributesEnd (tagEnd : TagEnd) : Nat := tagEnd.slash.getD (tagEnd.stop - 1)

end TagEnd

/-- The end of the open tag whose text goes on at the offset `pos`. A `<` outside of quotes and
expressions shows that the tag has no end. -/
def tagEnd? (pos : Nat) (cs : List Char) : Option TagEnd :=
  go pos none pos cs
where
  /-- Continues at `resume`; the last character that is not blank was a slash at `slash`. -/
  go (resume : Nat) (slash : Option Nat) (pos : Nat) : List Char → Option TagEnd
    | [] => none
    | c :: cs =>
      let next := pos + c.utf8Size
      if pos < resume then go resume slash next cs
      else if isQuote c then
        match Text.offsetOf? [c] next cs with
        | some close => go (close + 1) none next cs
        | none => none
      else if c == '{' then
        match expressionEnd? pos (c :: cs) with
        | some stop => go stop none next cs
        | none => none
      else if c == '>' then some ⟨next, slash⟩
      else if c == '<' then none
      else if Text.isTagBlank c then go resume slash next cs
      else go resume (if c == '/' then some pos else none) next cs

/-! ### Attributes -/

def isAttributeNameChar (c : Char) : Bool :=
  !(Text.isTagBlank c || isQuote c || c == '=' || c == '>' || c == '/' || c == '{')

/-- A value with the offsets of its ends, and the offset behind it. -/
structure AttributeValue where
  text : List Char
  start : Nat
  stop : Nat
  next : Nat
deriving DecidableEq, Repr

/-- The value that a text begins with. An unfinished value reaches to the end of the text. -/
def attributeValue (pos : Nat) (cs : List Char) : Option AttributeValue :=
  match cs with
  | [] => none
  | c :: rest =>
    let ending := pos + Text.byteLength cs
    if isQuote c then
      let text := rest.takeWhile (· != c)
      let stop := pos + 1 + Text.byteLength text
      some ⟨text, pos + 1, stop, min (stop + 1) ending⟩
    else if c == '{' then
      let stop := min ((expressionEnd? pos cs).getD ending) ending
      some ⟨Text.takeBytes (stop - pos) cs, pos, stop, stop⟩
    else
      let text := cs.takeWhile fun c => !Text.isTagBlank c && c != '>'
      let stop := pos + Text.byteLength text
      some ⟨text, pos, stop, stop⟩

/-- The attribute whose name a text begins with, and the offset to resume at. -/
def attributeOf (pos : Nat) (cs : List Char) : UsageAttribute × Nat :=
  let name := cs.takeWhile isAttributeNameChar
  let nameEnd := pos + Text.byteLength name
  let bare : UsageAttribute := { name := String.ofList name, nameStart := pos, nameEnd }
  let rest := cs.dropWhile isAttributeNameChar
  let blanks := rest.takeWhile Text.isTagBlank
  match rest.dropWhile Text.isTagBlank with
  | '=' :: rest =>
    let valuePos := nameEnd + Text.byteLength blanks + 1 +
      Text.byteLength (rest.takeWhile Text.isTagBlank)
    match attributeValue valuePos (rest.dropWhile Text.isTagBlank) with
    | some v =>
      ({ bare with
        value := String.ofList v.text
        valueStart := v.start
        valueEnd := v.stop }, v.next)
    | none => (bare, valuePos)
  | _ => (bare, nameEnd)

/-- The attributes in the text of an open tag behind its name. Expressions that stand for
attributes themselves are left out. -/
def attributesOf (pos : Nat) (cs : List Char) : List UsageAttribute :=
  go pos pos cs
where
  /-- Continues at `resume`. -/
  go (resume : Nat) (pos : Nat) : List Char → List UsageAttribute
    | [] => []
    | c :: cs =>
      let next := pos + c.utf8Size
      if pos < resume then go resume next cs
      else if c == '{' then
        match expressionEnd? pos (c :: cs) with
        | some stop => go stop next cs
        | none => []
      else if isAttributeNameChar c then
        let (given, stop) := attributeOf pos (c :: cs)
        given :: go stop next cs
      else go resume next cs

/-! ### Open tags -/

/-- An open tag, of a component, a slot or an HTML element. -/
structure OpenTag where
  /-- The name as written, with its leading dot or colon. -/
  name : List Char
  start : Nat
  nameEnd : Nat
  stop : Nat
  selfClosing : Bool
  attributes : List UsageAttribute
deriving DecidableEq, Repr

def OpenTag.encode (tag : OpenTag) : Json :=
  .obj [("name", .text tag.name), ("start", .nat tag.start), ("nameEnd", .nat tag.nameEnd),
    ("end", .nat tag.stop), ("selfClosing", .bool tag.selfClosing),
    ("attributes", .list UsageAttribute.encode tag.attributes)]

/-- The open tag that begins at `start` with the given name, followed by `rest`. -/
def readOpenTag? (start : Nat) (name rest : List Char) : Option OpenTag :=
  let nameEnd := start + 1 + Text.byteLength name
  (tagEnd? nameEnd rest).map fun tagEnd =>
    { name, start, nameEnd
      stop := tagEnd.stop
      selfClosing := tagEnd.selfClosing
      attributes := attributesOf nameEnd (Text.takeBytes (tagEnd.attributesEnd - nameEnd) rest) }

/-- The name of any tag that a text begins with. -/
def tagName? (cs : List Char) : Option (List Char) :=
  match cs with
  | [] => none
  | c :: rest =>
    if Text.isAsciiLetter c || c == '.' || c == ':' then
      let continues := fun c => Text.isAsciiWord c || c == '.' || c == ':' || c == '-'
      some (withMark (c :: rest.takeWhile continues) (rest.dropWhile continues))
    else none

/-- The open tags of a text that begins at the offset `pos`, in order. -/
def openTags (pos : Nat) : List Char → List OpenTag
  | [] => []
  | c :: cs =>
    let tag := if c == '<' then
        (tagName? cs).bind fun name => readOpenTag? pos name (cs.drop name.length)
      else none
    tag.toList ++ openTags (pos + c.utf8Size) cs

end PhoenixLens.Markup
