import PhoenixLens.Markup.Mask
import PhoenixLens.Markup.Html.TagSyntax

/-!
# HTML trees

The tree of an HTML text. Elements nest by their tags, and some end without a closing tag: void
elements before the next tag, elements that cannot contain the element that opens next, and
elements inside one that is closed. A text that is not HTML has a tree as well: what has no place
in it is passed over.
-/

namespace PhoenixLens.Markup

/-! ### Elements that end without a closing tag -/

/-- What stands before the next element or the end of the text. A tag may lack its name. -/
inductive Ahead where
  | opening (name : Option TagName)
  | closing (name : Option TagName)
  | ending

/-- What the text behind a `<` announces. -/
def Ahead.ofTag (behind : List Char) : Ahead :=
  let name := fun cs => if (writtenName cs).isEmpty then none else some (tagNameOf (writtenName cs))
  match Text.stripPrefix? "/" behind with
  | some cs => .closing (name cs)
  | none => .opening (name behind)

/-- The innermost of the open elements ends before what stands ahead. -/
def endsBefore (ahead : Ahead) (innermost : Option TagName) (outer : List (Option TagName)) :
    Bool :=
  match ahead with
  | .opening name =>
    innermost.any fun parent => isVoid parent || name.any fun child => !canContain parent child
  | .closing none => false
  | .closing (some name) =>
    innermost != some name && (innermost :: outer).any fun open? => open?.any (sameType name)
  | .ending =>
    innermost.any fun parent =>
      isVoid parent || ["html", "head", "body", "colgroup"].contains parent

/-- How many of the open elements, the innermost first, end before what stands ahead. -/
def implicitEnds (ahead : Ahead) : List (Option TagName) → Nat
  | [] => 0
  | innermost :: outer =>
    if endsBefore ahead innermost outer then implicitEnds ahead outer + 1 else 0

/-! ### The tree -/

structure OpenElement where
  kind : NodeKind
  /-- The name that it can be closed by, unless it has been forgotten. -/
  name : Option TagName
  start : Nat
  /-- The nodes read so far, last first. -/
  children : List Node

/-- The nodes of the text outside of open elements, last first, and the open elements, innermost
first. -/
structure Growing where
  done : List Node := []
  elements : List OpenElement := []
  /-- The end of what has been read, without white space behind it. -/
  reached : Nat := 0
  /-- Nothing has been passed over. -/
  sound : Bool := true

/-- The tree of a text, and whether all of the text has its place in it. -/
structure HtmlTree where
  root : Node
  sound : Bool

def elementKind (name : TagName) : NodeKind :=
  if isRaw name then .other (name ++ "_element") else .element

namespace Growing

def add (growing : Growing) (node : Node) : Growing :=
  match growing.elements with
  | [] => { growing with done := node :: growing.done }
  | e :: outer => { growing with elements := { e with children := node :: e.children } :: outer }

def close (growing : Growing) (stop : Nat) : Growing :=
  match growing.elements with
  | [] => growing
  | e :: outer =>
    { growing with elements := outer }.add (.mk e.kind e.start stop e.children.reverse)

/-- Ends the given number of elements at an offset. -/
def closeMany (growing : Growing) (stop : Nat) : Nat → Growing
  | 0 => growing
  | n + 1 => (growing.close stop).closeMany stop n

def openNames (growing : Growing) : List (Option TagName) := growing.elements.map OpenElement.name

/-- Ends the elements that end before what stands ahead at an offset. -/
def closeBefore (growing : Growing) (ahead : Ahead) (pos : Nat) : Growing :=
  growing.closeMany pos (implicitEnds ahead growing.openNames)

/-- The text has been read up to an offset. -/
def reach (growing : Growing) (stop : Nat) : Growing := { growing with reached := stop }

/-- Takes note of something that has no place in the tree. -/
def spoil (growing : Growing) : Growing := { growing with sound := false }

def takeOpening (growing : Growing) (tag : ReadTag) : Growing :=
  if tag.selfClosing then
    growing.add (.mk .element tag.node.start tag.node.stop [tag.node])
  else
    let element : OpenElement := {
      kind := elementKind tag.name
      name := keepName growing.openNames tag.name
      start := tag.node.start
      children := [tag.node] }
    { growing with elements := element :: growing.elements }

/-- Takes up a closing tag. Outside of all elements it has no place. -/
def takeClosing (growing : Growing) (tag : ReadTag) : Growing :=
  match growing.openNames with
  | [] => growing.spoil
  | innermost :: _ =>
    if innermost == some tag.name then (growing.add tag.node).close tag.node.stop
    else growing.add (.mk (.other "erroneous_end_tag") tag.node.start tag.node.stop [])

/-- Takes note of whether a tag is sound, and of its end. -/
def takeEnd (growing : Growing) (tag : ReadTag) : Growing :=
  (if tag.sound then growing else growing.spoil).reach tag.node.stop

/-- The nodes of the open elements outside of their elements, in order. -/
def looseNodes (growing : Growing) : List Node :=
  (growing.elements.reverse.map fun e => e.children.reverse).flatten

/-- An open element that lacks nothing but its closing tag is given one. It takes more than a short
tag alone to be an element. -/
def lacksOnlyEnd (growing : Growing) : Bool :=
  match growing.elements with
  | [e] => e.children.length > 1 || growing.reached - e.start > 10
  | _ => false

/-- The tree at the end of the text. Elements that are open there stay elements if no more than a
closing tag is missing. -/
def tree (growing : Growing) (ending : Nat) : HtmlTree :=
  let growing := growing.closeBefore .ending ending
  let complete :=
    if growing.lacksOnlyEnd then growing.close growing.reached
    else
      match growing.elements.getLast? with
      | none => growing
      | some outermost =>
        let loose := .mk (.other "ERROR") outermost.start growing.reached growing.looseNodes
        { growing with elements := [] }.add loose
  { root := .mk (.other "document") 0 ending complete.done.reverse
    sound := growing.sound && growing.elements.isEmpty }

end Growing

/-- The offset at which the text of a raw element ends: before its closing tag, whose beginning is
given. The text goes on at `pos`, with `expected` still to come of a closing tag at `start`; a
character that is not expected belongs to the text and begins no closing tag itself. -/
def rawEnd (closing expected : List Char) (start pos : Nat) : List Char → Nat
  | [] => start
  | c :: cs =>
    let next := pos + c.utf8Size
    match expected with
    | [] => start
    | e :: rest =>
      if Text.asciiLowercase [c] == [e] then rawEnd closing rest start next cs
      else rawEnd closing closing next next cs

/-- An ampersand begins an entity if such text follows it. -/
def continuesEntity (cs : List Char) : Bool :=
  match cs with
  | '#' :: d :: cs =>
    Text.isAsciiDigit d ||
      ((d == 'x' || d == 'X') && cs.head?.any fun c => (Text.hexValue? c).isSome)
  | c :: _ => Text.isAsciiLetter c
  | [] => false

/-- The offset behind the document type that follows a `<!`. -/
def documentTypeEnd? (pos : Nat) (cs : List Char) : Option Nat :=
  let (start, cs) := skipBlanks 0 pos cs
  let word := "doctype".toList
  if Text.asciiLowercase (cs.take word.length) == word then
    match Text.offsetOf? ['>'] (start + word.length) (cs.drop word.length) with
    | some close => if close > start + word.length then some (close + 1) else none
    | none => none
  else none

/-- Reads on at `resume`. -/
def grow (growing : Growing) (resume pos : Nat) : List Char → HtmlTree
  | [] => growing.tree pos
  | c :: cs =>
    let next := pos + c.utf8Size
    if pos < resume || isHtmlBlank c then grow growing resume next cs
    else if c == '>' || c == '\x00' || (c == '&' && !continuesEntity cs) then
      grow (growing.spoil.reach next) resume next cs
    else if c != '<' then grow (growing.reach next) resume next cs
    else
      match Text.stripPrefix? "!" cs with
      | some behind =>
        match (commentEnd? pos (c :: cs)).or (documentTypeEnd? (next + 1) behind) with
        | some stop => grow (growing.reach stop) stop next cs
        | none => grow (growing.spoil.reach next) resume next cs
      | none =>
        let growing := growing.closeBefore (.ofTag cs) pos
        match Text.stripPrefix? "/" cs with
        | some behind =>
          match closingTag? pos behind with
          | some tag => grow ((growing.takeClosing tag).takeEnd tag) tag.node.stop next cs
          | none => grow (growing.spoil.reach next) resume next cs
        | none =>
          match openingTag? pos cs with
          | some tag =>
            let stop := tag.node.stop
            let behind := if isRaw tag.name && !tag.selfClosing then
                let closing := "</".toList ++ tag.name.toList
                rawEnd closing closing stop stop (Text.dropBytes (stop - next) cs)
              else stop
            grow (((growing.takeOpening tag).takeEnd tag).reach behind) behind next cs
          | none => grow (growing.spoil.reach next) resume next cs

def parseHtml (cs : List Char) : HtmlTree := grow {} 0 0 cs

def parseTemplate (cs : List Char) : HtmlTree := parseHtml (mask cs)

end PhoenixLens.Markup
