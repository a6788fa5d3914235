import PhoenixLens.Elixir.Lexical
import PhoenixLens.Markup.Node
import PhoenixLens.Text.Basic

/-!
# Elements and tags of HTML

The names that HTML knows, which of these elements have no content, and which may not stand inside
each other. Names are compared without case; names that HTML does not know count as one type of
element.

Opening and closing tags with the spans of their parts. White space and comments may stand between
any two parts of a tag. What has no place in a tag is passed over, and the tag is then not sound.
-/

namespace PhoenixLens.Markup

/-- The name of an element, in lower case. -/
abbrev TagName := String

def voidNames : List TagName :=
  ["area", "base", "basefont", "bgsound", "br", "col", "command", "embed", "frame", "hr", "image",
    "img", "input", "isindex", "keygen", "link", "menuitem", "meta", "nextid", "param", "source",
    "track", "wbr"]

/-- The other elements of HTML. -/
def containerNames : List TagName :=
  ["a", "abbr", "address", "article", "aside", "audio", "b", "bdi", "bdo", "blockquote", "body",
    "button", "canvas", "caption", "cite", "code", "colgroup", "data", "datalist", "dd", "del",
    "details", "dfn", "dialog", "div", "dl", "dt", "em", "fieldset", "figcaption", "figure",
    "footer", "form", "h1", "h2", "h3", "h4", "h5", "h6", "head", "header", "hgroup", "html", "i",
    "iframe", "ins", "kbd", "label", "legend", "li", "main", "map", "mark", "math", "menu",
    "meter", "nav", "noscript", "object", "ol", "optgroup", "option", "output", "p", "picture",
    "pre", "progress", "q", "rb", "rp", "rt", "rtc", "ruby", "s", "samp", "script", "section",
    "select", "slot", "small", "span", "strong", "style", "sub", "summary", "sup", "svg", "table",
    "tbody", "td", "template", "textarea", "tfoot", "th", "thead", "time", "title", "tr", "u",
    "ul", "var", "video"]

def isVoid (name : TagName) : Bool := voidNames.contains name

def isKnown (name : TagName) : Bool := isVoid name || containerNames.contains name

/-- The names are of one type of element. -/
def sameType (a b : TagName) : Bool := a == b || (!isKnown a && !isKnown b)

/-- Elements that end a paragraph. -/
def paragraphEnders : List TagName :=
  ["address", "article", "aside", "blockquote", "details", "div", "dl", "fieldset", "figcaption",
    "figure", "footer", "form", "h1", "h2", "h3", "h4", "h5", "h6", "header", "hr", "main", "nav",
    "ol", "p", "pre", "section"]

/-- An element may stand directly inside another one. -/
def canContain (parent child : TagName) : Bool :=
  match parent with
  | "li" => child != "li"
  | "dt" | "dd" => child != "dt" && child != "dd"
  | "p" => !paragraphEnders.contains child
  | "colgroup" => child == "col"
  | "rb" | "rt" | "rp" => child != "rb" && child != "rt" && child != "rp"
  | "optgroup" => child != "optgroup"
  | "tr" => child != "tr"
  | "td" | "th" => child != "td" && child != "th" && child != "tr"
  | _ => true

/-- The text of these elements is not read as HTML. -/
def isRaw (name : TagName) : Bool := name == "script" || name == "style"

/-! ### The names of open elements

The names of the elements that are open are kept in a kilobyte. One that finds no room there is
forgotten, and its element then goes by no name at all.
-/

/-- The greatest number of bytes of a name that are kept. -/
def keptNameLength : Nat := 255

/-- The bytes that it takes to keep a name; a name of HTML goes by its number. -/
def nameCost (name : TagName) : Nat :=
  if isKnown name then 1 else 2 + min keptNameLength name.length

/-- The bytes that are in use for the names of open elements. -/
def keptSize (opened : List (Option TagName)) : Nat :=
  opened.foldl (fun size name => size + (name.map nameCost).getD 1) 4

/-- What is kept of the name of an element inside those that are open. -/
def keepName (opened : List (Option TagName)) (name : TagName) : Option TagName :=
  if keptSize opened + nameCost name < 1024 then
    some (String.ofList (name.toList.take keptNameLength))
  else none

/-! ### Tags of HTML -/

open Text (isTagBlank)

/-! ### White space and comments -/

/-- White space of HTML: space and the control characters from tab to carriage return. -/
def isHtmlBlank (c : Char) : Bool := isTagBlank c || c == '\x0b'

/-- The offset behind the comment whose inside a text goes on with, after a number of dashes in a
row. A comment ends at the first `>` behind two dashes that are not those of its beginning. -/
def commentRest? (dashes pos : Nat) : List Char → Option Nat
  | [] => none
  | c :: cs =>
    if c == '-' then commentRest? (dashes + 1) (pos + 1) cs
    else if c == '>' && dashes ≥ 2 then some (pos + 1)
    else if c == '\x00' then none
    else commentRest? 0 (pos + c.utf8Size) cs

/-- The offset behind the comment that a text begins with. -/
def commentEnd? (pos : Nat) (cs : List Char) : Option Nat :=
  (Text.stripPrefix? "<!--" cs).bind (commentRest? 0 (pos + 4))

/-- What follows white space and comments from `resume` on, with its offset. -/
def skipBlanks (resume pos : Nat) : List Char → Nat × List Char
  | [] => (pos, [])
  | c :: cs =>
    let next := pos + c.utf8Size
    if pos < resume || isHtmlBlank c then skipBlanks resume next cs
    else
      match commentEnd? pos (c :: cs) with
      | some stop => skipBlanks stop next cs
      | none => (pos, c :: cs)

/-! ### Attributes -/

def isHtmlAttributeNameChar (c : Char) : Bool :=
  !(c == '<' || c == '>' || c == '"' || c == '\'' || c == '/' || c == '=' || isHtmlBlank c)

def isPlainValueChar (c : Char) : Bool := c == '/' || isHtmlAttributeNameChar c

/-- The value of an attribute that a text begins with. -/
def valueNode? (pos : Nat) (cs : List Char) : Option Node :=
  match cs with
  | [] => none
  | c :: rest =>
    if Elixir.isQuote c then
      let (inside, rest) := skipBlanks 0 (pos + 1) rest
      (Text.offsetOf? [c] inside rest).map fun close => .mk .quotedValue pos (close + 1) []
    else
      let value := cs.takeWhile isPlainValueChar
      if value.isEmpty then none
      else some (.mk .plainValue pos (pos + Text.byteLength value) [])

/-- The attribute whose name a text begins with, the offset to read on at, and whether its value is
there if an equals sign is. -/
def attributeNode (pos : Nat) (cs : List Char) : Node × Nat × Bool :=
  let nameEnd := pos + Text.byteLength (cs.takeWhile isHtmlAttributeNameChar)
  let name := Node.mk .attributeName pos nameEnd []
  match skipBlanks 0 nameEnd (cs.dropWhile isHtmlAttributeNameChar) with
  | (sign, '=' :: rest) =>
    let (start, rest) := skipBlanks 0 (sign + 1) rest
    match valueNode? start rest with
    | some value => (.mk .attributePair pos value.stop [name, value], value.stop, true)
    | none => (.mk .attributePair pos nameEnd [name], start, false)
  | _ => (.mk .attributePair pos nameEnd [name], nameEnd, true)

/-- What a tag holds behind its name. -/
structure TagInside where
  attributePairs : List Node := []
  /-- The offset behind the tag. -/
  stop : Nat
  selfClosing : Bool := false
  sound : Bool := true

namespace TagInside

def addPair (inside : TagInside) (pair : Node) : TagInside :=
  { inside with attributePairs := pair :: inside.attributePairs }

def spoil (inside : TagInside) : TagInside := { inside with sound := false }

end TagInside

/-- Reads a tag from the offset `resume` on up to its end. -/
def tagInside? (resume pos : Nat) : List Char → Option TagInside
  | [] => none
  | c :: cs =>
    let next := pos + c.utf8Size
    if pos < resume || isHtmlBlank c then tagInside? resume next cs
    else if c == '>' then some { stop := next }
    else if c == '/' && cs.head? == some '>' then some { stop := next + 1, selfClosing := true }
    else if isHtmlAttributeNameChar c then
      let (pair, behind, sound) := attributeNode pos (c :: cs)
      (tagInside? behind next cs).map fun inside =>
        (if sound then inside else inside.spoil).addPair pair
    else
      match commentEnd? pos (c :: cs) with
      | some stop => tagInside? stop next cs
      | none => (tagInside? resume next cs).map TagInside.spoil

/-! ### Tags -/

structure ReadTag where
  name : TagName
  node : Node
  selfClosing : Bool := false
  sound : Bool

def isTagNameChar (c : Char) : Bool := Text.isAsciiAlphanumeric c || c == '-' || c == ':'

/-- The name that a text begins with, as written. -/
def writtenName (cs : List Char) : List Char := cs.takeWhile isTagNameChar

def tagNameOf (written : List Char) : TagName := String.ofList (Text.asciiLowercase written)

/-- The opening tag at `pos`, whose text behind the `<` is given. An element whose text is not read
as HTML does not close itself. -/
def openingTag? (pos : Nat) (cs : List Char) : Option ReadTag :=
  let (start, cs) := skipBlanks 0 (pos + 1) cs
  let written := writtenName cs
  let nameEnd := start + written.length
  if written.isEmpty then none
  else
    (tagInside? nameEnd nameEnd (cs.drop written.length)).map fun inside =>
      let name := tagNameOf written
      let kind := if inside.selfClosing then .selfClosingTag else .startTag
      { name
        node := .mk kind pos inside.stop (.mk .tagName start nameEnd [] :: inside.attributePairs)
        selfClosing := inside.selfClosing
        sound := inside.sound && !(inside.selfClosing && isRaw name) }

/-- The closing tag at `pos`, whose text behind the `</` is given. -/
def closingTag? (pos : Nat) (cs : List Char) : Option ReadTag :=
  let (start, cs) := skipBlanks 0 (pos + 2) cs
  let written := writtenName cs
  let nameEnd := start + written.length
  let behind := cs.drop written.length
  if written.isEmpty then none
  else
    (Text.offsetOf? ['>'] nameEnd behind).map fun close =>
      { name := tagNameOf written
        node := .mk .endTag pos (close + 1) [.mk .tagName start nameEnd []]
        sound := (skipBlanks 0 nameEnd behind).2.head? == some '>' }

end PhoenixLens.Markup
