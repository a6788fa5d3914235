import PhoenixLens.Markup.Tag
import PhoenixLens.Markup.Usages
import PhoenixLens.Path.Basic

/-!
# Templates in place

A template becomes HTML of the same length in bytes: the dot or colon before the name of a
component or slot becomes a letter, dots inside a name become dashes, and expressions and tags of
embedded code become white space. An expression that is the value of an attribute keeps a quote at
each end. Line feeds stay, so offsets and lines in the HTML are those of the template.

In Elixir source a template stands in a heredoc of the `~H` sigil. Everything else becomes white
space of the same length, so offsets in the template are offsets in the file.
-/

namespace PhoenixLens.Markup

/-- The white space that takes the place of a text: one space for each byte, line feeds kept. -/
def blank (cs : List Char) : List Char :=
  cs.flatMap fun c => if c == '\n' then ['\n'] else List.replicate c.utf8Size ' '

/-- The white space that takes the place of a value, with a quote at each end. -/
def blankValue (cs : List Char) : List Char :=
  match blank cs with
  | _ :: b :: bs => '"' :: (b :: bs).dropLast ++ ['"']
  | short => short

inductive Place where
  | content
  /-- Behind a `<`. -/
  | opened
  /-- Behind a `</`. -/
  | slashed
  /-- Inside the name of a tag. -/
  | name
  /-- Inside a tag, behind its name. -/
  | tag
  /-- Inside a quoted value. -/
  | quoted (quote : Char)
deriving DecidableEq, Repr

/-- What a step puts out, the offset to resume at, and the next place. -/
structure Masked where
  written : List Char
  resume : Nat := 0
  place : Place
deriving DecidableEq, Repr

/-- The text up to an offset, or all of it where there is none. -/
def upTo (stop : Option Nat) (pos : Nat) (cs : List Char) : List Char × Nat :=
  let ending := pos + Text.byteLength cs
  let stop := stop.getD ending
  (Text.takeBytes (stop - pos) cs, stop)

/-- A step in content, at a text that is not empty. -/
def maskContent (pos : Nat) (c : Char) (cs : List Char) : Masked :=
  if Text.startsWith "<%" (c :: cs) then
    let (code, stop) := upTo ((Text.offsetOf? ['%', '>'] pos (c :: cs)).map (· + 2)) pos (c :: cs)
    ⟨blank code, stop, .content⟩
  else if Text.startsWith "<!--" (c :: cs) then
    let ending := Text.offsetOf? ['-', '-', '>'] pos (c :: cs)
    let (comment, stop) := upTo (ending.map (· + 3)) pos (c :: cs)
    ⟨comment, stop, .content⟩
  else if c == '{' then
    let (code, stop) := upTo (expressionEnd? pos (c :: cs)) pos (c :: cs)
    ⟨blank code, stop, .content⟩
  else ⟨[c], 0, if c == '<' then .opened else .content⟩

/-- A step behind the name of a tag; `isValue` behind an equals sign. -/
def maskTag (isValue : Bool) (pos : Nat) (c : Char) (cs : List Char) : Masked :=
  if Elixir.isQuote c then ⟨[c], 0, .quoted c⟩
  else if c == '>' then ⟨[c], 0, .content⟩
  else if c == '{' then
    let (code, stop) := upTo (expressionEnd? pos (c :: cs)) pos (c :: cs)
    ⟨if isValue then blankValue code else blank code, stop, .tag⟩
  else ⟨[c], 0, .tag⟩

/-- A step where the name of a tag may begin. -/
def maskName (pos : Nat) (c : Char) (cs : List Char) : Masked :=
  if c == '.' || c == ':' then ⟨['x'], 0, .tag⟩
  else if Text.isAsciiLetter c then ⟨[c], 0, .name⟩
  else maskContent pos c cs

def maskStep (place : Place) (isValue : Bool) (pos : Nat) (c : Char) (cs : List Char) : Masked :=
  match place with
  | .content => maskContent pos c cs
  | .opened => if c == '/' then ⟨[c], 0, .slashed⟩ else maskName pos c cs
  | .slashed => maskName pos c cs
  | .name =>
    if c == '.' then ⟨['-'], 0, .name⟩
    else if Text.isAsciiWord c || c == '-' then ⟨[c], 0, .name⟩
    else maskTag isValue pos c cs
  | .tag => maskTag isValue pos c cs
  | .quoted quote => ⟨[c], 0, if c == quote then .tag else place⟩

/-- The last character written that is not white space is an equals sign; `before` says so of what
was written earlier. -/
def endsInEquals (before : Bool) (written : List Char) : Bool :=
  match written.reverse.dropWhile Text.isTagBlank with
  | [] => before
  | c :: _ => c == '='

def mask (cs : List Char) : List Char :=
  go .content false 0 0 cs
where
  /-- Continues at `resume`; `isValue` if an equals sign was the last to be written. -/
  go (place : Place) (isValue : Bool) (resume pos : Nat) : List Char → List Char
    | [] => []
    | c :: cs =>
      let next := pos + c.utf8Size
      if pos < resume then go place isValue resume next cs
      else
        let masked := maskStep place isValue pos c cs
        masked.written ++
          go masked.place (endsInEquals isValue masked.written) masked.resume next cs

example : mask "<A.b c=\x7b\"\x7d\"\x7d>\x7bé\x7d</A.b>".toList =
    "<A-b c=\"   \">    </A-b>".toList := by
  decide

/-! ### Templates inside source -/

/-- The delimiter of a template that a text begins. -/
def sigilDelimiter? (cs : List Char) : Option (List Char) :=
  (Text.stripPrefix? "~H" cs).bind fun rest =>
    [['"', '"', '"'], ['\'', '\'', '\'']].find? fun delimiter => delimiter.isPrefixOf rest

/-- The spans of the templates in a source text that begins at the offset `pos`. A template that
is not closed reaches to the end. -/
def sigilSpans (pos : Nat) : List Char → List Span
  | [] => []
  | c :: cs =>
    let found := (sigilDelimiter? (c :: cs)).map fun delimiter =>
      let body := (c :: cs).drop 5
      let stop := (Text.offsetOf? delimiter (pos + 5) body).getD (pos + 5 + Text.byteLength body)
      (pos + 5, stop)
    found.toList ++ sigilSpans (pos + c.utf8Size) cs

/-- The text with white space in place of what stands outside of the spans. -/
def keepSpans (spans : List Span) (pos : Nat) : List Char → List Char
  | [] => []
  | c :: cs =>
    (if (spanAt? spans pos).isSome then [c] else blank [c]) ++ keepSpans spans (pos + c.utf8Size) cs

/-- The template that a file holds, in place in its text. -/
def templateText (path : Path) (text : List Char) : List Char :=
  if path.isTemplate then text else keepSpans (sigilSpans 0 text) 0 text

/-- The file holds a template. -/
def hasTemplate (path : Path) (text : List Char) : Bool :=
  path.isTemplate || !(sigilSpans 0 text).isEmpty

end PhoenixLens.Markup
