import PhoenixLens.Proofs.Markup.UseOffsets
import PhoenixLens.Text.Utf8

/-!
# The scanner over bytes

A second account of the reader of templates, in terms of the UTF-8 form of a text. It moves byte by
byte, jumps to offsets that it has found, and cuts the text at them; `none` says that it reads a
byte behind the end of the text, or cuts where no character ends. Bytes are compared with ASCII
characters only.
-/

namespace PhoenixLens.Markup.ByteScanner

open Elixir (Quoting isQuote isOpening isClosing)
open Text (span?)

def charOf (byte : UInt8) : Char := Char.ofNat byte.toNat

def from? (text : List Char) (start : Nat) : Option (List Char) :=
  span? text start (Text.byteLength text)

def bytesFrom (text : List Char) (start : Nat) : List UInt8 := (Text.toBytes text).drop start

/-! ### Ends of expressions and tags -/

/-- The offset behind the bracket that closes the first one. -/
def expressionEnd? (pos : Nat) (bytes : List UInt8) : Option Nat :=
  go .code 0 pos bytes
where
  /-- Continues with the given number of open brackets. -/
  go : Quoting → Nat → Nat → List UInt8 → Option Nat
    | _, _, _, [] => none
    | .code, depth, pos, byte :: bytes =>
      let c := charOf byte
      if isOpening c then go .code (depth + 1) (pos + 1) bytes
      else if isClosing c then
        if depth ≤ 1 then some (pos + 1) else go .code (depth - 1) (pos + 1) bytes
      else go (Quoting.code.step c) depth (pos + 1) bytes
    | state, depth, pos, byte :: bytes => go (state.step (charOf byte)) depth (pos + 1) bytes

/-- The offset behind the `>` of a tag that goes on at `pos`, and whether a slash stands before it
with nothing but white space in between. -/
def tagEnd (text : List Char) (pos : Nat) : Option (Option (Nat × Bool)) :=
  go pos false pos (bytesFrom text pos)
where
  /-- Continues at `resume`; `slashed` says that the last byte that is not blank was a slash. -/
  go (resume : Nat) (slashed : Bool) (pos : Nat) : List UInt8 → Option (Option (Nat × Bool))
    | [] => some none
    | byte :: bytes =>
      let c := charOf byte
      if pos < resume then go resume slashed (pos + 1) bytes
      else if isQuote c then
        match from? text (pos + 1) with
        | none => none
        | some rest =>
          match Text.offsetOf? [c] (pos + 1) rest with
          | some close => go (close + 1) false (pos + 1) bytes
          | none => some none
      else if c == '{' then
        match expressionEnd? pos (byte :: bytes) with
        | some stop => go stop false (pos + 1) bytes
        | none => some none
      else if c == '>' then some (some (pos + 1, slashed))
      else if c == '<' then some none
      else if Text.isTagBlank c then go resume slashed (pos + 1) bytes
      else go resume (c == '/') (pos + 1) bytes

/-! ### Attributes -/

/-- Passes over bytes of a kind up to the offset `limit`. -/
def skip (p : Char → Bool) (limit pos : Nat) : List UInt8 → Option (Nat × List UInt8)
  | [] => if limit ≤ pos then some (pos, []) else none
  | byte :: bytes =>
    if limit ≤ pos then some (pos, byte :: bytes)
    else if p (charOf byte) then skip p limit (pos + 1) bytes
    else some (pos, byte :: bytes)

/-- The value that begins at `pos`, in a tag whose attributes end at `limit`. -/
def attributeValue (text : List Char) (limit pos : Nat) : List UInt8 → Option AttributeValue
  | [] => none
  | byte :: bytes => do
    let c := charOf byte
    if isQuote c then
      let inner ← span? text (pos + 1) limit
      let close := (Text.offsetOf? [c] (pos + 1) inner).getD limit
      return ⟨← span? text (pos + 1) close, pos + 1, close, min (close + 1) limit⟩
    else if c == '{' then
      let stop := min ((expressionEnd? pos (byte :: bytes)).getD limit) limit
      return ⟨← span? text pos stop, pos, stop, stop⟩
    else
      let (stop, _) ← skip (fun c => !Text.isTagBlank c && c != '>') limit pos (byte :: bytes)
      return ⟨← span? text pos stop, pos, stop, stop⟩

/-- The attribute whose name begins at `pos`, and the offset to resume at. -/
def attributeAt (text : List Char) (limit pos : Nat) (bytes : List UInt8) :
    Option (UsageAttribute × Nat) := do
  let (nameEnd, rest) ← skip isAttributeNameChar limit pos bytes
  let name ← span? text pos nameEnd
  let bare : UsageAttribute := { name := String.ofList name, nameStart := pos, nameEnd }
  let (equals, rest) ← skip Text.isTagBlank limit nameEnd rest
  if limit ≤ equals then return (bare, nameEnd)
  match rest with
  | [] => none
  | byte :: rest =>
    if charOf byte == '=' then
      let (start, rest) ← skip Text.isTagBlank limit (equals + 1) rest
      if limit ≤ start then return (bare, start)
      let v ← attributeValue text limit start rest
      return ({ bare with
        value := String.ofList v.text
        valueStart := v.start
        valueEnd := v.stop }, v.next)
    else return (bare, nameEnd)

/-- The attributes of a tag between two offsets. -/
def attributes (text : List Char) (limit pos : Nat) : Option (List UsageAttribute) :=
  go pos pos (bytesFrom text pos)
where
  /-- Continues at `resume`. -/
  go (resume pos : Nat) : List UInt8 → Option (List UsageAttribute)
    | [] => if limit ≤ pos then some [] else none
    | byte :: bytes =>
      let c := charOf byte
      if limit ≤ pos then some []
      else if pos < resume then go resume (pos + 1) bytes
      else if c == '{' then
        go ((expressionEnd? pos (byte :: bytes)).getD limit) (pos + 1) bytes
      else if isAttributeNameChar c then
        match attributeAt text limit pos (byte :: bytes) with
        | none => none
        | some (given, next) => (go next (pos + 1) bytes).map (given :: ·)
      else go resume (pos + 1) bytes

/-! ### Open tags -/

/-- The offset of the last occurrence of a character in a text that begins at `pos`. -/
def lastOffset? (c : Char) (pos : Nat) : List Char → Option Nat
  | [] => none
  | d :: cs => (lastOffset? c (pos + d.utf8Size) cs).or (if d == c then some pos else none)

/-- The open tag whose name stands between `start + 1` and `nameEnd`. -/
def readOpenTag (text : List Char) (start nameEnd : Nat) : Option (Option OpenTag) := do
  match ← tagEnd text nameEnd with
  | none => return none
  | some (stop, selfClosing) =>
    let before ← span? text 0 (stop - 1)
    let limit := if selfClosing then (lastOffset? '/' 0 before).getD (stop - 1) else stop - 1
    return some {
      name := ← span? text (start + 1) nameEnd
      start, nameEnd, stop, selfClosing
      attributes := ← attributes text limit nameEnd }

def openTags (text : List Char) : Option (List OpenTag) :=
  go 0 text
where
  /-- Continues where `cs` is left. -/
  go (pos : Nat) : List Char → Option (List OpenTag)
    | [] => some []
    | c :: cs => do
      let name := if c == '<' then tagName? cs else none
      let tag ← match name with
        | some name => readOpenTag text pos (pos + 1 + Text.byteLength name)
        | none => some none
      return tag.toList ++ (← go (pos + c.utf8Size) cs)

/-! ### Closing tags -/

def beginsWithName (tag cs : List Char) : Option Bool :=
  if tag.isPrefixOf cs then (from? cs (Text.byteLength tag)).map endsName else some false

/-- The closing tag that belongs to an open tag of the given name that ends at `start`. -/
def matchingClose (text tag : List Char) (skipped : List Span) (start : Nat) :
    Option (Option Span) := do
  go 0 start start (← from? text start)
where
  /-- Continues at `resume` with the given number of further open tags of that name. -/
  go (depth resume pos : Nat) : List Char → Option (Option Span)
    | [] => some none
    | c :: cs => do
      let next := pos + c.utf8Size
      if pos < resume || c != '<' then go depth resume next cs
      else
        match spanAt? skipped pos with
        | some (_, stop) =>
          let _ ← from? text stop
          go depth stop next cs
        | none =>
          let rest ← from? text (pos + 1)
          match Text.stripPrefix? "/" rest with
          | some after =>
            if ← beginsWithName tag after then
              match Text.offsetOf? ['>'] pos (← from? text pos), depth with
              | none, _ => return none
              | some close, 0 => return some (pos, close + 1)
              | some close, depth + 1 =>
                let _ ← from? text (close + 1)
                go depth (close + 1) next cs
            else go depth resume next cs
          | none =>
            if ← beginsWithName tag rest then
              match ← tagEnd text (pos + 1 + Text.byteLength tag) with
              | some (stop, selfClosing) =>
                let _ ← from? text stop
                go (if selfClosing then depth else depth + 1) stop next cs
              | none => go depth resume next cs
            else go depth resume next cs

/-! ### Slots and uses -/

def window (text : List Char) (start stop : Nat) : Option (List Char) :=
  if start < stop then span? text start stop else some []

/-- The slots between two offsets. -/
def slots (text : List Char) (nested : List Span) (start stop : Nat) : Option (List UsageSlot) := do
  let _ ← window text start stop
  go start start (← from? text start)
where
  /-- Continues at `resume`. -/
  go (resume pos : Nat) : List Char → Option (List UsageSlot)
    | [] => some []
    | c :: cs => do
      let next := pos + c.utf8Size
      if stop ≤ pos then return []
      else if pos < resume || c != '<' then go resume next cs
      else
        match slotsOf.slotName? cs with
        | none => go resume next cs
        | some name =>
          match spanAt? nested pos with
          | some (_, skipped) =>
            let _ ← window text skipped stop
            go skipped next cs
          | none =>
            let nameEnd := pos + 1 + Text.byteLength (':' :: name)
            match ← readOpenTag text pos nameEnd with
            | none =>
              let _ ← window text nameEnd stop
              go resume next cs
            | some tag =>
              let close ← if tag.selfClosing then some none else
                matchingClose text (':' :: name) nested tag.stop
              let slotEnd := (close.map (·.2)).getD tag.stop
              let _ ← window text slotEnd stop
              let later ← go slotEnd next cs
              return { name := String.ofList name
                       start := pos
                       openTagEnd := tag.stop
                       stop := slotEnd
                       attributes := tag.attributes
                       selfClosing := tag.selfClosing : UsageSlot } :: later

/-- Something other than white space stands between `start` and `stop` outside of the spans. -/
def hasBody (text : List Char) (start stop : Nat) (spans : List Span) : Option Bool :=
  match spans with
  | [] => (window text start stop).map fun piece => !Text.allBlank piece
  | (first, last) :: spans => do
    let piece ← window text start first
    return !Text.allBlank piece || (← hasBody text (max start last) stop spans)

def providedSlotNames (text : List Char) (start stop : Nat) (slots : List UsageSlot) :
    Option (List String) := do
  let names := slots.foldl
    (fun names slot => if names.contains slot.name then names else names ++ [slot.name]) []
  let ordered := slots.mergeSort fun a b => a.start ≤ b.start
  let body ← hasBody text start stop (ordered.map fun slot => (slot.start, slot.stop))
  return if body && !names.contains innerBlock then names ++ [innerBlock] else names

/-- The use that the tag at `pos` begins, without its slots; `cs` follows the `<`. -/
def usage (text : List Char) (pos : Nat) (cs : List Char) : Option (Option ComponentUsage) :=
  match callName? cs with
  | none => some none
  | some callName => do
    match ← readOpenTag text pos (pos + 1 + Text.byteLength callName.written) with
    | none => return none
    | some tag =>
      let close ← if tag.selfClosing then some none else matchingClose text tag.name [] tag.stop
      return some (useOf callName tag close)

/-- The uses of components, without their slots. -/
def bareUsages (text : List Char) (pos : Nat) : List Char → Option (List ComponentUsage)
  | [] => some []
  | c :: cs => do
    let found ← if c == '<' then usage text pos cs else some none
    return found.toList ++ (← bareUsages text (pos + c.utf8Size) cs)

/-- Adds the slots of a use, given the spans of all uses. -/
def withSlots (text : List Char) (spans : List Span) (usage : ComponentUsage) :
    Option ComponentUsage :=
  match usage.contentStart, usage.contentEnd with
  | some start, some stop => do
    let nested := spans.filter fun (first, last) => start ≤ first && last ≤ stop
    let found ← slots text nested start stop
    return { usage with
      slots := found
      providedSlotNames := ← providedSlotNames text start stop found }
  | _, _ => some usage

/-- The uses of components in a text, in order of their open tags. -/
def usages (text : List Char) : Option (List ComponentUsage) := do
  let found ← bareUsages text 0 text
  let spans := found.map fun usage => (usage.openTagStart, usage.blockEnd)
  found.mapM (withSlots text spans)

end PhoenixLens.Markup.ByteScanner
