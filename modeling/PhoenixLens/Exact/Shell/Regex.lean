import PhoenixLens.Exact.Shell.Pattern

/-!
# Regular expressions of text tools

Basic and extended regular expressions. Of the stretches of a text that an expression stands for,
the first one counts that is found when repetitions take as much as they can.
-/

namespace PhoenixLens.Shell

inductive Regex where
  | one (negated : Bool) (ranges : List (Char × Char))
  | lineStart
  | lineEnd
  | group (number : Nat) (inner : Regex)
  | both (first second : Regex)
  | oneOf (first second : Regex)
  /-- At least `least` and at most `most` times. -/
  | repeated (least : Nat) (most : Option Nat) (inner : Regex)
  | nothing
deriving Repr

namespace Regex

/-! ### Reading -/

/-- Reading an expression; the number counts the groups by now. -/
abbrev Reading := StateT (List Char × Nat) Option

/-- How an expression writes its operators. -/
structure Style where
  extended : Bool
deriving Repr

/-- The operator that stands first: extended expressions write it plainly, basic ones behind a
backslash. -/
def Style.passes (style : Style) (operator : Char) : List Char → Option (List Char)
  | c :: cs =>
    if style.extended then if c == operator then some cs else none
    else if c == '\\' && cs.head? == some operator then some cs.tail
    else none
  | [] => none

def skip (style : Style) (operator : Char) : Reading Bool := do
  let (cs, n) ← get
  match style.passes operator cs with
  | some rest =>
    set (rest, n)
    return true
  | none => return false

/-- The class that a letter behind a backslash stands for. -/
def escapedClass? : Char → Option (Bool × List (Char × Char))
  | 'w' => some (false, ('_', '_') :: classRanges "alnum")
  | 'W' => some (true, ('_', '_') :: classRanges "alnum")
  | 's' => some (false, classRanges "space")
  | 'S' => some (true, classRanges "space")
  | 'n' => some (false, [('\n', '\n')])
  | 't' => some (false, [('\t', '\t')])
  | _ => none

def bounds? (cs : List Char) : Option (Nat × Option Nat) :=
  let number? := fun (cs : List Char) => (String.ofList cs).toNat?
  match Text.splitAt ',' cs with
  | [exact] => (number? exact).map fun n => (n, some n)
  | [least, []] => (number? least).map fun n => (n, none)
  | [least, most] => do return ((number? least).getD 0, some (← number? most))
  | _ => none

mutual

def alternatives (style : Style) (fuel : Nat) : Reading Regex :=
  match fuel with
  | 0 => failure
  | fuel + 1 => do
    let first ← sequence style fuel true
    if ← skip style '|' then return .oneOf first (← alternatives style fuel)
    else return first

/-- Expressions one after another; a star that stands first is meant as such. -/
def sequence (style : Style) (fuel : Nat) (isFirst : Bool) : Reading Regex :=
  match fuel with
  | 0 => failure
  | fuel + 1 => do
    let (cs, _) ← get
    if cs.isEmpty || (style.passes '|' cs).isSome || (style.passes ')' cs).isSome then
      return .nothing
    let item ← atom style fuel isFirst
    let item ← repetition style fuel item
    return .both item (← sequence style fuel false)

def repetition (style : Style) (fuel : Nat) (inner : Regex) : Reading Regex :=
  match fuel with
  | 0 => failure
  | fuel + 1 => do
    let (cs, n) ← get
    if cs.head? == some '*' then
      set (cs.tail, n)
      repetition style fuel (.repeated 0 none inner)
    else if ← skip style '+' then repetition style fuel (.repeated 1 none inner)
    else if ← skip style '?' then repetition style fuel (.repeated 0 (some 1) inner)
    else if ← skip style '\x7b' then
      let (cs, n) ← get
      let text := cs.takeWhile fun c => Text.isAsciiDigit c || c == ','
      let (least, most) ← (bounds? text : Option _)
      set (cs.drop text.length, n)
      if !(← skip style '\x7d') then failure
      repetition style fuel (.repeated least most inner)
    else return inner

def atom (style : Style) (fuel : Nat) (isFirst : Bool) : Reading Regex :=
  match fuel with
  | 0 => failure
  | fuel + 1 => do
    if ← skip style '(' then
      let (cs, n) ← get
      set (cs, n + 1)
      let inner ← alternatives style fuel
      if !(← skip style ')') then failure
      return .group (n + 1) inner
    let (cs, n) ← get
    match cs with
    | [] => failure
    | '.' :: cs =>
      set (cs, n)
      return .one true [('\n', '\n')]
    | '[' :: cs =>
      let (negated, ranges, rest) ← (bracketSet? ['^'] cs : Option _)
      set (rest, n)
      return .one negated ranges
    | '^' :: rest =>
      set (rest, n)
      return if isFirst || style.extended then .lineStart else .one false [('^', '^')]
    | '$' :: rest =>
      set (rest, n)
      let isLast := rest.isEmpty || (style.passes ')' rest).isSome || (style.passes '|' rest).isSome
      return if isLast || style.extended then .lineEnd else .one false [('$', '$')]
    | '\\' :: c :: rest =>
      set (rest, n)
      return match escapedClass? c with
        | some (negated, ranges) => .one negated ranges
        | none => .one false [(c, c)]
    | c :: rest =>
      set (rest, n)
      return .one false [(c, c)]

end

def parse? (extended : Bool) (cs : List Char) : Option Regex := do
  let (regex, rest, _) ← (alternatives ⟨extended⟩ (8 * cs.length + 8)).run (cs, 0)
  if rest.isEmpty then some regex else none

/-! ### Finding -/

/-- The places of groups by their numbers: where they begin and end. -/
abbrev Groups := List (Nat × Nat × Nat)

/-- Where a text is looked at. -/
structure Subject where
  text : Array Char
  ignoresCase : Bool := false

def Subject.fits (subject : Subject) (negated : Bool) (ranges : List (Char × Char)) (c : Char) :
    Bool :=
  if subject.ignoresCase then
    let lower := if Text.isAsciiUpper c then Char.ofNat (c.toNat + 32) else c
    let upper := if Text.isAsciiLower c then Char.ofNat (c.toNat - 32) else c
    (inSet false ranges lower || inSet false ranges upper) != negated
  else inSet negated ranges c

/-- Follows an expression from a place on; `next` says what to do behind it. -/
def follow (subject : Subject) (fuel : Nat) (regex : Regex) (place : Nat) (groups : Groups)
    (next : Nat → Groups → Option (Nat × Groups)) : Option (Nat × Groups) :=
  match fuel, regex with
  | 0, _ => none
  | _, .nothing => next place groups
  | _, .one negated ranges =>
    match subject.text[place]? with
    | some c => if subject.fits negated ranges c then next (place + 1) groups else none
    | none => none
  | _, .lineStart => if place == 0 then next place groups else none
  | _, .lineEnd => if place == subject.text.size then next place groups else none
  | fuel + 1, .group number inner =>
    follow subject fuel inner place groups fun stop groups =>
      next stop ((number, place, stop) :: groups.filter (·.1 != number))
  | fuel + 1, .both first second =>
    follow subject fuel first place groups fun place groups =>
      follow subject fuel second place groups next
  | fuel + 1, .oneOf first second =>
    (follow subject fuel first place groups next).or (follow subject fuel second place groups next)
  | fuel + 1, .repeated least most inner =>
    let again :=
      if most == some 0 then none
      else
        follow subject fuel inner place groups fun stop groups =>
          if stop == place && least == 0 then none
          else follow subject fuel (.repeated (least - 1) (most.map (· - 1)) inner) stop groups next
    again.or (if least == 0 then next place groups else none)

/-- The first stretch from a place on: its beginning, its end and its groups. -/
def find? (regex : Regex) (subject : Subject) (start : Nat) : Option (Nat × Nat × Groups) :=
  (List.range (subject.text.size + 1 - start)).findSome? fun i =>
    let fuel := 4 * (subject.text.size + 16) + 400
    (follow subject fuel regex (start + i) [] fun stop groups => some (stop, groups)).map
      fun (stop, groups) => (start + i, stop, groups)

end Regex

end PhoenixLens.Shell
