import PhoenixLens.Exact.Shell.Outcome
import PhoenixLens.Exact.Shell.Regex

/-!
# Searching and editing

Programs that find the lines with a pattern, or carry out instructions on each line.
-/

namespace PhoenixLens.Shell

/-- Whether a line holds an expression. -/
def findLines (options : List (Char × List Char)) (pattern : List Char)
    (inputs : List (Option (List Char) × List Char)) : Outcome :=
  let has := hasOption options
  let finds : Option (List Char → Bool) :=
    if has 'F' then some fun line => (Text.cutAt? pattern line).isSome
    else do
      let regex ← Regex.parse? (has 'E') pattern
      return fun line => (regex.find? ⟨line.toArray, has 'i'⟩ 0).any fun (start, stop, _) =>
        !has 'x' || (start == 0 && stop == line.length)
  match finds with
  | none => .failure "grep: Invalid regular expression" 2
  | some finds =>
    let named := inputs.length > 1
    let rows := inputs.flatMap fun (name, text) =>
      let found := (linesOf text).zipIdx.filter fun (line, _) => finds line != has 'v'
      let label := if named && !has 'h' then name.getD "(standard input)".toList ++ [':'] else []
      if has 'c' then [label ++ (toString found.length).toList]
      else if has 'l' then if found.isEmpty then [] else [name.getD "(standard input)".toList]
      else found.flatMap fun (line, i) =>
        let number := if has 'n' then (toString (i + 1)).toList ++ [':'] else []
        (if has 'o' then pieces pattern line else [line]).map (label ++ number ++ ·)
    let succeeds := inputs.any fun (_, text) => (linesOf text).any fun line => finds line != has 'v'
    { output := if has 'q' then [] else unlines rows, code := if succeeds then 0 else 1 }
where
  /-- The stretches of a line that an expression stands for. -/
  pieces (pattern line : List Char) : List (List Char) :=
    if hasOption options 'F' then [pattern]
    else
      match Regex.parse? (hasOption options 'E') pattern with
      | some regex => piecesFrom regex ⟨line.toArray, hasOption options 'i'⟩ (line.length + 1) 0
      | none => []
  piecesFrom (regex : Regex) (subject : Regex.Subject) : Nat → Nat → List (List Char)
    | 0, _ => []
    | fuel + 1, start =>
      match regex.find? subject start with
      | none => []
      | some (first, stop, _) =>
        let piece := (subject.text.extract first stop).toList
        (if piece.isEmpty then [] else [piece]) ++
          piecesFrom regex subject fuel (max stop (start + 1))

/-- What is put in place of a stretch: `&` is the stretch itself, a digit behind a backslash one of
its groups. -/
def replacementOf (subject : Regex.Subject) (start stop : Nat) (groups : Regex.Groups) :
    List Char → List Char
  | '\\' :: c :: cs =>
    (if Text.isAsciiDigit c then
      match groups.lookup (c.toNat - 48) with
      | some (first, last) => (subject.text.extract first last).toList
      | none => if c == '0' then (subject.text.extract start stop).toList else []
    else if c == 'n' then ['\n']
    else [c]) ++ replacementOf subject start stop groups cs
  | '&' :: cs =>
    (subject.text.extract start stop).toList ++ replacementOf subject start stop groups cs
  | c :: cs => c :: replacementOf subject start stop groups cs
  | [] => []

/-- Replaces stretches from a place on: the one with a number, or all from that one on. An empty
stretch right behind another one, which has ended at `behind`, does not count. -/
def replaceFrom (regex : Regex) (text : List Char) (subject : Regex.Subject) (everywhere : Bool)
    (behind : Option Nat) : Nat → Nat → Nat → List Char × Bool
  | 0, start, _ => ((subject.text.extract start subject.text.size).toList, false)
  | fuel + 1, start, count =>
    match regex.find? subject start with
    | none => ((subject.text.extract start subject.text.size).toList, false)
    | some (first, stop, groups) =>
      let isMeant := count ≤ 1
      let counts := !(first == stop && some first == behind)
      let piece :=
        if !counts then []
        else if isMeant then replacementOf subject first stop groups text
        else (subject.text.extract first stop).toList
      let written := (subject.text.extract start first).toList ++ piece
      if counts && isMeant && !everywhere then
        (written ++ (subject.text.extract stop subject.text.size).toList, true)
      else
        let passed := if stop == first then (subject.text[stop]?).toList else []
        if stop == first && passed.isEmpty then (written, counts && isMeant)
        else
          let (rest, changed) := replaceFrom regex text subject everywhere (some stop) fuel
            (stop + passed.length) (if counts then count - 1 else count)
          (written ++ passed ++ rest, (counts && isMeant) || changed)

/-- Which lines an instruction is for. -/
inductive Address where
  | line (n : Nat)
  | last
  | matching (regex : Regex)

/-- An instruction for the lines of a text. -/
structure Instruction where
  start : Option Address
  stop : Option Address
  negated : Bool
  action : Char
  pattern : Option Regex := none
  text : List Char := []
  flags : List Char := []

/-- What stands before a delimiter that no backslash precedes. -/
def takeDelimited (delimiter : Char) : List Char → Option (List Char × List Char)
  | [] => none
  | '\\' :: c :: cs =>
    (takeDelimited delimiter cs).map fun (text, rest) =>
      ((if c == delimiter then [c] else ['\\', c]) ++ text, rest)
  | c :: cs =>
    if c == delimiter then some ([], cs)
    else (takeDelimited delimiter cs).map fun (text, rest) => (c :: text, rest)

def readAddress (extended : Bool) (cs : List Char) : Option (Option Address × List Char) :=
  match cs with
  | '$' :: cs => some (some .last, cs)
  | '/' :: cs => do
    let (pattern, rest) ← takeDelimited '/' cs
    return (some (.matching (← Regex.parse? extended pattern)), rest)
  | cs =>
    let digits := cs.takeWhile Text.isAsciiDigit
    some (((String.ofList digits).toNat?).map .line, cs.drop digits.length)

def readInstructions (extended : Bool) (fuel : Nat) (cs : List Char) : Option (List Instruction) :=
  match fuel with
  | 0 => none
  | fuel + 1 => do
    let cs := cs.dropWhile fun c => " \t\n;".toList.contains c
    if cs.isEmpty then return []
    let (start, cs) ← readAddress extended cs
    let (stop, cs) ←
      match cs with
      | ',' :: cs => readAddress extended cs
      | cs => some (none, cs)
    let cs := cs.dropWhile (· == ' ')
    let negated := cs.head? == some '!'
    match if negated then cs.tail else cs with
    | 's' :: delimiter :: cs => do
      let (pattern, cs) ← takeDelimited delimiter cs
      let (text, cs) ← takeDelimited delimiter cs
      let flags := cs.takeWhile Text.isAsciiAlphanumeric
      let regex ← Regex.parse? extended pattern
      let more ← readInstructions extended fuel (cs.drop flags.length)
      return { start, stop, negated, action := 's', pattern := some regex, text, flags } :: more
    | 'y' :: delimiter :: cs => do
      let (pattern, cs) ← takeDelimited delimiter cs
      let (text, cs) ← takeDelimited delimiter cs
      let more ← readInstructions extended fuel cs
      return { start, stop, negated, action := 'y', text, flags := pattern } :: more
    | c :: cs => do
      if !"pdq=".toList.contains c then failure
      return { start, stop, negated, action := c } :: (← readInstructions extended fuel cs)
    | [] => none

/-- A line under instructions: what it is now, what has been written, and whether it is written at
the end. -/
structure Editing where
  line : List Char
  written : List Char := []
  isKept : Bool := true
  isOver : Bool := false

def Address.holds (number : Nat) (isLast : Bool) (line : List Char) : Address → Bool
  | .line n => n == number
  | .last => isLast
  | .matching regex => (regex.find? { text := line.toArray } 0).isSome

/-- Carries out an instruction. -/
def Instruction.act (instruction : Instruction) (number : Nat) (e : Editing) : Editing :=
  match instruction.action with
  | 's' =>
    match instruction.pattern with
    | some regex =>
      let flags := instruction.flags
      let subject : Regex.Subject :=
        { text := e.line.toArray, ignoresCase := flags.contains 'i' || flags.contains 'I' }
      let count := ((String.ofList (flags.filter Text.isAsciiDigit)).toNat?).getD 1
      let (line, changed) := replaceFrom regex instruction.text subject (flags.contains 'g')
        none (e.line.length + 2) 0 count
      { e with
          line
          written :=
            if changed && flags.contains 'p' then e.written ++ line ++ ['\n'] else e.written }
    | none => e
  | 'y' =>
    let change := fun (c : Char) =>
      (instruction.text[instruction.flags.idxOf c]?).getD c
    { e with line := e.line.map change }
  | 'p' => { e with written := e.written ++ e.line ++ ['\n'] }
  | '=' => { e with written := e.written ++ (toString number).toList ++ ['\n'] }
  | 'd' => { e with isKept := false, isOver := true }
  | _ => { e with isOver := true }

/-- Carries out instructions on a line; each says whether its range is open. -/
def editLine (number : Nat) (isLast : Bool) :
    List (Instruction × Bool) → Editing → List (Instruction × Bool) × Editing × Bool
  | [], e => ([], e, false)
  | (instruction, isOpen) :: rest, e =>
    let holds := fun (address : Option Address) => address.all (·.holds number isLast e.line)
    let begins := !isOpen && holds instruction.start
    let isIn := isOpen || begins
    let ends := match instruction.stop with
      | none => true
      | some (.line n) => n ≤ number
      | some address => isOpen && address.holds number isLast e.line
    let state := (instruction, isIn && !ends)
    let e := if isIn != instruction.negated then instruction.act number e else e
    if e.isOver then (state :: rest, e, isIn != instruction.negated && instruction.action == 'q')
    else
      let (states, e, stops) := editLine number isLast rest e
      (state :: states, e, stops)

/-- The text that a stream editor writes. -/
def editLines (quiet : Bool) (states : List (Instruction × Bool)) (number : Nat) :
    List (List Char) → List Char
  | [] => []
  | line :: lines =>
    let (states, e, stops) := editLine number lines.isEmpty states { line }
    e.written ++ (if e.isKept && !quiet then e.line ++ ['\n'] else []) ++
      if stops then [] else editLines quiet states (number + 1) lines

def edit (options : List (Char × List Char)) (script input : List Char) : Outcome :=
  let extended := hasOption options 'E' || hasOption options 'r'
  match readInstructions extended (script.length + 1) script with
  | some instructions =>
    let text := editLines (hasOption options 'n') (instructions.map (·, false)) 1 (linesOf input)
    let isClosed := input.isEmpty || input.getLast? == some '\n'
    let endsLine := text.getLast? == some '\n'
    { output := if !isClosed && endsLine then text.dropLast else text }
  | none => .failure "sed: -e expression #1, char 1: unknown command" 1

end PhoenixLens.Shell
