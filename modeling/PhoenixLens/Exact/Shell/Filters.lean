import PhoenixLens.Exact.Shell.Outcome
import PhoenixLens.Exact.Shell.Pattern

/-!
# Filters of text and printed text

What the small programs that scripts call make of the text that they read: they pass on some of its
characters or lines, in order or sorted, changed or counted.

What scripts print: words as they are, or texts put in the places of a pattern.
-/

namespace PhoenixLens.Shell

/-- The characters that an argument of `tr` lists, with ranges, classes and escapes. -/
def listedChars (fuel : Nat) (cs : List Char) : List Char :=
  match fuel, cs with
  | 0, _ | _, [] => []
  | fuel + 1, '[' :: ':' :: cs =>
    let name := cs.takeWhile (· != ':')
    (classRanges (String.ofList name)).flatMap (fun (low, high) => span low high) ++
      listedChars fuel (cs.drop (name.length + 2))
  | fuel + 1, '\\' :: c :: cs =>
    if '0' ≤ c && c ≤ '7' then
      let (n, rest) := takeNumber 8 3 (c :: cs)
      Char.ofNat n :: listedChars fuel rest
    else (escape? c).getD c :: listedChars fuel cs
  | fuel + 1, low :: '-' :: high :: cs => span low high ++ listedChars fuel cs
  | fuel + 1, c :: cs => c :: listedChars fuel cs
where
  span (low high : Char) : List Char :=
    (List.range (high.toNat + 1 - low.toNat)).map fun i => Char.ofNat (low.toNat + i)

/-- Leaves out characters that repeat the one before them. -/
def squeeze (listed : List Char) (complement : Bool) : Option Char → List Char → List Char
  | _, [] => []
  | before, c :: cs =>
    if before == some c && listed.contains c != complement then squeeze listed complement before cs
    else c :: squeeze listed complement (some c) cs

def translate (arguments : List (List Char)) (input : List Char) : Outcome :=
  let (options, sets) := optionsOf "" arguments
  let listed := fun (cs : List Char) => listedChars (cs.length + 1) cs
  let complement := hasOption options 'c' || hasOption options 'C'
  let first := listed (sets.headD [])
  let isIn := fun (c : Char) => first.contains c != complement
  let second := sets[1]?.map listed
  if sets.isEmpty then .failure "tr: missing operand" 1
  else if hasOption options 'd' then
    let kept := input.filter fun c => !isIn c
    { output := if hasOption options 's' then squeeze (second.getD []) false none kept else kept }
  else
    match second with
    | some second =>
      let change := fun (c : Char) =>
        if !isIn c then c
        else if complement then second.getLast?.getD c
        else ((second[first.idxOf c]?).or second.getLast?).getD c
      let changed := input.map change
      { output := if hasOption options 's' then squeeze second false none changed else changed }
    | none =>
      if hasOption options 's' then { output := squeeze first complement none input }
      else .failure "tr: missing operand" 1

/-- The first lines, or bytes, of a text; a negative number leaves so many out at the end. -/
def firstPart (options : List (Char × List Char)) (input : List Char) : List Char :=
  let part := fun (n : Int) (size : Nat) => if n < 0 then size - n.natAbs else n.toNat
  match (options.lookup 'c').bind integer? with
  | some n => input.take (part n input.length)
  | none =>
    let n := ((options.lookup 'n').bind integer?).getD 10
    let lines := Text.splitAt '\n' input
    let count := part n (linesOf input).length
    if lines.length ≤ count then input else unlines (lines.take count)

/-- The last lines, or bytes, of a text; behind a plus sign those from a number on. -/
def lastPart (options : List (Char × List Char)) (input : List Char) : List Char :=
  let skipped := fun (text : List Char) (size : Nat) =>
    let n := (integer? text).getD 10
    if text.head? == some '+' then n.toNat - 1 else size - n.natAbs
  match options.lookup 'c' with
  | some text => input.drop (skipped text input.length)
  | none =>
    let text := (options.lookup 'n').getD ['1', '0']
    let count := skipped text (linesOf input).length
    (List.range count).foldl (fun cs _ => (cs.dropWhile (· != '\n')).tail) input

/-- The numbers of lines, words and bytes that are asked for. -/
def counts (options : List (Char × List Char)) (input : List Char) : List Nat :=
  let all := ['l', 'w', 'c', 'm'].all fun name => !hasOption options name
  let word := fun (c : Char) => !" \t\n\r\x0b\x0c".toList.contains c
  let runs := input.splitBy fun a b => word a == word b
  let words := (runs.filter fun run => run.head?.any word).length
  (if all || hasOption options 'l' then [input.count '\n'] else []) ++
    (if all || hasOption options 'w' then [words] else []) ++
    (if hasOption options 'm' then [input.length] else []) ++
    if all || hasOption options 'c' then [input.length] else []

/-- What `wc` writes for texts with their names. -/
def countAll (options : List (Char × List Char)) (inputs : List (Option (List Char) × List Char)) :
    List Char :=
  let rows := inputs.map fun (name, text) => (name, counts options text)
  let total := (rows.map (·.2)).foldl (fun sums row => sums.zipWith (· + ·) row)
    (List.replicate ((rows.head?.map (·.2.length)).getD 0) 0)
  let rows := if rows.length > 1 then rows ++ [(some "total".toList, total)] else rows
  let width :=
    if rows.length ≤ 1 && total.length ≤ 1 then 1
    else if inputs.any (·.1.isNone) then 7
    else (toString ((inputs.map (·.2.length)).foldl (· + ·) 0)).length
  unlines (rows.map fun (name, row) =>
    Text.join [' '] (row.map fun n => padStart width (toString n).toList) ++
      match name with
      | some name => ' ' :: name
      | none => [])

/-- The numbers that a list such as `1,3-5,7-` holds. -/
def inList (text : List Char) (n : Nat) : Bool :=
  (Text.splitAt ',' text).any fun item =>
    match Text.splitAt '-' item with
    | [exact] => (String.ofList exact).toNat? == some n
    | [low, high] =>
      (((String.ofList low).toNat?).getD 1 ≤ n) &&
        (high.isEmpty || ((String.ofList high).toNat?).any (n ≤ ·))
    | _ => false

def listed {α : Type} (list : List Char) (items : List α) : List α :=
  (items.zipIdx.filter fun (_, i) => inList list (i + 1)).map (·.1)

/-- The parts of each line that are asked for. -/
def cut (options : List (Char × List Char)) (input : List Char) : List Char :=
  unlines ((linesOf input).filterMap fun line =>
    match (options.lookup 'c').or (options.lookup 'b') with
    | some list => some (listed list line)
    | none =>
      let delimiter := ((options.lookup 'd').bind List.head?).getD '\t'
      if !line.contains delimiter then if hasOption options 's' then none else some line
      else
        let fields := Text.splitAt delimiter line
        some (Text.join [delimiter] (listed ((options.lookup 'f').getD []) fields)))

/-- The order of texts by their bytes, or by the numbers that they begin with. -/
def comesFirst (numeric : Bool) (a b : List Char) : Bool :=
  let number := fun (cs : List Char) =>
    let cs := cs.dropWhile (· == ' ')
    let sign := cs.takeWhile (· == '-')
    (integer? (sign ++ (cs.drop sign.length).takeWhile Text.isAsciiDigit)).getD 0
  if numeric && number a != number b then number a < number b else !decide (b < a)

def sortLines (options : List (Char × List Char)) (input : List Char) : List Char :=
  let sorted := (linesOf input).mergeSort (comesFirst (hasOption options 'n'))
  let sorted := if hasOption options 'r' then sorted.reverse else sorted
  unlines (if hasOption options 'u' then sorted.eraseReps else sorted)

/-- Runs of equal lines as one line each. -/
def mergeRepeats (options : List (Char × List Char)) (input : List Char) : List Char :=
  let runs := (linesOf input).splitBy (· == ·)
  let runs := if hasOption options 'd' then runs.filter (·.length > 1)
    else if hasOption options 'u' then runs.filter (·.length == 1) else runs
  unlines (runs.map fun run =>
    (if hasOption options 'c' then padStart 7 (toString run.length).toList ++ [' '] else []) ++
      run.headD [])

/-- The numbers from one to another. -/
def countUp (arguments : List (List Char)) : Outcome :=
  match arguments.mapM integer? with
  | some [last] => { output := rows 1 1 last }
  | some [first, last] => { output := rows first 1 last }
  | some [first, step, last] => { output := rows first step last }
  | _ => .failure "seq: missing operand" 1
where
  rows (first step last : Int) : List Char :=
    let count := if step == 0 then 0 else ((last - first).fdiv step + 1).toNat
    unlines ((List.range count).map fun (i : Nat) => digitsOf (first + step * i))

/-! ### Printed text -/

/-- What `echo` writes: `-n` leaves the end of the line out, `-e` reads escapes. -/
def echo (arguments : List (List Char)) : List Char :=
  let isOption := fun (cs : List Char) =>
    cs.length > 1 && cs.head? == some '-' && cs.tail.all "neE".toList.contains
  let options := (arguments.takeWhile isOption).flatten
  let text := Text.join [' '] (arguments.dropWhile isOption)
  let escapes := (options.filter fun c => c == 'e' || c == 'E').getLast? == some 'e'
  let (text, stopped) := if escapes then unescape (text.length + 1) true text else (text, false)
  text ++ if options.contains 'n' || stopped then [] else ['\n']

/-- A place in a pattern that is to be filled. -/
structure Blank where
  left : Bool := false
  zero : Bool := false
  sign : List Char := []
  alternative : Bool := false
  width : Nat := 0
  precision : Option Nat := none
  kind : Char

/-- Reads a place behind its percent sign; a star takes its number from the texts. -/
def readBlank (cs : List Char) (texts : List (List Char)) :
    Option (Blank × List Char × List (List Char)) := do
  let flags := cs.takeWhile "-+ #0".toList.contains
  let (width, cs, texts) := count (cs.drop flags.length) texts
  let (precision, cs, texts) :=
    if cs.head? == some '.' then
      let (n, cs, texts) := count cs.tail texts
      (some (n.getD 0).toNat, cs, texts)
    else (none, cs, texts)
  let kind ← cs.head?
  let blank : Blank :=
    { left := flags.contains '-' || (width.getD 0) < 0, zero := flags.contains '0'
      sign := if flags.contains '+' then ['+'] else if flags.contains ' ' then [' '] else []
      alternative := flags.contains '#', width := (width.getD 0).natAbs, precision, kind }
  return (blank, cs.tail, texts)
where
  count (cs : List Char) (texts : List (List Char)) :
      Option Int × List Char × List (List Char) :=
    if cs.head? == some '*' then (integer? (texts.headD []), cs.tail, texts.tail)
    else
      let digits := cs.takeWhile Text.isAsciiDigit
      (integer? digits, cs.drop digits.length, texts)

/-- Gives a text the width of a place. -/
def Blank.fit (blank : Blank) (sign digits : List Char) : List Char :=
  let missing := blank.width - (sign.length + digits.length)
  if blank.left then sign ++ digits ++ List.replicate missing ' '
  else if blank.zero then sign ++ List.replicate missing '0' ++ digits
  else List.replicate missing ' ' ++ sign ++ digits

/-- The number that a text stands for: a quote stands before a character. -/
def printedNumber? (cs : List Char) : Option Int :=
  match Text.trim cs with
  | [] => some 0
  | '\'' :: c :: _ | '"' :: c :: _ => some c.toNat
  | '-' :: cs => (numeral? cs).map (- ·)
  | '+' :: cs => numeral? cs
  | cs => numeral? cs

/-- Fills a place; the second part tells whether the text is no number. -/
def Blank.fill (blank : Blank) (text : List Char) : List Char × Bool :=
  let number := printedNumber? text
  let beginning := printedNumber? (text.takeWhile fun c => Text.isAsciiDigit c || c == '-')
  let n := number.getD (beginning.getD 0)
  let digits := fun (base : Nat) (n : Nat) =>
    let text := Nat.toDigits base n
    List.replicate ((blank.precision.getD 0) - text.length) '0' ++ text
  let unfilled := { blank with zero := false }
  let blank' := if blank.precision.isSome then unfilled else blank
  match blank.kind with
  | 's' | 'b' => (unfilled.fit [] (text.take (blank.precision.getD text.length)), false)
  | 'c' => (unfilled.fit [] (text.take 1), false)
  | 'd' | 'i' =>
    (blank'.fit (if n < 0 then ['-'] else blank.sign) (digits 10 n.natAbs), number.isNone)
  | kind =>
    let n := (n.emod UInt64.size).toNat
    let mark := if blank.alternative && n != 0 then ['0', kind] else []
    match kind with
    | 'u' => (blank'.fit [] (digits 10 n), number.isNone)
    | 'o' => (blank'.fit [] (digits 8 n), number.isNone)
    | 'x' => (blank'.fit mark (digits 16 n), number.isNone)
    | _ => (blank'.fit mark ((digits 16 n).map Char.toUpper), number.isNone)

/-- What `printf` writes for a pattern once, the texts that are left, those that are no numbers, and
whether it is to stop. -/
def fillOnce (fuel : Nat) (cs : List Char) (texts : List (List Char)) :
    List Char × List (List Char) × List (List Char) × Bool :=
  match fuel, cs with
  | 0, _ | _, [] => ([], texts, [], false)
  | fuel + 1, '%' :: '%' :: cs => put fuel ['%'] cs texts []
  | fuel + 1, '%' :: cs =>
    match readBlank cs texts with
    | some (blank, cs, texts) =>
      let text := texts.headD []
      if blank.kind == 'b' then
        let (text, stopped) := unescape (text.length + 1) true text
        if stopped then ((blank.fill text).1, texts.tail, [], true)
        else put fuel (blank.fill text).1 cs texts.tail []
      else
        let (filled, isWrong) := blank.fill text
        put fuel filled cs texts.tail (if isWrong then [text] else [])
    | none => (['%'], texts, [], true)
  | fuel + 1, '\\' :: cs =>
    if cs.head? == some '"' || cs.head? == some '\'' then put fuel (cs.take 1) cs.tail texts []
    else
      let escape := '\\' :: escapeLength cs
      put fuel (unescape escape.length false escape).1 (cs.drop (escape.length - 1)) texts []
  | fuel + 1, c :: cs => put fuel [c] cs texts []
where
  put (fuel : Nat) (text cs : List Char) (texts wrong : List (List Char)) :
      List Char × List (List Char) × List (List Char) × Bool :=
    let (filled, left, more, stopped) := fillOnce fuel cs texts
    (text ++ filled, left, wrong ++ more, stopped)
  /-- The characters behind a backslash that belong to it. -/
  escapeLength (cs : List Char) : List Char :=
    match cs with
    | 'x' :: cs => 'x' :: (cs.take 2).takeWhile fun c => (Text.hexValue? c).isSome
    | 'u' :: cs => 'u' :: (cs.take 4).takeWhile fun c => (Text.hexValue? c).isSome
    | 'U' :: cs => 'U' :: (cs.take 8).takeWhile fun c => (Text.hexValue? c).isSome
    | c :: _ =>
      if '0' ≤ c && c ≤ '7' then (cs.take 3).takeWhile fun c => '0' ≤ c && c ≤ '7' else [c]
    | [] => []

/-- What `printf` writes: the pattern is used until no text is left. -/
def fillAll (pattern : List Char) : Nat → List (List Char) → List Char × List (List Char)
  | 0, _ => ([], [])
  | n + 1, texts =>
    let (filled, left, wrong, stopped) := fillOnce (pattern.length + 1) pattern texts
    if stopped || left.isEmpty || left.length == texts.length then (filled, wrong)
    else
      let (more, others) := fillAll pattern n left
      (filled ++ more, wrong ++ others)

end PhoenixLens.Shell
