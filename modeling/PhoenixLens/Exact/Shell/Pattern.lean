import PhoenixLens.Exact.Shell.Syntax
import PhoenixLens.Text.Basic

/-!
# Patterns of file names

A star stands for any characters, a question mark for one, and brackets for one of a set. Quoted
characters stand for themselves.
-/

namespace PhoenixLens.Shell

inductive PatternItem where
  | exactly (c : Char)
  | anyOne
  | anyMany
  | oneOf (negated : Bool) (ranges : List (Char × Char))
deriving DecidableEq, Repr

/-- The ASCII characters of a named class, as ranges. -/
def classRanges (name : String) : List (Char × Char) :=
  match name with
  | "alpha" => [('A', 'Z'), ('a', 'z')]
  | "digit" => [('0', '9')]
  | "alnum" => [('0', '9'), ('A', 'Z'), ('a', 'z')]
  | "upper" => [('A', 'Z')]
  | "lower" => [('a', 'z')]
  | "space" => [('\t', '\x0d'), (' ', ' ')]
  | "blank" => [('\t', '\t'), (' ', ' ')]
  | "punct" => [('!', '/'), (':', '@'), ('[', '\x60'), ('\x7b', '~')]
  | "xdigit" => [('0', '9'), ('A', 'F'), ('a', 'f')]
  | "print" => [(' ', '~')]
  | "graph" => [('!', '~')]
  | "cntrl" => [('\x00', '\x1f'), ('\x7f', '\x7f')]
  | _ => []

/-- The characters in brackets as ranges, and what follows the closing one. A bracket that stands
first is one of them. -/
def bracketRanges (fuel : Nat) (isFirst : Bool) (cs : List Char) :
    Option (List (Char × Char) × List Char) :=
  match fuel, cs with
  | 0, _ | _, [] => none
  | fuel + 1, '[' :: ':' :: cs => do
    let name := cs.takeWhile (· != ':')
    let (ranges, rest) ← bracketRanges fuel false (cs.drop (name.length + 2))
    return (classRanges (String.ofList name) ++ ranges, rest)
  | fuel + 1, c :: cs =>
    if c == ']' && !isFirst then some ([], cs)
    else
      match cs with
      | '-' :: d :: rest =>
        let (last, rest) := if d == ']' then (c, cs) else (d, rest)
        (bracketRanges fuel false rest).map fun (ranges, rest) => ((c, last) :: ranges, rest)
      | cs => (bracketRanges fuel false cs).map fun (ranges, rest) => ((c, c) :: ranges, rest)

/-- A set in brackets behind the opening one; some characters that stand first negate it. -/
def bracketSet? (negations : List Char) (cs : List Char) :
    Option (Bool × List (Char × Char) × List Char) := do
  let negated := cs.head?.any negations.contains
  let cs := if negated then cs.tail else cs
  let (ranges, rest) ← bracketRanges (cs.length + 1) true cs
  return (negated, ranges, rest)

def inSet (negated : Bool) (ranges : List (Char × Char)) (c : Char) : Bool :=
  ranges.any (fun (low, high) => low ≤ c && c ≤ high) != negated

/-- Reads a pattern from characters and whether they are quoted. -/
def patternOf (fuel : Nat) (cs : List (Char × Bool)) : List PatternItem :=
  match fuel, cs with
  | 0, _ | _, [] => []
  | fuel + 1, ('*', false) :: cs => .anyMany :: patternOf fuel cs
  | fuel + 1, ('?', false) :: cs => .anyOne :: patternOf fuel cs
  | fuel + 1, ('[', false) :: cs =>
    match bracketSet? ['!', '^'] (cs.map (·.1)) with
    | some (negated, ranges, rest) =>
      .oneOf negated ranges :: patternOf fuel (cs.drop (cs.length - rest.length))
    | none => .exactly '[' :: patternOf fuel cs
  | fuel + 1, (c, _) :: cs => .exactly c :: patternOf fuel cs

/-- What is left of a text behind each beginning that a pattern stands for. -/
def leftBehind : List PatternItem → List Char → List (List Char)
  | [], cs => [cs]
  | .anyMany :: items, cs => (tails cs).flatMap (leftBehind items)
  | .anyOne :: items, _ :: cs => leftBehind items cs
  | .exactly c :: items, d :: cs => if c == d then leftBehind items cs else []
  | .oneOf negated ranges :: items, d :: cs =>
    if inSet negated ranges d then leftBehind items cs else []
  | _ :: _, [] => []
where
  /-- A text and what is left after its first, second and further characters. -/
  tails : List Char → List (List Char)
    | [] => [[]]
    | c :: cs => (c :: cs) :: tails cs

/-- The pattern stands for the whole text. -/
def fitsPattern (items : List PatternItem) (cs : List Char) : Bool :=
  (leftBehind items cs).any List.isEmpty

/-- The text without the shortest or longest beginning that a pattern stands for. -/
def cutBeginning (longest : Bool) (items : List PatternItem) (cs : List Char) : List Char :=
  let lengths := (leftBehind items cs).map List.length
  let best := if longest then lengths.min? else lengths.max?
  match best with
  | some n => cs.drop (cs.length - n)
  | none => cs

/-- The text without the shortest or longest end that a pattern stands for. -/
def cutEnding (longest : Bool) (items : List PatternItem) (cs : List Char) : List Char :=
  let fits := (List.range (cs.length + 1)).filter fun n => fitsPattern items (cs.drop n)
  let best := if longest then fits.head? else fits.getLast?
  match best with
  | some n => cs.take n
  | none => cs

/-- Replaces the first, or every, longest stretch that a pattern stands for. -/
def replacePattern (everywhere : Bool) (items : List PatternItem) (text : List Char) (skip : Nat) :
    List Char → List Char
  | [] => []
  | c :: cs =>
    if skip > 0 then replacePattern everywhere items text (skip - 1) cs
    else
      match ((leftBehind items (c :: cs)).map List.length).min? with
      | some n =>
        let length := cs.length + 1 - n
        if length == 0 then c :: replacePattern everywhere items text 0 cs
        else if everywhere then text ++ replacePattern everywhere items text (length - 1) cs
        else text ++ (c :: cs).drop length
      | none => c :: replacePattern everywhere items text 0 cs

end PhoenixLens.Shell
