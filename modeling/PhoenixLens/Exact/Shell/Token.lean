import PhoenixLens.Exact.Shell.Syntax
import PhoenixLens.Text.Basic

/-!
# Tokens of scripts

Words, redirections and the marks between commands. The text of a here-document is taken out of the
lines that follow and becomes the word of its redirection.
-/

namespace PhoenixLens.Shell

inductive Token where
  | word (word : Word) (line : Nat)
  /-- What separates or groups commands; the end of a line is `\n`. -/
  | mark (text : String) (line : Nat)
  | redirection (redirection : Redirection)
  /-- What stands between double parentheses. -/
  | expression (text : List Mark) (line : Nat)
  | broken (problem : Problem)

/-! ### Words -/

/-- In what text a word stands. -/
inductive Surroundings where
  /-- Blanks and marks end the word. -/
  | line
  /-- The text ends the word. -/
  | braces
  /-- The text ends the word, and quotes mean nothing. -/
  | document
deriving DecidableEq, Repr

/-- A character that ends a word outside of quotes. -/
def endsWord (c : Char) : Bool := " \t\n;><|&()".toList.contains c

/-- What stands before the mark that closes a bracket, and what follows it. Brackets in quotes do
not count. -/
def takeNested (opening closing : Char) (quote : Option Char) (depth : Nat) :
    List Mark → Option (List Mark × List Mark)
  | [] => none
  | [c] => if c.char == closing && depth == 0 && quote.isNone then some ([], []) else none
  | c :: d :: cs =>
    let keep := fun (marks : List Mark) (rest : Option (List Mark × List Mark)) =>
      rest.map fun (inner, after) => (marks ++ inner, after)
    if c.char == '\\' && quote != some '\'' then
      keep [c, d] (takeNested opening closing quote depth cs)
    else if quote.isSome then
      keep [c] (takeNested opening closing (if quote == some c.char then none else quote) depth
        (d :: cs))
    else if c.char == '\'' || c.char == '"' then
      keep [c] (takeNested opening closing (some c.char) depth (d :: cs))
    else if c.char == closing then
      if depth == 0 then some ([], d :: cs)
      else keep [c] (takeNested opening closing none (depth - 1) (d :: cs))
    else
      keep [c] (takeNested opening closing none (if c.char == opening then depth + 1 else depth)
        (d :: cs))

/-- What stands before a quote, in which a backslash keeps the next character, and what follows. -/
def takeQuoted (quote : Char) : List Mark → Option (List Mark × List Mark)
  | [] => none
  | [c] => if c.char == quote then some ([], []) else none
  | c :: d :: cs =>
    if c.char == '\\' then
      (takeQuoted quote cs).map fun (inner, after) => (c :: d :: inner, after)
    else if c.char == quote then some ([], d :: cs)
    else (takeQuoted quote (d :: cs)).map fun (inner, after) => (c :: inner, after)

/-- The commands between backquotes: a backslash keeps a backquote, a dollar sign or another
backslash. -/
def unquoteCommands : List Mark → List Mark
  | c :: d :: cs =>
    if c.char == '\\' && "\\$\x60".toList.contains d.char then d :: unquoteCommands cs
    else c :: unquoteCommands (d :: cs)
  | cs => cs

/-- The name of a parameter: one mark or digit, or letters. -/
def parameterName (cs : List Mark) : List Mark :=
  match cs with
  | c :: _ =>
    if "#@*?$!-".toList.contains c.char || Text.isAsciiDigit c.char then [c]
    else cs.takeWhile fun c => Text.isAsciiWord c.char
  | [] => []

/-- The number that up to `count` digits of a base stand for, and what follows them. -/
def takeNumber (base count : Nat) (cs : List Char) : Nat × List Char :=
  let digits := (cs.take count).takeWhile fun c => (Text.hexValue? c).any (· < base)
  (digits.foldl (fun n c => n * base + (Text.hexValue? c).getD 0) 0, cs.drop digits.length)

/-- The character that a letter behind a backslash stands for. -/
def escape? : Char → Option Char
  | 'a' => some '\x07'
  | 'b' => some '\x08'
  | 'e' => some '\x1b'
  | 'f' => some '\x0c'
  | 'n' => some '\n'
  | 'r' => some '\r'
  | 't' => some '\t'
  | 'v' => some '\x0b'
  | '\\' => some '\\'
  | _ => none

/-- The character with a number, which stays written as a number beyond ASCII. -/
def numbered (n : Nat) : List Char :=
  if n < 128 then [Char.ofNat n]
  else
    let digits := (Nat.toDigits 16 n).map Char.toUpper
    let width := if n < 65536 then 4 else 8
    '\\' :: (if n < 65536 then 'u' else 'U') ::
      (List.replicate (width - digits.length) '0' ++ digits)

/-- Reads escapes. A number is octal, or hexadecimal behind `x`; `c` ends the text if `stops`. -/
def unescape (fuel : Nat) (stops : Bool) (cs : List Char) : List Char × Bool :=
  match fuel, cs with
  | 0, cs => (cs, false)
  | _, [] => ([], false)
  | fuel + 1, '\\' :: c :: cs =>
    let go := fun (text rest : List Char) =>
      let (tail, stopped) := unescape fuel stops rest
      (text ++ tail, stopped)
    if stops && c == 'c' then ([], true)
    else if c == 'x' && cs.head?.any (Text.hexValue? · |>.isSome) then
      let (n, rest) := takeNumber 16 2 cs
      go [Char.ofNat n] rest
    else if c == 'u' || c == 'U' then
      let (n, rest) := takeNumber 16 (if c == 'u' then 4 else 8) cs
      go (numbered n) rest
    else if '0' ≤ c && c ≤ '7' then
      let (n, rest) := takeNumber 8 (if stops && c == '0' then 4 else 3) (c :: cs)
      go [Char.ofNat (n % 256)] rest
    else if !stops && "'\"?".toList.contains c then go [c] cs
    else
      match escape? c with
      | some e => go [e] cs
      | none => go ['\\', c] cs
  | fuel + 1, c :: cs =>
    let (tail, stopped) := unescape fuel stops cs
    (c :: tail, stopped)

/-- Puts a character at the end of a word whose parts stand in reverse. -/
def addChar (quoted : Bool) (c : Char) : List Part → List Part
  | .literal text q :: parts =>
    if q == quoted then .literal (text ++ [c]) q :: parts
    else .literal [c] quoted :: .literal text q :: parts
  | parts => .literal [c] quoted :: parts

/-- Reads a word from its beginning on; `parts` stand before, in reverse. -/
def readWord (fuel : Nat) (around : Surroundings) (inQuotes : Bool) (parts : List Part)
    (cs : List Mark) : Except Problem (Word × List Mark) :=
  let quoted := inQuotes || around == .document
  match fuel, cs with
  | 0, cs => .ok (parts.reverse, cs)
  | _, [] => if inQuotes then .error (.unclosed '"' 0) else .ok (parts.reverse, [])
  | fuel + 1, ⟨'\'', line⟩ :: cs =>
    if quoted then readWord fuel around inQuotes (addChar quoted '\'' parts) cs
    else
      let text := cs.takeWhile (·.char != '\'')
      if text.length == cs.length then .error (.unclosed '\'' line)
      else
        readWord fuel around inQuotes (.literal (textOf text) true :: parts)
          (cs.drop (text.length + 1))
  | fuel + 1, ⟨'"', line⟩ :: cs =>
    if around == .document then readWord fuel around inQuotes (addChar quoted '"' parts) cs
    else if inQuotes then readWord fuel around false parts cs
    else
      match readWord fuel around true (.literal [] true :: parts) cs with
      | .error (.unclosed c 0) => .error (.unclosed c line)
      | result => result
  | fuel + 1, ⟨'\\', _⟩ :: c :: cs =>
    if c.char == '\n' then readWord fuel around inQuotes parts cs
    else if quoted && !("\\$\x60".toList.contains c.char || (c.char == '"' && inQuotes)) then
      readWord fuel around inQuotes (addChar quoted c.char (addChar quoted '\\' parts)) cs
    else readWord fuel around inQuotes (addChar true c.char parts) cs
  | fuel + 1, ⟨'$', line⟩ :: ⟨'(', _⟩ :: cs =>
    match takeNested '(' ')' none 0 cs with
    | none =>
      let lastLine := (cs.getLast?.map (·.line)).getD line
      let isExpression := cs.head?.any (·.char == '(')
      .error (.unclosed ')' (if isExpression then line else lastLine + 1))
    | some (inner, rest) =>
      let part :=
        if inner.head?.any (·.char == '(') && inner.getLast?.any (·.char == ')') then
          Part.number (inner.tail.dropLast) quoted
        else .output inner quoted
      readWord fuel around inQuotes (part :: parts) rest
  | fuel + 1, ⟨'$', line⟩ :: ⟨'\x7b', _⟩ :: cs =>
    match takeNested '\x7b' '\x7d' none 0 cs with
    | none => .error (.unclosed '\x7d' line)
    | some (inner, rest) => readWord fuel around inQuotes (.parameter inner quoted :: parts) rest
  | fuel + 1, ⟨'$', line⟩ :: cs =>
    let name := parameterName cs
    if !quoted && cs.head?.any (·.char == '\'') then
      match takeQuoted '\'' cs.tail with
      | none => .error (.unclosed '\'' line)
      | some (inner, rest) =>
        let text := (unescape inner.length false (textOf inner)).1
        readWord fuel around inQuotes (.literal text true :: parts) rest
    else if name.isEmpty then readWord fuel around inQuotes (addChar quoted '$' parts) cs
    else readWord fuel around inQuotes (.parameter name quoted :: parts) (cs.drop name.length)
  | fuel + 1, c :: cs =>
    if c.char == '\x60' then
      match takeQuoted '\x60' cs with
      | none => .error (.unclosed '\x60' c.line)
      | some (inner, rest) =>
        readWord fuel around inQuotes (.output (unquoteCommands inner) quoted :: parts) rest
    else if !quoted && around == .line && endsWord c.char then .ok (parts.reverse, c :: cs)
    else readWord fuel around inQuotes (addChar quoted c.char parts) cs

def wordOf (around : Surroundings) (cs : List Mark) : Word :=
  match readWord (cs.length + 1) around false [] cs with
  | .ok (word, _) => word
  | .error _ => [.literal (textOf cs) true]

/-- The text of a word in which nothing is quoted or expanded. -/
def bare? : Word → Option (List Char)
  | [.literal text false] => some text
  | _ => none

/-- The word is read as it is written, but for its quotes. -/
def literalOf (word : Word) : List Char × Bool :=
  word.foldl (fun (text, quoted) part =>
    match part with
    | .literal t q => (text ++ t, quoted || q)
    | .parameter t q => (text ++ '$' :: textOf t, quoted || q)
    | .output _ q | .number _ q => (text, quoted || q)) ([], false)

/-! ### Here-documents -/

/-- The lines up to the one that is a delimiter, and what follows that one. -/
def takeDocument (fuel : Nat) (tabs : Bool) (delimiter : List Char) (cs : List Mark) :
    List Mark × List Mark :=
  match fuel with
  | 0 => ([], cs)
  | fuel + 1 =>
    if cs.isEmpty then ([], [])
    else
      let line := cs.takeWhile (·.char != '\n')
      let rest := cs.drop line.length
      let line := if tabs then line.dropWhile (·.char == '\t') else line
      if textOf line == delimiter then ([], rest.tail)
      else
        let (more, after) := takeDocument fuel tabs delimiter rest.tail
        (line ++ rest.take 1 ++ more, after)

/-- The here-document that belongs to a delimiter: its text as a word, and what is left of the line
and after the document. -/
def readDocument (tabs : Bool) (delimiter : Word) (cs : List Mark) : Word × List Mark :=
  let (text, quoted) := literalOf delimiter
  let line := cs.takeWhile (·.char != '\n')
  let below := cs.drop line.length
  let (body, after) := takeDocument (below.length + 1) tabs text below.tail
  (if quoted then [.literal (textOf body) true] else wordOf .document body,
    line ++ below.take 1 ++ after)

/-! ### Reading tokens -/

/-- The marks between commands, longer ones first. -/
def separators : List String := ["&&", "||", ";;", ";", "&", "|", "(", ")", "\n"]

/-- The text up to a mark that stands outside of quotes and behind no backslash. -/
def takeUnquoted (mark : Char) (quote : Option Char) : List Mark → List Mark
  | [] => []
  | [c] => if c.char == mark && quote.isNone then [] else [c]
  | c :: d :: cs =>
    if c.char == '\\' && quote != some '\'' then c :: d :: takeUnquoted mark quote cs
    else if quote == some c.char then c :: takeUnquoted mark none (d :: cs)
    else if quote.isNone && (c.char == '\'' || c.char == '"') then
      c :: takeUnquoted mark (some c.char) (d :: cs)
    else if c.char == mark && quote.isNone then []
    else c :: takeUnquoted mark quote (d :: cs)

/-- The marks of redirections, longer ones first. -/
def arrows : List (String × Opening) :=
  [("<<<", .text), ("<<-", .text), ("<<", .text), ("<&", .duplicate), ("<", .read), (">>", .append),
    (">&", .duplicate), (">|", .write), (">", .write)]

/-- Reads a redirection: the channel, the arrow and the word. -/
def readRedirection (cs : List Mark) : Option (Except Problem (Redirection × List Mark)) := do
  let digits := cs.takeWhile fun c => Text.isAsciiDigit c.char
  let both := digits.isEmpty && Text.startsWith "&>" (textOf (cs.take 2))
  let start := if both then cs.tail else cs.drop digits.length
  let (arrow, opening) ← arrows.find? fun (arrow, _) =>
    Text.startsWith arrow (textOf (start.take 3))
  if both && arrow != ">" && opening != .append then failure
  let rest := (start.drop arrow.length).dropWhile fun c => c.char == ' ' || c.char == '\t'
  let channels :=
    if both then [1, 2]
    else if digits.isEmpty then [if arrow.toList.head? == some '<' then 0 else 1]
    else [(textOf digits).foldl (fun n c => 10 * n + (c.toNat - 48)) 0]
  return do
    let (word, rest) ← readWord (rest.length + 1) .line false [] rest
    if word.isEmpty then
      throw (match rest with
        | [] => .unexpected "newline".toList 0
        | c :: _ => .unexpected (if c.char == '\n' then "newline".toList else [c.char]) c.line)
    if arrow == "<<" || arrow == "<<-" then
      let (document, rest) := readDocument (arrow == "<<-") word rest
      return ({ channels, opening, word := document }, rest)
    if arrow == "<<<" then
      return ({ channels, opening, word := word ++ [.literal ['\n'] true] }, rest)
    return ({ channels, opening, word }, rest)

def tokens (fuel : Nat) (cs : List Mark) : List Token :=
  match fuel, cs with
  | 0, _ | _, [] => []
  | fuel + 1, c :: cs =>
    if c.char == ' ' || c.char == '\t' then tokens fuel cs
    else if c.char == '\\' && cs.head?.any (·.char == '\n') then tokens fuel cs.tail
    else if c.char == '#' then tokens fuel (cs.dropWhile (·.char != '\n'))
    else if c.char == '(' && cs.head?.any (·.char == '(') &&
        ((takeNested '(' ')' none 0 cs).any fun (inner, _) =>
          inner.getLast?.any (·.char == ')')) then
      match takeNested '(' ')' none 0 cs with
      | some (inner, rest) => .expression inner.tail.dropLast c.line :: tokens fuel rest
      | none => []
    else
      match readRedirection (c :: cs) with
      | some (.ok (redirection, rest)) => .redirection redirection :: tokens fuel rest
      | some (.error problem) => [.broken problem]
      | none =>
        match separators.find? fun s => Text.startsWith s (c.char :: (textOf (cs.take 2))) with
        | some s => .mark s c.line :: tokens fuel (cs.drop (s.length - 1))
        | none =>
          match readWord (cs.length + 2) .line false [] (c :: cs) with
          | .ok (word, rest) => .word word c.line :: tokens fuel rest
          | .error problem => [.broken problem]

end PhoenixLens.Shell
