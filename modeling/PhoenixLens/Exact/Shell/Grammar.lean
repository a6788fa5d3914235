import PhoenixLens.Exact.Shell.Token

/-!
# The grammar of scripts

Tokens are read into commands. A script is carried out line by line, so what stands before a line
that cannot be read counts.
-/

namespace PhoenixLens.Shell

/-- Reading tokens from the front. -/
abbrev TokenReader := StateT (List Token) (Except Problem)

def unexpected : List Token → Problem
  | [] => .ended
  | .word word line :: _ => .unexpected (literalOf word).1 line
  | .mark "\n" line :: _ => .unexpected "newline".toList line
  | .mark text line :: _ => .unexpected text.toList line
  | .expression _ line :: _ => .unexpected "((".toList line
  | .redirection _ :: _ => .unexpected ['>'] 0
  | .broken problem :: _ => problem

/-- The first token is a word that is written just so. -/
def atKeyword (names : List String) : List Token → Bool
  | .word word _ :: _ => (bare? word).any fun text => names.any (·.toList == text)
  | _ => false

def atMark (texts : List String) : List Token → Bool
  | .mark text _ :: _ => texts.contains text
  | _ => false

/-- Words that begin a command of several parts. -/
def openers : List String := ["if", "while", "until", "for", "case", "[[", "function", "\x7b"]

/-- Words that cannot begin a command. -/
def closers : List String := ["then", "elif", "else", "fi", "do", "done", "esac", "\x7d", "in"]

/-- A loop with expressions for its beginning, its condition and its steps, in which semicolons
separate them; without a condition it goes on. -/
def countingLoop (line : Nat) (text : List Mark) (body : Command) : Command :=
  let parts := text.splitBy fun a b => a.char != ';' && b.char != ';'
  let parts := (parts.foldr (fun part (parts, current) =>
    if part.head?.any (·.char == ';') then (current :: parts, []) else (parts, part))
    (([] : List (List Mark)), ([] : List Mark)))
  let first := parts.2
  let condition := parts.1.headD []
  let isBlank := condition.all fun c => " \t\n".toList.contains c.char
  .sequence [.orElse (.evaluate line first) (.sequence []),
    .loop true (.evaluate line (if isBlank then [⟨'1', line⟩] else condition)) body
      (.evaluate line (parts.1.tail.headD []))]

namespace TokenReader

/-- Nothing fits the first token. -/
def stuck {α : Type} : TokenReader α := do throw (unexpected (← get))

def sees (test : List Token → Bool) : TokenReader Bool := return test (← get)

/-- Passes the first token if it fits. -/
def skip (test : List Token → Bool) : TokenReader Bool := do
  let fits ← sees test
  if fits then modify List.tail
  return fits

/-- Passes a keyword. -/
def expect (name : String) : TokenReader Unit := do
  if !(← skip (atKeyword [name])) then stuck

/-- Passes the ends of lines. -/
def skipLines : TokenReader Unit := modify fun ts =>
  ts.dropWhile fun
    | .mark "\n" _ => true
    | _ => false

def anyWord : TokenReader Word := do
  match ← get with
  | .word word _ :: ts =>
    set ts
    return word
  | _ => stuck

/-- The words and redirections that stand in front. -/
def simpleParts : List Token → List Word × List Redirection
  | .word word _ :: ts =>
    let (words, redirections) := simpleParts ts
    (word :: words, redirections)
  | .redirection r :: ts =>
    let (words, redirections) := simpleParts ts
    (words, r :: redirections)
  | _ => ([], [])

/-- Reads words and redirections. -/
def simple : TokenReader (List Word × List Redirection) := do
  let parts := simpleParts (← get)
  modify fun ts => ts.drop (parts.1.length + parts.2.length)
  return parts

/-- The redirections behind a compound command. -/
def withRedirections (body : Command) : TokenReader Command := do
  let (_, redirections) := simpleParts ((← get).takeWhile fun
    | .redirection _ => true
    | _ => false)
  modify fun ts => ts.drop redirections.length
  return if redirections.isEmpty then body else .redirected body redirections

/-- The words of a condition up to `]]`, and how many tokens they take; marks count as words. -/
def testWords : List Token → Option (List Word × Nat)
  | .word word _ :: ts =>
    if bare? word == some "]]".toList then some ([], 1)
    else (testWords ts).map fun (words, n) => (word :: words, n + 1)
  | .mark text _ :: ts =>
    (testWords ts).map fun (words, n) => ([.literal text.toList false] :: words, n + 1)
  | .redirection r :: ts =>
    let arrow := [Part.literal (if r.channels == [0] then ['<'] else ['>']) false]
    (testWords ts).map fun (words, n) => (arrow :: r.word :: words, n + 1)
  | _ => none

/-- The patterns of a branch, up to the parenthesis, and how many tokens they take. -/
def patterns : List Token → Option (List Word × Nat)
  | .word word _ :: .mark "|" _ :: ts =>
    (patterns ts).map fun (words, n) => (word :: words, n + 2)
  | .word word _ :: .mark ")" _ :: _ => some ([word], 2)
  | _ => none

/-- Passes the tokens that something takes. -/
def taking {α : Type} (read : List Token → Option (α × Nat)) : TokenReader α := do
  match read (← get) with
  | some (a, n) =>
    modify (List.drop n)
    return a
  | none => stuck

mutual

/-- Commands up to one of some keywords or marks. -/
def commands (fuel : Nat) (keywords marks : List String) : TokenReader (List Command) :=
  match fuel with
  | 0 => stuck
  | fuel + 1 => do
    skipLines
    if (← get).isEmpty || (← sees (atKeyword keywords)) || (← sees (atMark marks)) then return []
    let command ← chain fuel
    if ← skip (atMark [";", "&", "\n"]) then
      return command :: (← commands fuel keywords marks)
    else if (← get).isEmpty || (← sees (atMark marks)) then return [command]
    else stuck

/-- Commands that are not empty, up to a keyword. -/
def block (fuel : Nat) (keywords : List String) : TokenReader Command :=
  match fuel with
  | 0 => stuck
  | fuel + 1 => do
    let commands ← commands fuel keywords []
    if commands.isEmpty || (← get).isEmpty then stuck
    return .sequence commands

/-- Pipelines joined by `&&` and `||`. -/
def chain (fuel : Nat) : TokenReader Command :=
  match fuel with
  | 0 => stuck
  | fuel + 1 => do links fuel (← pipeline fuel)

def links (fuel : Nat) (first : Command) : TokenReader Command :=
  match fuel with
  | 0 => stuck
  | fuel + 1 => do
    if ← skip (atMark ["&&"]) then
      skipLines
      links fuel (.andThen first (← pipeline fuel))
    else if ← skip (atMark ["||"]) then
      skipLines
      links fuel (.orElse first (← pipeline fuel))
    else return first

def pipeline (fuel : Nat) : TokenReader Command :=
  match fuel with
  | 0 => stuck
  | fuel + 1 => do
    let negated ← skip (atKeyword ["!"])
    match ← stages fuel, negated with
    | [stage], false => return stage
    | stages, negated => return .pipeline negated stages

def stages (fuel : Nat) : TokenReader (List Command) :=
  match fuel with
  | 0 => stuck
  | fuel + 1 => do
    let stage ← command fuel
    if ← skip (atMark ["|"]) then
      skipLines
      return stage :: (← stages fuel)
    else return [stage]

/-- The rest of a choice behind `if` or `elif`. -/
def choice (fuel : Nat) : TokenReader Command :=
  match fuel with
  | 0 => stuck
  | fuel + 1 => do
    let condition ← block fuel ["then"]
    expect "then"
    let body ← block fuel ["elif", "else", "fi"]
    if ← skip (atKeyword ["elif"]) then return .choose condition body (← choice fuel)
    else if ← skip (atKeyword ["else"]) then
      let otherwise ← block fuel ["fi"]
      expect "fi"
      return .choose condition body otherwise
    else
      expect "fi"
      return .choose condition body (.sequence [])

def loopBody (fuel : Nat) : TokenReader Command :=
  match fuel with
  | 0 => stuck
  | fuel + 1 => do
    expect "do"
    let body ← block fuel ["done"]
    expect "done"
    return body

/-- The branches of a selection, up to `esac`. -/
def branches (fuel : Nat) : TokenReader (List (List Word × Command)) :=
  match fuel with
  | 0 => stuck
  | fuel + 1 => do
    skipLines
    if ← skip (atKeyword ["esac"]) then return []
    let _ ← skip (atMark ["("])
    let words ← taking patterns
    let body ← commands fuel ["esac"] [";;"]
    let _ ← skip (atMark [";;"])
    return (words, .sequence body) :: (← branches fuel)

/-- A loop through words or through the arguments, or one that counts. -/
def range (fuel : Nat) : TokenReader Command :=
  match fuel with
  | 0 => stuck
  | fuel + 1 => do
    if let .expression text line :: ts ← get then
      set ts
      let _ ← skip (atMark [";"])
      skipLines
      return countingLoop line text (← loopBody fuel)
    let name ← anyWord
    skipLines
    let words ←
      if ← skip (atKeyword ["in"]) then
        let (words, _) ← simple
        pure (some words)
      else pure none
    let _ ← skip (atMark [";"])
    skipLines
    return .each (literalOf name).1 words (← loopBody fuel)

def compound (fuel : Nat) (line : Nat) (keyword : String) : TokenReader Command :=
  match fuel with
  | 0 => stuck
  | fuel + 1 => do
    modify List.tail
    match keyword with
    | "if" => choice fuel
    | "while" | "until" =>
      let condition ← block fuel ["do"]
      return .loop (keyword == "while") condition (← loopBody fuel) (.sequence [])
    | "for" => range fuel
    | "case" =>
      let subject ← anyWord
      skipLines
      expect "in"
      return .select subject (← branches fuel)
    | "[[" => return .test line (← taking testWords)
    | "function" =>
      let name ← anyWord
      if ← skip (atMark ["("]) then
        let _ ← skip (atMark [")"])
      skipLines
      return .define (literalOf name).1 (← command fuel)
    | _ =>
      let body ← block fuel ["\x7d"]
      expect "\x7d"
      return body

def command (fuel : Nat) : TokenReader Command :=
  match fuel with
  | 0 => stuck
  | fuel + 1 => do
    match ← get with
    | .word name _ :: .mark "(" _ :: .mark ")" _ :: ts =>
      set ts
      skipLines
      return .define (literalOf name).1 (← command fuel)
    | .mark "(" _ :: ts =>
      set ts
      let body ← commands fuel [] [")"]
      if body.isEmpty then stuck
      if !(← skip (atMark [")"])) then stuck
      withRedirections (.apart (.sequence body))
    | .expression text line :: ts =>
      set ts
      withRedirections (.evaluate line text)
    | .word word line :: _ =>
      let keyword := String.ofList ((bare? word).getD [])
      if closers.contains keyword then stuck
      else if openers.contains keyword then
        withRedirections (← compound fuel line keyword)
      else
        let (words, redirections) ← simple
        return .simple line words redirections
    | .redirection _ :: _ =>
      let (words, redirections) ← simple
      return .simple 0 words redirections
    | _ => stuck

end

def line (fuel : Nat) : TokenReader (List Command) :=
  match fuel with
  | 0 => stuck
  | fuel + 1 => do
    let command ← chain (16 * fuel + 16)
    if ← skip (atMark [";", "&"]) then
      if (← get).isEmpty || (← sees (atMark ["\n"])) then return [command]
      return command :: (← line fuel)
    else if (← get).isEmpty || (← sees (atMark ["\n"])) then return [command]
    else stuck

end TokenReader

/-- The commands of each line of a script, up to a problem if there is one. -/
def readLines (fuel : Nat) (ts : List Token) : List (List Command) × Option Problem :=
  match fuel with
  | 0 => ([], none)
  | fuel + 1 =>
    match ts with
    | [] => ([], none)
    | .mark "\n" _ :: ts => readLines fuel ts
    | ts =>
      match (TokenReader.line (ts.length + 1)).run ts with
      | .ok (commands, rest) =>
        let (more, problem) := readLines fuel rest
        (commands :: more, problem)
      | .error problem => ([], some problem)

/-- Reads a script; its last line need not be closed. -/
def parse (script : List Mark) : List (List Command) × Option Problem :=
  let script := match script.getLast? with
    | some ⟨'\n', _⟩ | none => script
    | some c => script ++ [⟨'\n', c.line⟩]
  let ts := tokens (script.length + 1) script
  readLines (ts.length + 1) ts

end PhoenixLens.Shell
