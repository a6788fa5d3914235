import PhoenixLens.Exact.Shell.Editing
import PhoenixLens.Exact.Shell.Filters
import PhoenixLens.Exact.Shell.State

/-!
# Conditions and commands

Conditions on texts, numbers and files, and how they are joined.

The commands that need no other command to be carried out.
-/

namespace PhoenixLens.Shell

namespace State

def holdsOf (state : State) (operator : String) (cs : List Char) : Option Bool :=
  let found := if cs.isEmpty then none else state.disk.find? (state.path cs)
  let isFile := match found with
    | some (.file _ _) => true
    | _ => cs == "/dev/null".toList && operator != "-f" && operator != "-s"
  match operator with
  | "-n" => some !cs.isEmpty
  | "-z" => some cs.isEmpty
  | "-e" | "-r" | "-w" => some (isFile || found.isSome)
  | "-f" => some isFile
  | "-d" => some (found == some .directory)
  | "-x" => some (found == some .directory)
  | "-s" =>
    some (match found with
      | some (.file text _) => !text.isEmpty
      | some .directory => true
      | none => false)
  | "-L" | "-h" | "-t" | "-p" | "-S" => some false
  | "-v" => some (state.isSet (String.ofList cs))
  | _ => none

/-- A condition on two texts; numbers have to be numbers. -/
def comparison? (operator : String) (a b : List Char) : Option (Except (List Char) Bool) :=
  let numbers := fun (compare : Int → Int → Bool) =>
    match integer? (Text.trim a), integer? (Text.trim b) with
    | some m, some n => some (.ok (compare m n))
    | none, _ => some (.error a)
    | _, none => some (.error b)
  match operator with
  | "=" | "==" => some (.ok (a == b))
  | "!=" => some (.ok (a != b))
  | "<" => some (.ok (a < b))
  | ">" => some (.ok (b < a))
  | "-eq" => numbers (· == ·)
  | "-ne" => numbers (· != ·)
  | "-lt" => numbers (· < ·)
  | "-le" => numbers (· ≤ ·)
  | "-gt" => numbers (fun m n => n < m)
  | "-ge" => numbers (fun m n => n ≤ m)
  | _ => none

/-- Whether a condition holds, or what is wrong with it. -/
def test (state : State) (fuel : Nat) (texts : List (List Char)) : Except String Bool :=
  match fuel with
  | 0 => .error "too many arguments"
  | fuel + 1 =>
    let string := fun (cs : List Char) => String.ofList cs
    let split := fun (operator : String) =>
      let before := texts.takeWhile (· != operator.toList)
      if before.isEmpty || texts.length ≤ before.length + 1 then none
      else some (before, texts.drop (before.length + 1))
    match texts with
    | [] => .ok false
    | [a] => .ok !a.isEmpty
    | [a, b] =>
      if a == ['!'] then .ok b.isEmpty
      else
        match state.holdsOf (string a) b with
        | some holds => .ok holds
        | none => .error (string a ++ ": unary operator expected")
    | texts =>
      match texts with
      | [a, operator, b] =>
        match comparison? (string operator) a b with
        | some (.ok holds) => .ok holds
        | some (.error text) => .error (string text ++ ": integer expression expected")
        | none => more fuel texts split
      | texts => more fuel texts split
where
  /-- A condition of several parts. -/
  more (fuel : Nat) (texts : List (List Char))
      (split : String → Option (List (List Char) × List (List Char))) : Except String Bool :=
    match split "-o" with
    | some (left, right) => do return (← state.test fuel left) || (← state.test fuel right)
    | none =>
      match split "-a" with
      | some (left, right) => do return (← state.test fuel left) && (← state.test fuel right)
      | none =>
        match texts with
        | ['!'] :: rest => do return !(← state.test fuel rest)
        | ['('] :: rest =>
          if rest.getLast? == some [')'] then state.test fuel rest.dropLast
          else .error "too many arguments"
        | [_, operator, _] => .error (String.ofList operator ++ ": binary operator expected")
        | _ => .error "too many arguments"

end State

/-! ### Commands -/

/-- The milliseconds in a number of seconds, which may have a fraction and a unit. -/
def millisecondsOf (text : List Char) : Option Nat := do
  let unit := match text.getLast? with
    | some 'm' => 60
    | some 'h' => 3600
    | _ => 1
  let seconds := if ['s', 'm', 'h'].contains (text.getLast?.getD ' ') then text.dropLast else text
  let whole := seconds.takeWhile (· != '.')
  let digits := (seconds.drop whole.length).drop 1
  if text == "infinity".toList then return UInt64.size
  if !(whole ++ digits).all Text.isAsciiDigit || (whole ++ digits).isEmpty then failure
  let n ← (String.ofList (whole ++ (digits ++ "000".toList).take 3)).toNat?
  return n * unit

/-- The name and the value that a text assigns, and whether the value is put behind the old one. -/
def assignment? (cs : List Char) : Option (String × Bool × List Char) := do
  let name := cs.takeWhile Text.isAsciiWord
  if name.isEmpty || name.head?.any Text.isAsciiDigit then failure
  match cs.drop name.length with
  | '=' :: value => some (String.ofList name, false, value)
  | '+' :: '=' :: value => some (String.ofList name, true, value)
  | _ => none

/-- The commands that a shell finds. -/
def knownCommands : List String :=
  [":", "true", "false", "echo", "printf", "cat", "read", "exit", "return", "break", "continue",
    "set", "shift", "export", "readonly", "declare", "typeset", "local", "unset", "test", "[",
    "sleep", "kill", "wait", "cd", "trap", "tr", "head", "tail", "wc", "cut", "sort", "uniq", "rev",
    "tac", "seq", "basename", "dirname", "grep", "sed", "tee", "rm", "mkdir", "touch", "let",
    "type", "command", "which", "eval", "exec", "source", ".", "bash", "sh", "env", "pwd", "expr",
    "xargs"]

namespace State

/-- Reads a line into variables. What separates values is in `IFS`, blanks unless it is set. -/
def readLine (state : State) (arguments : List (List Char)) : State :=
  let (options, names) := optionsOf "dnptu" arguments
  let separators := (state.bindings.lookup "IFS").getD " \t\n".toList
  let (line, rest, isClosed) := takeLine (hasOption options 'r') state.input
  let isBlank := fun (c : Char) => separators.contains c && " \t\n".toList.contains c
  let trimmed := Text.dropEndWhile isBlank (line.dropWhile isBlank)
  let state := { state with input := rest }.finish (if isClosed then 0 else 1)
  match names with
  | [] => state.assign "REPLY" line
  | names => assignAll separators state trimmed names
where
  takeLine (raw : Bool) : List Char → List Char × List Char × Bool
    | [] => ([], [], false)
    | '\n' :: cs => ([], cs, true)
    | ['\\'] => (if raw then ['\\'] else [], [], false)
    | '\\' :: c :: cs =>
      let (line, rest, isClosed) := takeLine raw cs
      (if raw then '\\' :: c :: line else if c == '\n' then line else c :: line, rest, isClosed)
    | c :: cs =>
      let (line, rest, isClosed) := takeLine raw cs
      (c :: line, rest, isClosed)
  assignAll (separators : List Char) (state : State) (text : List Char) :
      List (List Char) → State
    | [] => state
    | [name] => state.assign (String.ofList name) text
    | name :: names =>
      let word := text.takeWhile fun c => !separators.contains c
      let rest := (text.drop word.length).dropWhile fun c =>
        separators.contains c && " \t\n".toList.contains c
      let rest := if rest.head?.any separators.contains then rest.tail else rest
      assignAll separators (state.assign (String.ofList name) word) rest names

/-- Changes the arguments or the ways of the shell: behind `-` a way begins, behind `+` it ends. -/
def setUp (state : State) (fuel : Nat) (arguments : List (List Char)) : State :=
  match fuel, arguments with
  | 0, _ | _, [] => state.finish 0
  | fuel + 1, argument :: rest =>
    let sign := argument.headD ' '
    let letters := argument.tail
    if argument == "--".toList then { state with arguments := rest }.finish 0
    else if sign != '-' && sign != '+' then { state with arguments := argument :: rest }.finish 0
    else
      let isNamed := letters.getLast? == some 'o'
      let name := if isNamed then String.ofList (rest.headD []) else ""
      let isOn := sign == '-'
      let state :=
        if name == "errexit" || letters.contains 'e' then { state with exitsOnFailure := isOn }
        else state
      let state :=
        if name == "nounset" || letters.contains 'u' then { state with refusesUnset := isOn }
        else state
      let state := if name == "pipefail" then { state with joinsFailures := isOn } else state
      state.setUp fuel (if isNamed then rest.tail else rest)

/-- Sets variables by assignments. -/
def declare (state : State) (isLocal : Bool) (arguments : List (List Char)) : State :=
  (arguments.filter fun a => a.head? != some '-').foldl (fun state argument =>
    let name := String.ofList (argument.takeWhile Text.isAsciiWord)
    let state :=
      if isLocal then { state with locals := (name, state.bindings.lookup name) :: state.locals }
      else state
    match assignment? argument with
    | some (name, appends, value) =>
      state.assign name (if appends then state.bindings.value name ++ value else value)
    | none => if isLocal then state.assign name [] else state) (state.finish 0)

/-- Sends a signal; only one to the script itself counts. -/
def kill (state : State) (arguments : List (List Char)) : State :=
  let isSelf := arguments.contains ['$']
  let isCheck := arguments.contains ['-', '0']
  if isSelf && !isCheck then { state with flow := .killed }
  else state.finish (if isSelf then 0 else 1)

def codeOf (state : State) (arguments : List (List Char)) : Nat :=
  match arguments.head? with
  | none => state.code
  | some text => ((integer? (Text.trim text)).getD 2).emod 256 |>.toNat

/-- Ends the script or a function with the code that an argument names. -/
def leaveWith (state : State) (name : String) (arguments : List (List Char)) (flow : Flow) :
    State :=
  match arguments with
  | text :: more =>
    if (integer? (Text.trim text)).isNone then
      { state.complain (name.toList ++ ": ".toList ++ text ++
          ": numeric argument required".toList) 2 with flow }
    else if more.isEmpty then { state.finish (state.codeOf arguments) with flow }
    else
      { state.complain (name.toList ++ ": too many arguments".toList) 1 with flow := .discarded }
  | [] => { state with flow }

/-- Carries out a command that only makes a text of its input. -/
def filter (state : State) (program : String) (files : List (List Char))
    (make : List Char → Outcome) : State :=
  let (state, texts) := state.inputs program files
  let code := state.code
  let state := state.conclude (make (texts.map (·.2)).flatten)
  if files.isEmpty || code == 0 then state else state.finish code

def perform (state : State) (name : String) (arguments : List (List Char)) : State :=
  let textOnly := fun (make : List Char → List Char) (text : List Char) =>
    ({ output := make text } : Outcome)
  let (options, rest) := optionsOf (match name with
    | "head" | "tail" => "nc"
    | "cut" => "dfcb"
    | "sort" => "kt"
    | "sed" | "grep" => "ef"
    | _ => "") arguments
  let succeed := state.finish 0
  match name with
  | ":" | "true" | "wait" => succeed
  | "false" => state.finish 1
  | "echo" => (succeed.write (echo arguments))
  | "printf" =>
    let (target, arguments) := match arguments with
      | ['-', 'v'] :: name :: rest => (some (String.ofList name), rest)
      | ['-', '-'] :: rest => (none, rest)
      | rest => (none, rest)
    let (text, wrong) := fillAll (arguments.headD []) (arguments.length + 1) arguments.tail
    let state := wrong.foldl (fun state text =>
      state.complain ("printf: ".toList ++ text ++ ": invalid number".toList) 1) succeed
    match target with
    | some name => state.assign name text
    | none => state.write text
  | "cat" => state.filter name rest (textOnly id)
  | "read" => state.readLine arguments
  | "exit" => state.leaveWith name arguments .exited
  | "return" =>
    if state.calls == 0 then
      state.complain "return: can only \x60return' from a function or sourced script".toList 2
    else state.leaveWith name arguments .returned
  | "break" | "continue" =>
    let count := min state.loops (max 1 (state.codeOf (arguments ++ [['1']])))
    if state.loops == 0 then
      state.complain (name.toList ++
        ": only meaningful in a \x60for', \x60while', or \x60until' loop".toList) 0
    else { succeed with flow := if name == "break" then .broken count else .continued count }
  | "set" => state.setUp (arguments.length + 1) arguments
  | "shift" =>
    let n := (((arguments.head?).bind integer?).getD 1).toNat
    if n ≤ state.arguments.length then { succeed with arguments := state.arguments.drop n }
    else state.finish 1
  | "export" | "readonly" | "declare" | "typeset" => state.declare false arguments
  | "local" => state.declare true arguments
  | "unset" => arguments.foldl (fun state name => state.restore (String.ofList name) none) succeed
  | "test" | "[" =>
    if name == "[" && arguments.getLast? != some [']'] then
      state.complain "[: missing \x60]'".toList 2
    else
      let texts := if name == "[" then arguments.dropLast else arguments
      match state.test (texts.length + 1) texts with
      | .ok holds => state.finish (if holds then 0 else 1)
      | .error reason => state.complain (name.toList ++ ": ".toList ++ reason.toList) 2
  | "sleep" =>
    match arguments.mapM millisecondsOf with
    | some (n :: more) =>
      { succeed with milliseconds := state.milliseconds + more.foldl (· + ·) n }
    | _ => state.finish 1
  | "kill" => state.kill arguments
  | "cd" => { succeed with directory := byteText (state.path (arguments.headD ['/'])).text }
  | "pwd" => succeed.write (state.directory ++ ['\n'])
  | "trap" =>
    if arguments.tail.any fun signal => signal == "EXIT".toList || signal == ['0'] then
      { succeed with epilogue := if arguments.head? == some ['-'] then [] else arguments.headD [] }
    else succeed
  | "tr" => { state with input := [] }.conclude (translate arguments state.input)
  | "head" | "tail" =>
    let options := options.map fun (c, value) =>
      if Text.isAsciiDigit c then
        ('n', c :: (options.filter fun o => Text.isAsciiDigit o.1).tail.map (·.1)) else (c, value)
    let part := if name == "head" then firstPart else lastPart
    let after := state.filter name rest (textOnly (part options))
    -- A number of bytes is all that is read of the input.
    if name == "head" && rest.isEmpty && hasOption options 'c' then
      { after with input := state.input.drop (firstPart options state.input).length }
    else after
  | "wc" =>
    let (state, texts) := state.inputs name rest
    let code := state.code
    (state.write (countAll options texts)).finish (if rest.isEmpty then 0 else code)
  | "cut" => state.filter name rest (textOnly (cut options))
  | "sort" => state.filter name rest (textOnly (sortLines options))
  | "uniq" => state.filter name rest (textOnly (mergeRepeats options))
  | "rev" => state.filter name rest (textOnly fun text => unlines ((linesOf text).map List.reverse))
  | "tac" => state.filter name rest (textOnly fun text => unlines (linesOf text).reverse)
  | "seq" => state.conclude (countUp arguments)
  | "basename" => succeed.write (baseName (rest.headD []) (rest.tail.headD []) ++ ['\n'])
  | "dirname" => succeed.write (directoryName (rest.headD []) ++ ['\n'])
  | "grep" =>
    let (pattern, files) := match options.lookup 'e' with
      | some pattern => (pattern, rest)
      | none => (rest.headD [], rest.tail)
    let (state, texts) := state.inputs name files
    let code := if files.isEmpty then 0 else state.code
    let state := state.conclude (findLines options pattern texts)
    if code == 0 then state else state.finish 2
  | "sed" =>
    let (script, files) := match options.lookup 'e' with
      | some _ =>
        (Text.join ['\n'] ((options.filter (·.1 == 'e')).map (·.2)), rest)
      | none => (rest.headD [], rest.tail)
    state.filter name files (edit options script)
  | "tee" =>
    let text := state.input
    rest.foldl (fun state file =>
      if hasOption options 'a' then state.appendFile file text else state.writeFile file text)
      ({ succeed with input := [] }.write text)
  | "rm" =>
    rest.foldl (fun state file =>
      if state.disk.isFile (state.path file) then
        { state with disk := state.disk.removeFile (state.path file) }
      else if hasOption options 'f' then state
      else (state.writeMessage ("rm: cannot remove '".toList ++ file ++
        "': No such file or directory\n".toList)).finish 1) succeed
  | "mkdir" =>
    rest.foldl (fun state file =>
      { state with disk := state.disk.makeDirectory (state.path file) }) succeed
  | "touch" => rest.foldl (fun state file => state.appendFile file []) succeed
  | "let" =>
    arguments.foldl (fun state text =>
      match calculate state.bindings text with
      | some (n, bindings) => { state with bindings }.finish (if n == 0 then 1 else 0)
      | none => state.finish 1) succeed
  | "expr" =>
    match calculate state.bindings (Text.join [' '] arguments) with
    | some (n, _) => (state.write (digitsOf n ++ ['\n'])).finish (if n == 0 then 1 else 0)
    | none => state.finish 2
  | "type" | "which" =>
    let known := rest.all fun name =>
      knownCommands.contains (String.ofList name) || (state.functions.lookup name).isSome
    state.finish (if known then 0 else 1)
  | _ =>
    if name.toList.contains '/' then
      match state.disk.find? (state.path name.toList) with
      | some .directory => state.complain (name.toList ++ ": Is a directory".toList) 126
      | some (.file _ _) => state.complain (name.toList ++ ": Permission denied".toList) 126
      | none => state.complain (name.toList ++ ": No such file or directory".toList) 127
    else state.complain (name.toList ++ ": command not found".toList) 127

end State

end PhoenixLens.Shell
