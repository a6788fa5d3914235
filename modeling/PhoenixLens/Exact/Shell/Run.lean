import PhoenixLens.Exact.Shell.Grammar
import PhoenixLens.Exact.Shell.Pieces
import PhoenixLens.Exact.Shell.State

/-!
# Running scripts

Words are expanded and commands carried out. Every step takes fuel, so that a script that goes on
without end is stuck.
-/

namespace PhoenixLens.Shell

/-- The shell that a script of its own leaves behind: what it has done to the outside remains. -/
def State.leave (outer inner : State) : State :=
  { outer with
    input := inner.input, disk := inner.disk, code := inner.code, steps := inner.steps
    milliseconds := inner.milliseconds
    flow := if inner.flow == .killed || inner.flow == .stuck then inner.flow else .next }

/-- The line of a syntax problem and what is wrong. -/
def State.report (state : State) (script : List Mark) (problem : Problem) : State :=
  let lastLine := (script.getLast?.map (·.line)).getD 1
  match problem with
  | .unexpected token line =>
    let text := textOf (script.filter fun c => c.line == line && c.char != '\n')
    let state := { state with line }.complain
      ("syntax error near unexpected token \x60".toList ++ token ++ ['\'']) 2
    state.complain ('\x60' :: text ++ ['\'']) 2
  | .unclosed quote line =>
    { state with line }.complain
      ("unexpected EOF while looking for matching \x60".toList ++ [quote, '\'']) 2
  | .ended =>
    { state with line := lastLine + 1 }.complain "syntax error: unexpected end of file".toList 2

/-- The loop ends; outer loops may end with it. -/
def endLoop (state : State) : State :=
  match state.flow with
  | .broken 1 => { state.finish 0 with flow := .next }
  | .broken n => { state with flow := .broken (n - 1) }
  | .continued n => { state with flow := .continued (n - 1) }
  | _ => state

mutual

/-- Expands a part of a word; the flag says that it counts as a word even if it is empty. -/
def expandPart (fuel : Nat) (state : State) (part : Part) : State × Pieces × Bool :=
  match fuel, part with
  | 0, _ => ({ state with flow := .stuck }, [], false)
  | _, .literal text quoted =>
    (state, pieces (if quoted then .quoted else .written) text, quoted || !text.isEmpty)
  | fuel + 1, .parameter text quoted => expandParameter fuel state text quoted
  | fuel + 1, .output script quoted =>
    let channels := { state.channels with output := .standard }
    let inner := runScript fuel
      { state with written := [], channels, exitsOnFailure := false } script
    let text := inner.collected false
    let state := (state.leave inner).writeMessage (inner.collected true)
    let state := if !text.contains '\x00' then state else
      state.complain "warning: command substitution: ignored null byte in input".toList state.code
    let text := Text.dropEndWhile (· == '\n') (text.filter (· != '\x00'))
    ({ state with outputCode := some inner.code },
      pieces (if quoted then .quoted else .expanded) text, quoted)
  | fuel + 1, .number text quoted =>
    let (state, ps, _) := expandWord fuel state (wordOf .document text)
    match calculate state.bindings ps.text with
    | some (n, bindings) =>
      ({ state with bindings }, pieces (if quoted then .quoted else .expanded) (digitsOf n), true)
    | none => ({ state.complain (misreckoned ps.text) 1 with flow := .discarded }, [], quoted)

/-- Expands a parameter, perhaps with what changes its value. -/
def expandParameter (fuel : Nat) (state : State) (text : List Mark) (quoted : Bool) :
    State × Pieces × Bool :=
  match fuel with
  | 0 => ({ state with flow := .stuck }, [], false)
  | fuel + 1 =>
    let origin := if quoted then Origin.quoted else .expanded
    let isLength := text.length > 1 && text.head?.any (·.char == '#')
    let isIndirect := text.length > 1 && text.head?.any (·.char == '!')
    let text := if isLength || isIndirect then text.tail else text
    let mark := parameterName text
    let rest := text.drop mark.length
    let name := String.ofList (textOf mark)
    let name := if isIndirect then String.ofList (state.value name) else name
    let value := state.value name
    let done := fun (value : List Char) => (state, pieces origin value, quoted)
    let argument := fun (n : Nat) => expandWord fuel state (wordOf .braces (rest.drop n))
    let changed := fun (n : Nat) (change : List PatternItem → List Char) =>
      let (state, ps, _) := argument n
      (state, pieces origin (change ps.pattern), quoted)
    let isReplaced := ["-", "=", "+", "?"].any fun mark =>
      Text.startsWith mark (textOf rest) || Text.startsWith (":" ++ mark) (textOf rest)
    let isList := name == "@" || name == "*"
    if state.refusesUnset && !isReplaced && !isList && !state.isSet name then
      ({ state.complain (name.toList ++ ": unbound variable".toList) 1 with flow := .exited }, [],
        false)
    else if isLength then
      done (toString (if isList then state.arguments.length else value.length)).toList
    else if rest.isEmpty then
      if name == "@" && quoted then
        (state, List.intercalate [none] (state.arguments.map (pieces .quoted)),
          !state.arguments.isEmpty)
      else done value
    else
      let colon := rest.head?.any (·.char == ':')
      let operator := (rest.map (·.char))[if colon then 1 else 0]?
      let start := if colon then 2 else 1
      let isMissing := !state.isSet name || (colon && value.isEmpty)
      match operator with
      | some '-' => if isMissing then argument start else done value
      | some '=' =>
        if isMissing then
          let (state, ps, present) := argument start
          (state.assign name ps.text, ps, present)
        else done value
      | some '+' => if isMissing then (state, [], quoted) else argument start
      | some '?' =>
        if isMissing then
          let (state, ps, _) := argument start
          let reason := if ps.isEmpty then "parameter null or not set".toList else ps.text
          ({ state.complain (name.toList ++ ": ".toList ++ reason) 1 with flow := .exited }, [],
            false)
        else done value
      | some c =>
        let twice := (rest.map (·.char))[1]? == some c
        if colon then
          let (state, ps, _) := expandWord fuel state (wordOf .braces rest.tail)
          let (start, length) := ps.text.span (· != ':')
          let number := fun (cs : List Char) => ((calculate state.bindings cs).map (·.1)).getD 0
          let first := number start
          let count := if length.isEmpty then none else some (number length.tail)
          if isList then
            let kept := cutPart first count (state.script :: state.arguments)
            (state, List.intercalate [none] (kept.map (pieces origin)), quoted && !kept.isEmpty)
          else (state, pieces origin (cutPart first count value), quoted)
        else if c == '%' then
          changed (if twice then 2 else 1) fun items => cutEnding twice items value
        else if c == '#' then
          changed (if twice then 2 else 1) fun items => cutBeginning twice items value
        else if c == '/' then
          let body := rest.drop (if twice then 2 else 1)
          let pattern := takeUnquoted '/' none body
          let (state, ps, _) := expandWord fuel state (wordOf .braces pattern)
          let (state, text, _) :=
            expandWord fuel state (wordOf .braces (body.drop (pattern.length + 1)))
          (state, pieces origin (replacePattern twice ps.pattern text.text 0 value), quoted)
        else if c == '^' then
          done (if twice then Text.asciiUppercase value
            else Text.asciiUppercase (value.take 1) ++ value.tail)
        else if c == ',' then
          done (if twice then Text.asciiLowercase value
            else Text.asciiLowercase (value.take 1) ++ value.tail)
        else done value
      | none => done value

def expandWord (fuel : Nat) (state : State) (word : Word) : State × Pieces × Bool :=
  match fuel, word with
  | 0, _ => ({ state with flow := .stuck }, [], false)
  | _, [] => (state, [], false)
  | fuel + 1, part :: parts =>
    let (state, ps, present) := expandPart fuel state part
    let (state, rest, others) := expandWord fuel state parts
    (state, ps ++ rest, present || others)

def expandWords (fuel : Nat) (state : State) (words : List Word) : State × List (List Char) :=
  match fuel, words with
  | 0, _ => ({ state with flow := .stuck }, [])
  | _, [] => (state, [])
  | fuel + 1, word :: words =>
    let (state, texts) :=
      match (bare? word).bind countedWords with
      | some texts => (state, texts)
      | none =>
        let (state, ps, present) := expandWord fuel state word
        let separators := (state.bindings.lookup "IFS").getD " \t\n".toList
        let fields := Pieces.fields separators (if present then some [] else none) ps
        -- What is cut off at the beginning leaves no empty text behind.
        let fields := if present && ps.head?.any (·.any (·.2 == .expanded)) &&
          fields.head?.any List.isEmpty && fields.length > 1 then fields.tail else fields
        (state, fields.flatMap (pathsOf state))
    let (state, rest) := expandWords fuel state words
    (state, texts ++ rest)

/-- Carries out assignments; the variables get back their old values later. -/
def assignAll (fuel : Nat) (state : State) (words : List (String × Bool × Word)) : State :=
  match fuel, words with
  | 0, _ => { state with flow := .stuck }
  | _, [] => state
  | fuel + 1, (name, appends, word) :: words =>
    let (state, ps, _) := expandWord fuel state word
    let value := if appends then state.value name ++ ps.text else ps.text
    assignAll fuel (state.assign name value) words

/-- The channels that redirections lead to; `none` if one of them fails. -/
def openAll (fuel : Nat) (state : State) (channels : Channels) (redirections : List Redirection) :
    State × Option Channels :=
  match fuel, redirections with
  | 0, _ => ({ state with flow := .stuck }, none)
  | _, [] => (state, some channels)
  | fuel + 1, r :: redirections =>
    let (state, ps, _) := expandWord fuel state r.word
    let text := ps.text
    let fail := fun (reason : String) =>
      (channels.around state fun state =>
        state.complain (text ++ ": ".toList ++ reason.toList) 1, (none : Option Channels))
    match r.opening with
    | .text => openAll fuel state { channels with input := some text } redirections
    | .read =>
      if text == "/dev/stdin".toList then openAll fuel state channels redirections
      else
        match state.readFile text with
        | .ok content => openAll fuel state { channels with input := some content } redirections
        | .error reason => fail reason
    | .duplicate =>
      if r.channels == [0] then openAll fuel state channels redirections
      else if text == ['-'] then
        openAll fuel state (r.channels.foldl (·.set .nowhere) channels) redirections
      else if text == ['1'] || text == ['2'] then
        let target := channels.target (if text == ['1'] then 1 else 2)
        openAll fuel state (r.channels.foldl (·.set target) channels) redirections
      else
        match openFile state text false with
        | .ok (state, target) =>
          openAll fuel state ([1, 2].foldl (·.set target) channels) redirections
        | .error reason => fail reason
    | .write | .append =>
      match openFile state text (r.opening == .append) with
      | .ok (state, target) =>
        openAll fuel state (r.channels.foldl (·.set target) channels) redirections
      | .error reason => fail reason

def call (fuel : Nat) (state : State) (name : List Char) (arguments : List (List Char)) : State :=
  match fuel with
  | 0 => { state with flow := .stuck }
  | fuel + 1 =>
    match state.functions.lookup name with
    | some body =>
      let inner := runCommand fuel false
        { state with arguments, locals := [], calls := state.calls + 1, loops := 0 } body
      let inner := inner.locals.foldl (fun state (name, value) => state.restore name value) inner
      { inner with
        arguments := state.arguments, locals := state.locals
        calls := state.calls, loops := state.loops
        flow := if inner.flow == .returned then .next else inner.flow }
    | none =>
      match String.ofList name with
      | "eval" => runScript fuel state (marksFrom state.line (Text.join [' '] arguments))
      | "source" | "." =>
        match state.readFile (arguments.headD []) with
        | .ok text =>
          let inner := runScript fuel { state with calls := state.calls + 1 } (marksFrom 1 text)
          { inner with
            calls := state.calls
            flow := if inner.flow == .returned then .next else inner.flow }
        | .error reason => state.complain (arguments.headD [] ++ ": ".toList ++ reason.toList) 1
      | "exec" =>
        match arguments with
        | [] => state.finish 0
        | name :: arguments =>
          let isKnown := (name.contains '/') || knownCommands.contains (String.ofList name)
          let state :=
            if isKnown then call fuel { state with functions := [] } name arguments
            else state.complain ("exec: ".toList ++ name ++ ": not found".toList) 127
          if state.flow == .next then { state with flow := .exited } else state
      | "command" | "builtin" | "env" =>
        match arguments with
        | ['-', 'v'] :: name :: _ =>
          let isFunction := (state.functions.lookup name).isSome
          if isFunction || knownCommands.contains (String.ofList name) then
            (state.write (name ++ ['\n'])).finish 0
          else state.finish 1
        | name :: arguments => call fuel state name arguments
        | [] => state.finish 0
      | "bash" | "sh" =>
        let (script, zero, arguments) := match arguments with
          | ['-', 'c'] :: script :: rest => (Except.ok script, rest.headD state.script, rest.tail)
          | path :: rest => (state.readFile path, path, rest)
          | [] => (.ok state.input, state.script, [])
        match script with
        | .ok text =>
          let inner := runScript fuel { state with arguments, script := zero, flow := .next }
            (marksFrom 1 text)
          { state.leave inner with written := inner.written }
        | .error reason =>
          let message := "bash: ".toList ++ zero ++ (": " ++ reason ++ "\n").toList
          (state.writeMessage message).finish 127
      | "xargs" =>
        let words := (state.input.splitBy fun a b =>
          " \t\n".toList.contains a == " \t\n".toList.contains b).filter fun run =>
            !run.head?.any " \t\n".toList.contains
        let (name, arguments) := match arguments with
          | name :: rest => (name, rest)
          | [] => ("echo".toList, [])
        call fuel { state with input := [] } name (arguments ++ words)
      | text =>
        let plain := ["/bin/", "/usr/bin/"].findSome? fun directory =>
          (Text.stripPrefix? directory name).filter fun rest =>
            knownCommands.contains (String.ofList rest)
        match plain with
        | some name => call fuel state name arguments
        | none => state.perform text arguments

def runSimple (fuel : Nat) (state : State) (words : List Word) (redirections : List Redirection) :
    State :=
  match fuel with
  | 0 => { state with flow := .stuck }
  | fuel + 1 =>
    let assigned := (words.map assigned?).takeWhile (·.isSome) |>.filterMap id
    let (state, texts) :=
      expandWords fuel { state with outputCode := none } (words.drop assigned.length)
    if state.flow != .next then state
    else
      match openAll fuel state state.channels redirections with
      | (state, none) => state
      | (state, some channels) =>
        match texts with
        | [['e', 'x', 'e', 'c']] =>
          { state.finish 0 with
            channels := { channels with input := none }, input := channels.input.getD state.input }
        | [] =>
          let state := assignAll fuel state assigned
          if state.flow != .next then state else
          let onlyReads := words.isEmpty && redirections.any (·.opening == .read)
          channels.around state fun state =>
            (if onlyReads then state.write state.input else state).finish (state.outputCode.getD 0)
        | name :: arguments =>
          let before := assigned.map fun (name, _, _) => (name, state.bindings.lookup name)
          let state := channels.around state fun state =>
            call fuel (assignAll fuel state assigned) name arguments
          before.foldl (fun state (name, value) => state.restore name value) state

/-- Runs the stages of a pipeline, each in a shell of its own. What the first one has not read, or
else `left`, is still to be read. `code` is that of the last stage that has failed. -/
def runStages (fuel : Nat) (state : State) (left : Option (List Char)) (code : Nat)
    (stages : List Command) : State :=
  match fuel, stages with
  | 0, _ => { state with flow := .stuck }
  | _, [] => state
  | fuel + 1, stage :: stages =>
    let channels := if stages.isEmpty then state.channels
      else { state.channels with output := .standard }
    let inner := runCommand fuel true { state with written := [], channels } stage
    let after := (state.leave inner).writeMessage (inner.collected true)
    let left := left.getD inner.input
    let failed := if after.code == 0 then code else after.code
    match stages with
    | [] =>
      { after.write (inner.collected false) with
        input := left
        code := if state.joinsFailures then failed else after.code }
    | stages => runStages fuel { after with input := inner.collected false } left failed stages

/-- Goes through a loop while its condition succeeds, or until it does. -/
def runLoop (fuel : Nat) (guarded : Bool) (state : State) (goal : Bool)
    (condition body step : Command) (code : Nat) : State :=
  match fuel with
  | 0 => { state with flow := .stuck }
  | fuel + 1 =>
    let state := runCommand fuel true state condition
    if state.flow != .next then endLoop state
    else if (state.code == 0) != goal then state.finish code
    else
      let state := runCommand fuel guarded state body
      match state.flow with
      | .next | .continued 1 =>
        let next := runCommand fuel true { state with flow := .next } step
        runLoop fuel guarded next goal condition body step state.code
      | _ => endLoop state

/-- Goes through a loop once for each value. -/
def runEach (fuel : Nat) (guarded : Bool) (state : State) (name : String) (body : Command)
    (values : List (List Char)) : State :=
  match fuel, values with
  | 0, _ => { state with flow := .stuck }
  | _, [] => state
  | fuel + 1, value :: values =>
    let state := runCommand fuel guarded (state.assign name value) body
    match state.flow with
    | .next | .continued 1 => runEach fuel guarded { state with flow := .next } name body values
    | _ => endLoop state

/-- Runs the first branch that a text fits. -/
def runSelection (fuel : Nat) (guarded : Bool) (state : State) (text : List Char)
    (branches : List (List Word × Command)) : State :=
  match fuel, branches with
  | 0, _ => { state with flow := .stuck }
  | _, [] => state.finish 0
  | _, ([], _) :: [] => state.finish 0
  | fuel + 1, ([], _) :: branches => runSelection fuel guarded state text branches
  | fuel + 1, (word :: words, body) :: branches =>
    let (state, ps, _) := expandWord fuel state word
    if fitsPattern ps.pattern text then runCommand fuel guarded (state.finish 0) body
    else runSelection fuel guarded state text ((words, body) :: branches)

/-- Decides a condition between double brackets; the words that are left follow. -/
def decideAny (fuel : Nat) (state : State) (words : List Word) : State × Bool × List Word :=
  match fuel with
  | 0 => ({ state with flow := .stuck }, false, [])
  | fuel + 1 =>
    let (state, first, rest) := decideAll fuel state words
    match rest with
    | word :: rest =>
      if bare? word == some "||".toList then
        let (state, second, rest) := decideAny fuel state rest
        (state, first || second, rest)
      else (state, first, word :: rest)
    | [] => (state, first, [])

def decideAll (fuel : Nat) (state : State) (words : List Word) : State × Bool × List Word :=
  match fuel with
  | 0 => ({ state with flow := .stuck }, false, [])
  | fuel + 1 =>
    let (state, first, rest) := decideOne fuel state words
    match rest with
    | word :: rest =>
      if bare? word == some "&&".toList then
        let (state, second, rest) := decideAll fuel state rest
        (state, first && second, rest)
      else (state, first, word :: rest)
    | [] => (state, first, [])

def decideOne (fuel : Nat) (state : State) (words : List Word) : State × Bool × List Word :=
  match fuel, words with
  | 0, _ => ({ state with flow := .stuck }, false, [])
  | _, [] => (state, false, [])
  | fuel + 1, first :: rest =>
    match (bare? first).map String.ofList with
    | some "!" =>
      let (state, holds, rest) := decideOne fuel state rest
      (state, !holds, rest)
    | some "(" =>
      let (state, holds, rest) := decideAny fuel state rest
      (state, holds, rest.tail)
    | bare =>
      let isJoint := fun (word : Word) => ["&&", "||", ")"].any (bare? word == some ·.toList)
      match rest with
      | operator :: second :: rest' =>
        let (state, a, _) := expandWord fuel state first
        let name := String.ofList ((bare? operator).getD [])
        if isJoint operator then (state, !a.text.isEmpty, rest)
        else
          let (state, b, _) := expandWord fuel state second
          match name with
          | "=" | "==" => (state, fitsPattern b.pattern a.text, rest')
          | "!=" => (state, !fitsPattern b.pattern a.text, rest')
          | "=~" =>
            let found := (Regex.parse? true b.text).any fun regex =>
              (regex.find? { text := a.text.toArray } 0).isSome
            (state, found, rest')
          | _ =>
            let number := fun (cs : List Char) =>
              digitsOf (((calculate state.bindings cs).map (·.1)).getD 0)
            let isNumeric := ["-eq", "-ne", "-lt", "-le", "-gt", "-ge"].contains name
            let compared := if isNumeric then State.comparison? name (number a.text) (number b.text)
              else State.comparison? name a.text b.text
            match compared with
            | some (.ok holds) => (state, holds, rest')
            | _ =>
              let (state, b, _) := expandWord fuel state operator
              (state, (state.holdsOf (bare.getD "") b.text).getD false, second :: rest')
      | [operand] =>
        if isJoint operand then
          let (state, a, _) := expandWord fuel state first
          (state, !a.text.isEmpty, rest)
        else
          let (state, b, _) := expandWord fuel state operand
          (state, (state.holdsOf (bare.getD "") b.text).getD false, [])
      | [] =>
        let (state, a, _) := expandWord fuel state first
        (state, !a.text.isEmpty, [])

/-- Runs a command. Where it is not guarded by a condition, its failure may end the script. -/
def runCommand (fuel : Nat) (guarded : Bool) (state : State) (command : Command) : State :=
  match fuel with
  | 0 => { state with flow := .stuck }
  | fuel + 1 =>
    if state.flow != .next then state
    else if state.steps > 200000 then { state with flow := .stuck }
    else
      let state := { state with steps := state.steps + 1 }
      let checked := fun (state : State) =>
        let endsScript := state.exitsOnFailure && !guarded && !state.isGuarded
        if endsScript && state.code != 0 && state.flow == .next then
          { state with flow := .exited }
        else state
      match command with
      | .simple line words redirections =>
        let state := if line == 0 then state else { state with line }
        let after := runSimple fuel { state with isGuarded := guarded || state.isGuarded } words
          redirections
        checked { after with isGuarded := state.isGuarded }
      | .pipeline negated [stage] =>
        let state := runCommand fuel (guarded || negated) state stage
        if negated then state.finish (if state.code == 0 then 1 else 0) else state
      | .pipeline negated stages =>
        let after := runStages fuel state none 0 stages
        if negated then after.finish (if after.code == 0 then 1 else 0) else checked after
      | .andThen first second =>
        let state := runCommand fuel true state first
        if state.code == 0 then runCommand fuel guarded state second else state
      | .orElse first second =>
        let state := runCommand fuel true state first
        if state.code == 0 then state else runCommand fuel guarded state second
      | .sequence commands => runAll fuel guarded state commands
      | .choose condition body otherwise =>
        let state := runCommand fuel true state condition
        if state.flow != .next then state
        else if state.code == 0 then runCommand fuel guarded state body
        else runCommand fuel guarded (state.finish 0) otherwise
      | .loop goal condition body step =>
        let inner := { state with loops := state.loops + 1 }
        { runLoop fuel guarded inner goal condition body step 0 with loops := state.loops }
      | .each name words body =>
        let (state, values) := match words with
          | some words => expandWords fuel state words
          | none => (state, state.arguments)
        let inner := { state.finish 0 with loops := state.loops + 1 }
        { runEach fuel guarded inner (String.ofList name) body values with loops := state.loops }
      | .select word branches =>
        let (state, ps, _) := expandWord fuel state word
        runSelection fuel guarded state ps.text branches
      | .apart body =>
        let inner := runCommand fuel guarded state body
        checked { state.leave inner with written := inner.written }
      | .define name body =>
        { state with functions := (name, body) :: state.functions }.finish 0
      | .test line words =>
        let (state, holds, _) := decideAny fuel { state with line } words
        checked (state.finish (if holds then 0 else 1))
      | .evaluate line text =>
        let (state, ps, _) := expandWord fuel { state with line } (wordOf .document text)
        match calculate state.bindings ps.text with
        | some (n, bindings) => checked ({ state with bindings }.finish (if n == 0 then 1 else 0))
        | none => checked (state.complain ("((: ".toList ++ misreckoned ps.text) 1)
      | .redirected body redirections =>
        match openAll fuel state state.channels redirections with
        | (state, none) => state
        | (state, some channels) =>
          let after := channels.around { state with channels := {} } fun state =>
            runCommand fuel guarded state body
          { after with channels := state.channels }

def runAll (fuel : Nat) (guarded : Bool) (state : State) (commands : List Command) : State :=
  match fuel, commands with
  | 0, _ => { state with flow := .stuck }
  | _, [] => state
  | fuel + 1, command :: commands =>
    runAll fuel guarded (runCommand fuel guarded state command) commands

def runLines (fuel : Nat) (state : State) (lines : List (List Command)) : State :=
  match fuel, lines with
  | 0, _ => { state with flow := .stuck }
  | _, [] => state
  | fuel + 1, line :: lines =>
    let state := runAll fuel false state line
    runLines fuel (if state.flow == .discarded then { state with flow := .next } else state) lines

def runScript (fuel : Nat) (state : State) (script : List Mark) : State :=
  match fuel with
  | 0 => { state with flow := .stuck }
  | fuel + 1 =>
    let (lines, problem) := parse script
    let state := runLines fuel state lines
    match problem with
    | some problem => if state.flow == .next then state.report script problem else state
    | none => state

end

end PhoenixLens.Shell
