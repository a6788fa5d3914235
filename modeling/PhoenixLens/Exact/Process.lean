import PhoenixLens.Exact.Gateway
import PhoenixLens.Json.Parser
import PhoenixLens.Text.Utf8

/-!
# An exact parser in a process of its own

The exact parser is a command that is given a script for the kind of what to find. Whether the
command can be used is tried once; the answer is kept as long as the parser.
-/

namespace PhoenixLens

/-- A command with its arguments and what it can read. -/
structure ProcessCall where
  command : String
  arguments : List String
  input : Option String := none
deriving DecidableEq, Repr

inductive ProcessResult where
  | notStarted
  | timedOut
  /-- It ended with a code, unless it was killed, and wrote output and messages. -/
  | ended (code : Option Int) (output messages : List UInt8)
deriving DecidableEq, Repr

/-- What a parser needs of the system. -/
structure ProcessSystem (m : Type → Type) where
  isDirectory : Path → m Bool
  isPresent : Path → m Bool
  /-- Runs a process for at most so many milliseconds. -/
  run : ProcessCall → Nat → m ProcessResult

/-- A parser that may have been tried already. -/
structure ParserProcess where
  config : ParserConfig
  isUsable : Option Bool := none
deriving DecidableEq, Repr

namespace ParserProcess

variable {m : Type → Type} [Monad m]

/-- The directory of scripts is there, and the command can say its version. -/
def probe (system : ProcessSystem m) (config : ParserConfig) : m Bool := do
  match config.scriptsDir with
  | none => return false
  | some directory =>
    if ← system.isDirectory ⟨directory⟩ then
      let call := { command := config.command, arguments := ["--version"] }
      match ← system.run call config.probeTimeoutMs with
      | .ended (some 0) _ _ => return true
      | _ => return false
    else return false

/-- Tries the command, unless that has been done. -/
def isAvailable (system : ProcessSystem m) : StateT ParserProcess m Bool := do
  let process ← get
  match process.isUsable with
  | some usable => return usable
  | none =>
    let usable ← (probe system process.config : m Bool)
    set { process with isUsable := some usable }
    return usable

/-- How the command is called for a script. A text is given as input. -/
def callFor (config : ParserConfig) (script : Path) : ExactInput → ProcessCall
  | .file path => { command := config.command, arguments := [script.text, path.text] }
  | .content path text =>
    { command := config.command
      arguments := [script.text, "--stdin", "--path", path.text]
      input := some text }

/-- What a process that has ended answers. -/
def answerOf (timeout : Nat) : ProcessResult → Except ParseError Json
  | .notStarted => .error .notStarted
  | .timedOut => .error (.timeout timeout)
  | .ended (some 0) output _ =>
    match (String.fromUTF8? ⟨output.toArray⟩).bind Json.parse? with
    | some answer => .ok answer.distinct
    | none => .error .malformed
  | .ended code _ messages =>
    .error (.failed code (String.ofList (Text.trim (Text.ofBytes messages))))

/-- Runs the script for the kind of what to find. -/
def run (system : ProcessSystem m) (kind : ParseKind) (input : ExactInput) :
    StateT ParserProcess m (Except ParseError Json) := do
  let usable ← isAvailable system
  let config := (← get).config
  match usable, config.scriptsDir with
  | true, some directory =>
    let script := (Path.mk directory).join (kind.name ++ ".exs")
    if ← system.isPresent script then
      return answerOf config.parseTimeoutMs
        (← system.run (callFor config script input) config.parseTimeoutMs)
    else return .error .unavailable
  | _, _ => return .error .unavailable

def parser (system : ProcessSystem m) : ExactParser (StateT ParserProcess m) where
  isAvailable := isAvailable system
  run := run system

end ParserProcess

end PhoenixLens
