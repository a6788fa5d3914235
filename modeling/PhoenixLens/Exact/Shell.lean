import PhoenixLens.Exact.Process
import PhoenixLens.Exact.Shell.Run

/-!
# Scripts of a shell

Exact parsers may be shell scripts. What becomes of a script can be told without a system: it is
read into commands, which go through a state that holds variables, input, output and the disk.
-/

namespace PhoenixLens.Shell

/-- Runs the commands that are kept for the end. -/
def State.runEpilogue (fuel : Nat) (state : State) : State :=
  if state.epilogue.isEmpty || state.flow == .killed || state.flow == .stuck then state
  else
    let after := runScript fuel { state with flow := .next, epilogue := [] }
      (marksFrom state.line state.epilogue)
    if after.flow == .exited then after else after.finish state.code

/-- What becomes of a script that runs for at most so many milliseconds. -/
def run (disk : Disk) (script : String) (text : String) (arguments : List String) (input : String)
    (timeout : Nat) : ProcessResult × Disk :=
  let start : State :=
    { script := byteText script
      arguments := arguments.map byteText
      input := byteText input
      disk }
  let state := (runScript 4000 start (marksFrom 1 (byteText text))).runEpilogue 4000
  if state.flow == .stuck || timeout < state.milliseconds then (.timedOut, state.disk)
  else
    let code := if state.flow == .killed then none else some (Int.ofNat state.code)
    (.ended code (bytesOf (state.collected false)) (bytesOf (state.collected true)), state.disk)

/-- What becomes of a process where there is no program but a shell, with scripts on a disk, and two
that always end in the same way. -/
def runProcess (call : ProcessCall) (timeout : Nat) : StateM Disk ProcessResult := do
  match call.command, call.arguments with
  | "true", _ => return .ended (some 0) [] []
  | "false", _ => return .ended (some 1) [] []
  | "bash", ["--version"] => return if timeout == 0 then .timedOut else .ended (some 0) [] []
  | "bash", script :: arguments =>
    let disk ← get
    match disk.read? ⟨script⟩ with
    | some text =>
      let (result, disk) := run disk script text arguments (call.input.getD "") timeout
      set disk
      return result
    | none =>
      let message := script ++ ": " ++ script ++ ": Is a directory"
      return .ended (some 126) [] (bytesOf (byteText message))
  | _, _ => return .notStarted

end PhoenixLens.Shell
