import PhoenixLens.Exact.Shell.Outcome
import PhoenixLens.Exact.Shell.Syntax
import PhoenixLens.Path.Disk
import PhoenixLens.Text.Basic

/-!
# Scripts that run

What a script has read, written and set at a moment.
-/

namespace PhoenixLens.Shell

/-! ### Names of files -/

/-- The last name of a path, perhaps without an ending. -/
def baseName (path suffix : List Char) : List Char :=
  let path := if path.all (· == '/') then path.take 1 else Text.dropEndWhile (· == '/') path
  let name := if path == ['/'] then path else (path.reverse.takeWhile (· != '/')).reverse
  match suffix.isSuffixOf? name with
  | some stem => if stem.isEmpty then name else stem
  | none => name

/-- A path without its last name. -/
def directoryName (path : List Char) : List Char :=
  let path := Text.dropEndWhile (· == '/') path
  if !path.contains '/' then ['.']
  else
    let directory := Text.dropEndWhile (· == '/') (Text.dropEndWhile (· != '/') path)
    if directory.isEmpty then ['/'] else directory

/-- How a script goes on behind a command. -/
inductive Flow where
  | next
  | exited
  /-- It is ended by a signal. -/
  | killed
  | returned
  /-- So many loops end. -/
  | broken (loops : Nat)
  /-- All but one of so many loops end, and that one goes on. -/
  | continued (loops : Nat)
  /-- The rest of the line is left out. -/
  | discarded
  /-- It goes on for longer than anybody waits. -/
  | stuck
deriving DecidableEq, Repr

/-- Where a channel leads. -/
inductive Target where
  | standard
  | errors
  | nowhere
  | file (path : List Char)
deriving DecidableEq, Repr

/-- The channels of a command; `input` is `none` where it is that of the script. -/
structure Channels where
  input : Option (List Char) := none
  output : Target := .standard
  messages : Target := .errors
deriving DecidableEq, Repr

/-- A script that runs. -/
structure State where
  script : List Char
  arguments : List (List Char)
  /-- What has not been read yet. -/
  input : List Char
  disk : Disk
  /-- Where relative paths begin. -/
  directory : List Char := ['/']
  bindings : Bindings := []
  functions : List (List Char × Command) := []
  /-- The variables that the end of a function gives back their values. -/
  locals : List (String × Option (List Char)) := []
  /-- Where the commands of the script write. -/
  channels : Channels := {}
  /-- What has been written, the last first, and whether it is a message. -/
  written : List (Bool × List Char) := []
  code : Nat := 0
  /-- How the commands that a word has run have ended. -/
  outputCode : Option Nat := none
  flow : Flow := .next
  line : Nat := 1
  milliseconds : Nat := 1
  steps : Nat := 0
  exitsOnFailure : Bool := false
  /-- A condition waits for the end of the function that runs, so that failures end nothing. -/
  isGuarded : Bool := false
  /-- The value of a variable that is not set ends the script. -/
  refusesUnset : Bool := false
  /-- A pipeline fails if any of its stages does. -/
  joinsFailures : Bool := false
  /-- The numbers of functions and of loops that run. -/
  calls : Nat := 0
  loops : Nat := 0
  /-- The commands for the end. -/
  epilogue : List Char := []

namespace State

def isSet (state : State) (name : String) : Bool :=
  match name.toNat? with
  | some n => n ≤ state.arguments.length
  | none => (state.bindings.lookup name).isSome || ["#", "?", "$", "@", "*", "-"].contains name

/-- The value of a variable or of an argument. -/
def value (state : State) (name : String) : List Char :=
  match name with
  | "#" => (toString state.arguments.length).toList
  | "?" => (toString state.code).toList
  | "$" | "BASHPID" => ['$']
  | "@" | "*" => Text.join [' '] state.arguments
  | "LINENO" => (toString state.line).toList
  | _ =>
    match name.toNat? with
    | some 0 => state.script
    | some (n + 1) => (state.arguments[n]?).getD []
    | none => state.bindings.value name

def assign (state : State) (name : String) (value : List Char) : State :=
  { state with bindings := state.bindings.set name value }

/-- Gives a variable back a value, or none. -/
def restore (state : State) (name : String) : Option (List Char) → State
  | some value => state.assign name value
  | none => { state with bindings := state.bindings.filter (·.1 != name) }

def write (state : State) (text : List Char) : State :=
  if text.isEmpty then state else { state with written := (false, text) :: state.written }

def writeMessage (state : State) (text : List Char) : State :=
  if text.isEmpty then state else { state with written := (true, text) :: state.written }

def finish (state : State) (code : Nat) : State := { state with code }

/-- Reports a problem at the line of the command. -/
def complain (state : State) (reason : List Char) (code : Nat) : State :=
  (state.writeMessage (state.script ++ ": line ".toList ++ (toString state.line).toList ++
    ": ".toList ++ reason ++ ['\n'])).finish code

/-- What a program writes, and how it ends. -/
def conclude (state : State) (outcome : Outcome) : State :=
  ((state.write outcome.output).writeMessage outcome.messages).finish outcome.code

/-- All that has been written as output, or as messages. -/
def collected (state : State) (messages : Bool) : List Char :=
  ((state.written.filter (·.1 == messages)).reverse.map (·.2)).flatten

/-! ### Files -/

def path (state : State) (cs : List Char) : Path :=
  if cs.head? == some '/' then ⟨plainText cs⟩
  else ⟨plainText (state.directory ++ '/' :: cs)⟩

/-- The text of a file, or why it cannot be read. -/
def readFile (state : State) (cs : List Char) : Except String (List Char) :=
  if cs == "/dev/null".toList then .ok []
  else if cs == "/dev/stdin".toList then .ok state.input
  else
    match state.disk.find? (state.path cs) with
    | some (.file text _) => .ok (byteText text)
    | some .directory => .error "Is a directory"
    | none => .error "No such file or directory"

def canWrite (state : State) (cs : List Char) : Except String Unit :=
  match state.disk.find? (state.path cs) with
  | some (.file _ _) => .ok ()
  | some .directory => .error "Is a directory"
  | none =>
    if state.disk.isDirectory (state.path (directoryName cs)) then .ok ()
    else .error "No such file or directory"

/-- Writes a file; its time is later than that of any other. -/
def writeFile (state : State) (cs text : List Char) : State :=
  let modified := state.disk.entries.foldl (fun time (_, entry) =>
    match entry with
    | .file _ modified => max time (modified + 1)
    | .directory => time) 0
  { state with disk := state.disk.write (state.path cs) (plainText text) modified }

def appendFile (state : State) (cs text : List Char) : State :=
  match state.readFile cs with
  | .ok before => state.writeFile cs (before ++ text)
  | .error _ => state.writeFile cs text

/-- The texts that a program reads: those of files, or the input. Files that cannot be read are
reported. -/
def inputs (state : State) (program : String) (files : List (List Char)) :
    State × List (Option (List Char) × List Char) :=
  if files.isEmpty then ({ state with input := [] }, [(none, state.input)])
  else
    files.foldl (fun (state, texts) file =>
      if file == ['-'] || file == "/dev/stdin".toList then
        ({ state with input := [] }, texts ++ [(some file, state.input)])
      else
        match state.readFile file with
        | .ok text => (state, texts ++ [(some file, text)])
        | .error reason =>
          ((state.writeMessage
            (program.toList ++ ": ".toList ++ file ++ (": " ++ reason ++ "\n").toList)).finish 1,
            texts)) (state.finish 0, [])

end State

/-! ### Channels -/

def Channels.target (channels : Channels) (n : Nat) : Target :=
  if n == 2 then channels.messages else channels.output

def Channels.set (channels : Channels) (target : Target) (n : Nat) : Channels :=
  if n == 1 then { channels with output := target }
  else if n == 2 then { channels with messages := target }
  else channels

def Channels.around (channels : Channels) (state : State) (act : State → State) : State :=
  let inner := act { state with written := [], input := channels.input.getD state.input }
  let outer := { inner with
    written := state.written
    input := if channels.input.isSome then state.input else inner.input }
  inner.written.reverse.foldl (fun state (isMessage, text) =>
    match if isMessage then channels.messages else channels.output with
    | .standard => state.write text
    | .errors => state.writeMessage text
    | .nowhere => state
    | .file path => state.appendFile path text) outer

def openFile (state : State) (path : List Char) (appends : Bool) : Except String (State × Target) :=
  if path == "/dev/null".toList then .ok (state, .nowhere)
  else if path == "/dev/stderr".toList then .ok (state, .errors)
  else if path == "/dev/stdout".toList then .ok (state, .standard)
  else do
    state.canWrite path
    return (if appends then state else state.writeFile path [], .file path)

end PhoenixLens.Shell
