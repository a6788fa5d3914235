import PhoenixLens.Text.Basic

/-!
# Events that a template sends

The names of events in bindings such as `phx-click="save"` and in pushes from JavaScript commands
such as `JS.push("save")`.
-/

namespace PhoenixLens.Markup

open Text (takeSome? stripPrefix? trimStart)

/-- The bindings whose value is the name of an event. -/
def eventBindings : List String :=
  ["click", "click-away", "capture-click", "submit", "change", "blur", "focus", "keydown", "keyup",
    "window-blur", "window-focus", "window-keydown", "window-keyup", "viewport-top",
    "viewport-bottom"]

def isQuoteMark (c : Char) : Bool := c == '"' || c == '\''

/-- A binding and its value, which holds neither quotes nor braces. -/
def binding? (cs : List Char) : Option ((List Char × List Char) × List Char) := do
  let (name, rest) ← takeSome? (fun c => Text.isAsciiLower c || c == '-') (← stripPrefix? "phx-" cs)
  match trimStart (← stripPrefix? "=" (trimStart rest)) with
  | [] => failure
  | opening :: rest =>
    if !isQuoteMark opening then failure
    let (value, rest) ← takeSome? (fun c => !isQuoteMark c && c != '{' && c != '}') rest
    match rest with
    | closing :: rest => if isQuoteMark closing then return ((name, value), rest) else failure
    | [] => failure

def push? (cs : List Char) : Option (List Char × List Char) := do
  let rest := trimStart (← stripPrefix? "JS.push(" cs)
  let behindCommands := (stripPrefix? "%JS\x7b\x7d" rest).bind fun r =>
    (stripPrefix? "," (trimStart r)).map trimStart
  let (name, rest) ← takeSome? (· != '"') (← stripPrefix? "\"" (behindCommands.getD rest))
  match rest with
  | _ :: rest => return (name, rest)
  | [] => failure

/-- The names of the events that a text sends. -/
def sentEvents (cs : List Char) : List String :=
  let bound := (Text.matchesIn (fun _ => binding?) cs).filterMap fun (name, value) =>
    if eventBindings.contains (String.ofList name) then some (Text.trim value) else none
  let pushed := Text.matchesIn (fun _ => push?) cs
  (bound ++ pushed).map String.ofList

end PhoenixLens.Markup
