import PhoenixLens.Elixir.Definition
import PhoenixLens.Elixir.LogicalLine
import PhoenixLens.Glob.Match
import PhoenixLens.Model.Template
import PhoenixLens.Path.Disk

/-!
# Templates of a module

The templates that belong to the modules of a file: template files that a module embeds by a
pattern, functions of an HTML module, and the template file beside a live view.
-/

namespace PhoenixLens.Elixir

/-- The name of a template: its file name up to the first dot. -/
def templateNameOf (fileName : String) : String :=
  String.ofList (fileName.toList.takeWhile (· != '.'))

/-- The format of a template: the part of its file name before the last one, `html` where there
are less than three parts. -/
def templateFormatOf (fileName : String) : String :=
  match (Text.splitAt '.' fileName.toList).reverse with
  | _ :: format :: _ :: _ => String.ofList format
  | _ => "html"

/-- The directories that a pattern begins with: all of it before its last slash. -/
def patternDirectory (pattern : List Char) : List Char :=
  if pattern.contains '/' then
    pattern.take (pattern.length - (pattern.reverse.takeWhile (· != '/')).length - 1)
  else []

/-- The file names in a directory that belong to a pattern. A pattern is about the names of
templates, behind the directories that it begins with. -/
def embeddedNames (glob : Glob) (directory : List Char) (names : List String) : List String :=
  names.filter fun fileName =>
    let name := templateNameOf fileName
    Text.endsWith ".heex" fileName.toList &&
      glob.isMatch (if directory.isEmpty then name else String.ofList directory ++ "/" ++ name)

/-- The templates that an `embed_templates` takes in, in order of their paths. -/
def embeddedTemplates (disk : Disk) (file : Path) (moduleName : List Char) (line : Nat)
    (arguments : List (List Char)) : List TemplateInfo :=
  let found : Option (List TemplateInfo) := do
    let pattern ← arguments.head? >>= parseString?
    let base ← file.parent?
    let glob ← (Glob.parse (String.ofList pattern)).toOption
    let directory := patternDirectory pattern
    let place := base.join (String.ofList directory)
    let names := embeddedNames glob directory (← disk.names? place)
    return (Path.sort (names.map place.join)).map fun path =>
      let fileName := path.fileName?.getD ""
      { name := templateNameOf fileName
        moduleName := String.ofList moduleName
        filePath := path
        moduleFile := file
        line
        kind := .embedded
        format := templateFormatOf fileName }
  found.getD []

/-- The name of the function that renders a template in a line of an HTML module. -/
def templateFunction? (text : List Char) : Option (List Char) := do
  let head ← definitionHead? text
  if head.isPrivate || !head.name.all Text.isAsciiWord then failure
  match ← head.arguments? with
  | [argument] => if Text.trim argument == "assigns".toList then return head.name else failure
  | _ => failure

/-- The template file beside a live view. -/
def colocatedTemplate? (disk : Disk) (file : Path) : Option Path := do
  let fileName ← file.fileName?
  let stem ← Text.stripSuffix? "_live.ex" fileName.toList
  let candidate := file.withFileName (String.ofList stem ++ "_live.html.heex")
  if disk.isFile candidate then return candidate else failure

/-- What is known between two lines; `first` is the first module of the file with its line. -/
structure TemplateState where
  tracker : BlockTracker := {}
  first : Option (List Char × Nat) := none
deriving DecidableEq, Repr

/-- The templates that a line inside a module declares. -/
def templatesOfLine (disk : Disk) (file : Path) (tracker : BlockTracker) (moduleName : List Char)
    (line : Nat) (text : List Char) : List TemplateInfo :=
  match callArguments? text "embed_templates" with
  | some written => embeddedTemplates disk file moduleName line (splitArguments written)
  | none =>
    if (file.fileName?.any fun n => Text.endsWith "_html.ex" n.toList) && tracker.depth == 1 then
      (templateFunction? text).toList.map fun name =>
        { name := String.ofList name
          moduleName := String.ofList moduleName
          filePath := file
          moduleFile := file
          line
          kind := .function }
    else []

namespace TemplateState

/-- Takes up a line, and gives the templates that it declares. -/
def takeLine (state : TemplateState) (disk : Disk) (file : Path) (line : LogicalLine) :
    TemplateState × List TemplateInfo :=
  let templates := match state.tracker.currentModule? with
    | some moduleName =>
      templatesOfLine disk file state.tracker moduleName line.line (Text.trim line.text)
    | none => []
  let opened := (state.tracker.opened? line.text).map fun name => (name, line.line)
  ({ tracker := state.tracker.advance line.text, first := state.first.or opened }, templates)

/-- The template file beside a live view, which belongs to the first module. -/
def colocated (state : TemplateState) (disk : Disk) (file : Path) : List TemplateInfo :=
  match colocatedTemplate? disk file, state.first with
  | some path, some (moduleName, line) =>
    [{ name := templateNameOf (path.fileName?.getD "")
       moduleName := String.ofList moduleName
       filePath := path
       moduleFile := file
       line
       kind := .colocated }]
  | _, _ => []

end TemplateState

def templatesOfLines (disk : Disk) (file : Path) (state : TemplateState) :
    List LogicalLine → List TemplateInfo
  | [] => state.colocated disk file
  | line :: lines =>
    let (state, templates) := state.takeLine disk file line
    templates ++ templatesOfLines disk file state lines

def templatesOf (disk : Disk) (file : Path) (source : List Char) : List TemplateInfo :=
  templatesOfLines disk file {} (logicalLines source)

end PhoenixLens.Elixir
