import PhoenixLens.Editor.Location
import PhoenixLens.Json.Shape

/-!
# Parameters of requests

The shapes of the parameters that the requests of an editor carry. Requests that are not answered
have their parameters checked all the same. Parameters that say where progress is to be reported are
written as objects only.
-/

namespace PhoenixLens

namespace Shape

def uri (value : Json) : Bool := (value.asString?.bind Uri.parse?).isSome

def position : Shape := record [must "line" nat32, must "character" nat32]

def range : Shape := record [must "start" position, must "end" position]

def location : Shape := record [must "uri" uri, must "range" range]

def document : Shape := record [must "uri" uri]

def numberOrString : Shape := either int32 string

/-- The name of a task whose progress is shown. -/
def token : Shape := numberOrString

end Shape

namespace EditorMessage

open Shape

/-- Where the progress of an answer is to be reported. -/
def progressFields : List Field := [may "workDoneToken" token]

/-- Where the progress and the parts of an answer are to be reported. -/
def partialFields : List Field := [may "workDoneToken" token, may "partialResultToken" token]

def placeFields : List Field := [must "textDocument" document, must "position" position]

/-! ### What documents are annotated with -/

def markup : Shape :=
  either string (record [must "kind" (oneOf ["plaintext", "markdown"]), must "value" string])

def command : Shape :=
  record [must "title" string, must "command" string, may "arguments" (list any)]

def diagnostic : Shape :=
  record [must "range" range, may "severity" int32, may "code" numberOrString,
    may "codeDescription" (record [must "href" uri]), may "source" string, must "message" string,
    may "relatedInformation" (list (record [must "location" location, must "message" string])),
    may "tags" (list int32), may "data" any]

/-! ### Edits -/

def textEditFields : List Field := [must "range" range, must "newText" string]

def textEdit : Shape := record textEditFields

/-- Edits of one document, of which a version may be meant. -/
def documentEdit : Shape :=
  let annotated := members (textEditFields ++ [must "annotationId" string])
  record [must "textDocument" (record [must "uri" uri, may "version" int32]),
    must "edits" (list (either textEdit annotated))]

/-- The making, renaming or removal of a file. -/
def fileOperation (value : Json) : Bool :=
  let flags := fun names => may "options" (record (mays bool names))
  match (value.field? "kind").bind Json.asString? with
  | some "create" =>
    members [must "uri" uri, flags ["overwrite", "ignoreIfExists"], may "annotationId" string] value
  | some "rename" =>
    members [must "oldUri" uri, must "newUri" uri, flags ["overwrite", "ignoreIfExists"],
      may "annotationId" string] value
  | some "delete" =>
    members [must "uri" uri, may "options" (record (mays bool ["recursive", "ignoreIfNotExists"] ++
      [may "annotationId" string]))] value
  | _ => false

def workspaceEdit : Shape :=
  record [may "changes" (map uri (list textEdit)),
    may "documentChanges" (either (list documentEdit) (list (either fileOperation documentEdit))),
    may "changeAnnotations" (map any
      (record [must "label" string, may "needsConfirmation" bool, may "description" string]))]

/-! ### Items that are offered to an editor and come back -/

def completionItem : Shape :=
  record ([must "label" string,
    may "labelDetails" (record (mays string ["detail", "description"])), may "kind" int32,
    may "detail" string, may "documentation" markup] ++ mays bool ["deprecated", "preselect"] ++
    mays string ["sortText", "filterText", "insertText"] ++
    mays int32 ["insertTextFormat", "insertTextMode"] ++
    [may "textEdit" (either textEdit
      (record [must "newText" string, must "insert" range, must "replace" range])),
    may "additionalTextEdits" (list textEdit), may "command" command,
    may "commitCharacters" (list string), may "data" any, may "tags" (list int32)])

def codeAction : Shape :=
  record [must "title" string, may "kind" string, may "diagnostics" (list diagnostic),
    may "edit" workspaceEdit, may "command" command, may "isPreferred" bool,
    may "disabled" (record [must "reason" string]), may "data" any]

def codeLens : Shape := record [must "range" range, may "command" command, may "data" any]

def documentLink : Shape :=
  record [must "range" range, may "target" uri, may "tooltip" string, may "data" any]

def inlayHint : Shape :=
  let part := record [must "value" string, may "tooltip" markup, may "location" location,
    may "command" command]
  record [must "position" position, must "label" (either string (list part)), may "kind" int32,
    may "textEdits" (list textEdit), may "tooltip" markup, may "paddingLeft" bool,
    may "paddingRight" bool, may "data" any]

/-- A place in a hierarchy of calls or types. -/
def hierarchyItem (tags : Shape) : Shape :=
  record [must "name" string, must "kind" int32, may "tags" tags, may "detail" string,
    must "uri" uri, must "range" range, must "selectionRange" range, may "data" any]

def workspaceSymbol : Shape :=
  record [must "name" string, must "kind" int32, may "tags" (list int32),
    may "containerName" string, must "location" (either location document), may "data" any]

def signatureHelp : Shape :=
  let bounds : Shape := fun value => list nat32 value && value.asArray?.any (·.length == 2)
  let parameter := record [must "label" (either string bounds), may "documentation" markup]
  let signature := record [must "label" string, may "documentation" markup,
    may "parameters" (list parameter), may "activeParameter" nat32]
  record [must "signatures" (list signature), may "activeSignature" nat32,
    may "activeParameter" nat32]

/-! ### Parameters -/

def placeParams : Shape := members (placeFields ++ partialFields)

def completionParams : Shape :=
  let context := record [must "triggerKind" int32, may "triggerCharacter" string]
  members (placeFields ++ partialFields ++ [may "context" context])

def signatureHelpParams : Shape :=
  let context := record [must "triggerKind" int32, may "triggerCharacter" string,
    must "isRetrigger" bool, may "activeSignatureHelp" signatureHelp]
  members (placeFields ++ progressFields ++ [may "context" context])

def documentParams (more : List Field) : Shape :=
  members (must "textDocument" document :: more)

/-- How text is to be formatted; there may be other settings. -/
def formattingOptions (value : Json) : Bool :=
  members ([must "tabSize" nat32, must "insertSpaces" bool] ++
    mays bool ["trimTrailingWhitespace", "insertFinalNewline", "trimFinalNewlines"]) value &&
  match value with
  | .obj settings =>
    settings.all fun (name, setting) =>
      ["tabSize", "insertSpaces", "trimTrailingWhitespace", "insertFinalNewline",
        "trimFinalNewlines"].contains name || either bool numberOrString setting
  | _ => false

def codeActionParams : Shape :=
  let context := record [must "diagnostics" (list diagnostic), may "only" (list string),
    may "triggerKind" int32]
  documentParams ([must "range" range, must "context" context] ++ partialFields)

def colorParams : Shape :=
  let color := record (["red", "green", "blue", "alpha"].map (must · number))
  documentParams ([must "color" color, must "range" range] ++ partialFields)

def inlineValueParams : Shape :=
  let context := record [must "frameId" int32, must "stoppedLocation" range]
  documentParams ([must "range" range, must "context" context] ++ progressFields)

def workspaceDiagnosticParams : Shape :=
  let known := record [must "uri" uri, must "value" string]
  members ([may "identifier" string, must "previousResultIds" (list known)] ++ partialFields)

/-- Files that will be made or removed, whose names need not be URIs. -/
def filesParams (names : List String) : Shape :=
  record [must "files" (list (record (names.map (must · string))))]

/-- The requests that an editor may send, but that are not answered, with their parameters. -/
def unanswered : List (String × Shape) := [
  ("textDocument/hover", members (placeFields ++ progressFields)),
  ("textDocument/declaration", placeParams),
  ("textDocument/typeDefinition", placeParams),
  ("textDocument/implementation", placeParams),
  ("textDocument/documentHighlight", placeParams),
  ("textDocument/moniker", placeParams),
  ("textDocument/references", members (placeFields ++ partialFields ++
    [must "context" (record [must "includeDeclaration" bool])])),
  ("textDocument/signatureHelp", signatureHelpParams),
  ("textDocument/prepareRename", record placeFields),
  ("textDocument/rename", members (placeFields ++ progressFields ++ [must "newName" string])),
  ("textDocument/linkedEditingRange", members (placeFields ++ progressFields)),
  ("textDocument/prepareCallHierarchy", members (placeFields ++ progressFields)),
  ("textDocument/prepareTypeHierarchy", members (placeFields ++ progressFields)),
  ("callHierarchy/incomingCalls",
    members (must "item" (hierarchyItem (list int32)) :: partialFields)),
  ("callHierarchy/outgoingCalls",
    members (must "item" (hierarchyItem (list int32)) :: partialFields)),
  ("typeHierarchy/supertypes", members (must "item" (hierarchyItem int32) :: partialFields)),
  ("typeHierarchy/subtypes", members (must "item" (hierarchyItem int32) :: partialFields)),
  ("textDocument/documentSymbol", documentParams partialFields),
  ("textDocument/documentLink", documentParams partialFields),
  ("documentLink/resolve", documentLink),
  ("textDocument/codeLens", documentParams partialFields),
  ("codeLens/resolve", codeLens),
  ("textDocument/foldingRange", documentParams partialFields),
  ("textDocument/selectionRange",
    documentParams (must "positions" (list position) :: partialFields)),
  ("textDocument/documentColor", documentParams partialFields),
  ("textDocument/colorPresentation", colorParams),
  ("textDocument/formatting",
    documentParams (must "options" formattingOptions :: progressFields)),
  ("textDocument/rangeFormatting",
    documentParams (must "range" range :: must "options" formattingOptions :: progressFields)),
  ("textDocument/onTypeFormatting",
    members (placeFields ++ [must "ch" string, must "options" formattingOptions])),
  ("textDocument/codeAction", codeActionParams),
  ("codeAction/resolve", codeAction),
  ("completionItem/resolve", completionItem),
  ("textDocument/semanticTokens/full", documentParams partialFields),
  ("textDocument/semanticTokens/full/delta",
    documentParams (must "previousResultId" string :: partialFields)),
  ("textDocument/semanticTokens/range", documentParams (must "range" range :: partialFields)),
  ("textDocument/inlineValue", inlineValueParams),
  ("textDocument/inlayHint", documentParams (must "range" range :: progressFields)),
  ("inlayHint/resolve", inlayHint),
  ("textDocument/diagnostic",
    documentParams (mays string ["identifier", "previousResultId"] ++ partialFields)),
  ("workspace/diagnostic", workspaceDiagnosticParams),
  ("textDocument/willSaveWaitUntil",
    record [must "textDocument" document, must "reason" int32]),
  ("workspace/symbol", members (must "query" string :: partialFields)),
  ("workspaceSymbol/resolve", workspaceSymbol),
  ("workspace/willCreateFiles", filesParams ["uri"]),
  ("workspace/willRenameFiles", filesParams ["oldUri", "newUri"]),
  ("workspace/willDeleteFiles", filesParams ["uri"])]

/-- The shape of the parameters of a request that is not answered. -/
def unanswered? (method : String) : Option Shape := unanswered.lookup method

end EditorMessage

end PhoenixLens
