import PhoenixLens.Json.Shape

/-!
# What an editor can do

The capabilities that an editor announces. Nothing depends on them, but a session begins only if
they are well formed.
-/

namespace PhoenixLens.EditorMessage

open Shape

/-- Something that is on or off in several respects. -/
def flags (names : List String) : Shape := record (mays bool names)

/-- Something that may be registered while the session goes on. -/
def registration : Shape := flags ["dynamicRegistration"]

/-- Something that may ask for a refresh. -/
def refreshable : Shape := flags ["refreshSupport"]

/-- A choice of values. -/
def valueSet (shape : Shape) : Shape := record [may "valueSet" (list shape)]

/-- Which properties of an item may be filled in later. -/
def resolvable : Shape := record [must "properties" (list string)]

/-- Which tags are known, if any are. -/
def tagSupport : Shape := either bool (record [must "valueSet" (list int32)])

def markupKinds : Shape := list (oneOf ["plaintext", "markdown"])

def workspaceEditCapabilities : Shape :=
  record [may "documentChanges" bool,
    may "resourceOperations" (list (oneOf ["create", "rename", "delete"])),
    may "failureHandling" (oneOf ["abort", "transactional", "textOnlyTransactional", "undo"]),
    may "normalizesLineEndings" bool,
    may "changeAnnotationSupport" (flags ["groupsOnLabel"])]

def workspaceCapabilities : Shape :=
  record [may "applyEdit" bool, may "workspaceEdit" workspaceEditCapabilities,
    may "didChangeConfiguration" registration,
    may "didChangeWatchedFiles" (flags ["dynamicRegistration", "relativePatternSupport"]),
    may "symbol" (record [may "dynamicRegistration" bool, may "symbolKind" (valueSet int32),
      may "tagSupport" tagSupport, may "resolveSupport" resolvable]),
    may "executeCommand" registration, may "workspaceFolders" bool, may "configuration" bool,
    may "semanticTokens" refreshable, may "codeLens" refreshable,
    may "fileOperations" (flags ["dynamicRegistration", "didCreate", "willCreate", "didRename",
      "willRename", "didDelete", "willDelete"]),
    may "inlineValue" refreshable, may "inlayHint" refreshable, may "diagnostic" refreshable]

def completionCapabilities : Shape :=
  let item := record [may "snippetSupport" bool, may "commitCharactersSupport" bool,
    may "documentationFormat" markupKinds, may "deprecatedSupport" bool,
    may "preselectSupport" bool, may "tagSupport" tagSupport, may "insertReplaceSupport" bool,
    may "resolveSupport" resolvable,
    may "insertTextModeSupport" (record [must "valueSet" (list int32)]),
    may "labelDetailsSupport" bool]
  record [may "dynamicRegistration" bool, may "completionItem" item,
    may "completionItemKind" (valueSet int32), may "contextSupport" bool,
    may "insertTextMode" int32,
    may "completionList" (record [may "itemDefaults" (list string)])]

def signatureHelpCapabilities : Shape :=
  let information := record [may "documentationFormat" markupKinds,
    may "parameterInformation" (flags ["labelOffsetSupport"]), may "activeParameterSupport" bool]
  record [may "dynamicRegistration" bool, may "signatureInformation" information,
    may "contextSupport" bool]

def codeActionCapabilities : Shape :=
  let literals := record [must "codeActionKind" (record [must "valueSet" (list string)])]
  record [may "dynamicRegistration" bool, may "codeActionLiteralSupport" literals,
    may "isPreferredSupport" bool, may "disabledSupport" bool, may "dataSupport" bool,
    may "resolveSupport" resolvable, may "honorsChangeAnnotations" bool]

def foldingRangeCapabilities : Shape :=
  record [may "dynamicRegistration" bool, may "rangeLimit" nat32, may "lineFoldingOnly" bool,
    may "foldingRangeKind" (valueSet (oneOf ["comment", "imports", "region"])),
    may "foldingRange" (flags ["collapsedText"])]

def semanticTokensCapabilities : Shape :=
  let requests :=
    record [may "range" bool, may "full" (either bool (members (mays bool ["delta"])))]
  record ([may "dynamicRegistration" bool, must "requests" requests,
    must "tokenTypes" (list string), must "tokenModifiers" (list string),
    must "formats" (list string)] ++
    mays bool ["overlappingTokenSupport", "multilineTokenSupport", "serverCancelSupport",
      "augmentsSyntaxTokens"])

def documentCapabilities : Shape :=
  let target := flags ["dynamicRegistration", "linkSupport"]
  record [
    may "synchronization"
      (flags ["dynamicRegistration", "willSave", "willSaveWaitUntil", "didSave"]),
    may "completion" completionCapabilities,
    may "hover" (record [may "dynamicRegistration" bool, may "contentFormat" markupKinds]),
    may "signatureHelp" signatureHelpCapabilities, may "references" registration,
    may "documentHighlight" registration,
    may "documentSymbol" (record [may "dynamicRegistration" bool,
      may "symbolKind" (valueSet int32), may "hierarchicalDocumentSymbolSupport" bool,
      may "tagSupport" tagSupport]),
    may "formatting" registration, may "rangeFormatting" registration,
    may "onTypeFormatting" registration, may "declaration" target, may "definition" target,
    may "typeDefinition" target, may "implementation" target,
    may "codeAction" codeActionCapabilities, may "codeLens" registration,
    may "documentLink" (flags ["dynamicRegistration", "tooltipSupport"]),
    may "colorProvider" registration,
    may "rename" (record [may "dynamicRegistration" bool, may "prepareSupport" bool,
      may "prepareSupportDefaultBehavior" int32, may "honorsChangeAnnotations" bool]),
    may "publishDiagnostics" (record [may "relatedInformation" bool, may "tagSupport" tagSupport,
      may "versionSupport" bool, may "codeDescriptionSupport" bool, may "dataSupport" bool]),
    may "foldingRange" foldingRangeCapabilities, may "selectionRange" registration,
    may "linkedEditingRange" registration, may "callHierarchy" registration,
    may "semanticTokens" semanticTokensCapabilities, may "moniker" registration,
    may "typeHierarchy" registration, may "inlineValue" registration,
    may "inlayHint" (record [may "dynamicRegistration" bool, may "resolveSupport" resolvable]),
    may "diagnostic" (flags ["dynamicRegistration", "relatedDocumentSupport"])]

def windowCapabilities : Shape :=
  record [may "workDoneProgress" bool,
    may "showMessage"
      (record [may "messageActionItem" (flags ["additionalPropertiesSupport"])]),
    may "showDocument" (record [must "support" bool])]

def generalCapabilities : Shape :=
  record [
    may "regularExpressions" (record [must "engine" string, may "version" string]),
    may "markdown" (record [must "parser" string, may "version" string,
      may "allowedTags" (list string)]),
    may "staleRequestSupport"
      (record [must "cancel" bool, must "retryOnContentModified" (list string)]),
    may "positionEncodings" (list string)]

def clientCapabilities : Shape :=
  record [may "workspace" workspaceCapabilities, may "textDocument" documentCapabilities,
    may "window" windowCapabilities, may "general" generalCapabilities, may "experimental" any]

end PhoenixLens.EditorMessage
