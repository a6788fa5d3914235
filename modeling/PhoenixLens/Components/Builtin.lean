import PhoenixLens.Model.Component

/-!
# What comes with the framework

The components that every template can use, and the attributes that HTML and the framework itself
give a meaning to.
-/

namespace PhoenixLens

/-- The module of the components that come with the framework. -/
def builtinModule : String := "Phoenix.Component"

/-- HTML attributes that a component with global attributes takes. -/
def htmlAttributes : List String :=
  ["accesskey", "autocapitalize", "autocomplete", "autocorrect", "autofocus", "class",
    "contenteditable", "dir", "draggable", "enterkeyhint", "exportparts", "hidden", "id", "inert",
    "inputmode", "is", "itemid", "itemprop", "itemref", "itemscope", "itemtype", "lang", "nonce",
    "part", "popover", "role", "slot", "spellcheck", "style", "tabindex", "title", "translate",
    "accept", "action", "alt", "checked", "cols", "colspan", "disabled", "download", "enctype",
    "for", "form", "formaction", "height", "href", "hreflang", "max", "maxlength", "method", "min",
    "minlength", "multiple", "name", "pattern", "placeholder", "readonly", "rel", "required",
    "rows", "rowspan", "selected", "size", "src", "step", "target", "type", "value", "width",
    "onblur", "onchange", "onclick", "onfocus", "oninput", "onkeydown", "onkeyup", "onsubmit"]

def isHtmlAttribute (name : String) : Bool := htmlAttributes.contains name

/-- Attributes that any tag of a template takes. -/
def isAlwaysAllowed (name : String) : Bool :=
  [":if", ":for", ":let", ":key"].contains name ||
    ["phx-", "data-", "aria-"].any fun start => Text.startsWith start name.toList

def optionalAttribute (name type : String) : Attribute := { name, type }

def requiredAttribute (name type : String) : Attribute := { name, type, required := true }

/-- The attribute that stands for any HTML attribute. -/
def globalRest : Attribute := optionalAttribute "rest" "global"

def optionalSlot (name : String) : Slot := { name }

def requiredSlot (name : String) : Slot := { name, required := true }

/-- The components that come with the framework, in order of their names. -/
def builtinComponents : List Component :=
  [component "async_result" [requiredAttribute "assign" "Phoenix.LiveView.AsyncResult"]
      [optionalSlot innerBlock, optionalSlot "loading", optionalSlot "failed"],
    component "dynamic_tag"
      [requiredAttribute "tag_name" "string", optionalAttribute "name" "string", globalRest]
      [optionalSlot innerBlock],
    component "focus_wrap" [requiredAttribute "id" "string", globalRest] [requiredSlot innerBlock],
    component "form"
      [requiredAttribute "for" "any", optionalAttribute "as" "atom",
        optionalAttribute "action" "string", optionalAttribute "method" "string",
        optionalAttribute "multipart" "boolean", optionalAttribute "csrf_token" "any",
        optionalAttribute "errors" "list", globalRest]
      [requiredSlot innerBlock],
    component "inputs_for"
      [requiredAttribute "field" "Phoenix.HTML.FormField", optionalAttribute "id" "string",
        optionalAttribute "as" "atom", optionalAttribute "default" "any",
        optionalAttribute "prepend" "list", optionalAttribute "append" "list",
        optionalAttribute "skip_hidden" "boolean",
        optionalAttribute "skip_persistent_id" "boolean", optionalAttribute "options" "list"]
      [requiredSlot innerBlock],
    component "intersperse" [requiredAttribute "enum" "any"]
      [requiredSlot innerBlock, requiredSlot "separator"],
    component "link"
      [optionalAttribute "navigate" "string", optionalAttribute "patch" "string",
        optionalAttribute "href" "any", optionalAttribute "replace" "boolean",
        optionalAttribute "method" "string", optionalAttribute "csrf_token" "any", globalRest]
      [requiredSlot innerBlock],
    component "live_component"
      [requiredAttribute "module" "atom", requiredAttribute "id" "string", globalRest] [],
    component "live_file_input"
      [requiredAttribute "upload" "Phoenix.LiveView.UploadConfig",
        optionalAttribute "accept" "string", globalRest] [],
    component "live_img_preview"
      [requiredAttribute "entry" "Phoenix.LiveView.UploadEntry", globalRest] [],
    component "live_title"
      [optionalAttribute "prefix" "string", optionalAttribute "suffix" "string",
        optionalAttribute "default" "string"]
      [requiredSlot innerBlock]]
where
  /-- A component of the framework; it stands in no file of the project. -/
  component (name : String) (attributes : List Attribute) (slots : List Slot) : Component :=
    { name, moduleName := builtinModule, line := 0, attributes, slots }

/-- The component of a name that comes with the framework. -/
def builtinComponent? (name : String) : Option Component :=
  builtinComponents.find? (·.name == name)

end PhoenixLens
