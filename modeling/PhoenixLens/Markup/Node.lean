import PhoenixLens.Json.Decode
import PhoenixLens.Text.Basic

/-!
# Markup trees

A tree of nodes with byte spans in the text that they were read from. Nodes that no reader of the
tree asks for are kept under their own names.
-/

namespace PhoenixLens.Markup

/-- What a node of a tree stands for. -/
inductive NodeKind where
  | element
  | startTag
  | selfClosingTag
  | endTag
  | tagName
  | attributePair
  | attributeName
  | quotedValue
  | plainValue
  | other (name : String)
deriving DecidableEq, Repr

/-- A node with its span and its children in order. -/
inductive Node where
  | mk (kind : NodeKind) (start stop : Nat) (children : List Node)

namespace NodeKind

def ofName : String → NodeKind
  | "element" => element
  | "start_tag" => startTag
  | "self_closing_tag" => selfClosingTag
  | "end_tag" => endTag
  | "tag_name" => tagName
  | "attribute" => attributePair
  | "attribute_name" => attributeName
  | "quoted_attribute_value" => quotedValue
  | "attribute_value" => plainValue
  | name => other name

end NodeKind

namespace Node

def kind : Node → NodeKind
  | mk kind _ _ _ => kind

def start : Node → Nat
  | mk _ start _ _ => start

def stop : Node → Nat
  | mk _ _ stop _ => stop

def children : Node → List Node
  | mk _ _ _ children => children

/-- The first child of one of the given kinds. -/
def child? (node : Node) (kinds : List NodeKind) : Option Node :=
  node.children.find? fun c => kinds.contains c.kind

/-- The text that a node spans, if both its ends lie between characters of the text. -/
def text? (node : Node) (text : List Char) : Option (List Char) :=
  Text.span? text node.start node.stop

end Node

end PhoenixLens.Markup
