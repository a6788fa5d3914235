import PhoenixLens.Exact.Gateway
import PhoenixLens.Markup.Tree

/-!
# Finding uses of components

Uses of components are taken from the tree of the text where one is kept, then from an exact parser
where the caller can wait for one, and else from the text alone. A tree is kept with the digest of
its text and counts for that text only.
-/

namespace PhoenixLens.Markup

/-- A tree with the digest of the text that it was read from. -/
structure KeptTree where
  digest : String
  tree : Node

/-- Where uses were taken from. -/
inductive Tier where
  | tree
  | exact
  | text
deriving DecidableEq, Repr

/-- Trees by document. -/
structure UsageExtractor where
  trees : BoundedCache String KeptTree := { capacity := 100 }

namespace UsageExtractor

/-- Reads the tree of a text and keeps it. -/
def rebuild (extractor : UsageExtractor) (key : String) (text : List Char) : UsageExtractor :=
  let kept := ⟨Text.contentDigest (String.ofList text), (parseTemplate text).root⟩
  { trees := extractor.trees.set key kept }

def invalidate (extractor : UsageExtractor) (key : String) : UsageExtractor :=
  { trees := extractor.trees.erase key }

def clear (extractor : UsageExtractor) : UsageExtractor := { trees := extractor.trees.clear }

/-- The tree kept for a document, if it is that of the text. -/
def treeOf? (extractor : UsageExtractor) (key : String) (text : List Char) : Option Node :=
  (extractor.trees.find? key).bind fun kept =>
    if kept.digest == Text.contentDigest (String.ofList text) then some kept.tree else none

/-- Asking for a tree counts as using it, whether or not it is that of the text. -/
def touch (extractor : UsageExtractor) (key : String) : UsageExtractor :=
  { trees := extractor.trees.touch key }

/-- The uses in a text, from its tree or else from the text. -/
def usages (extractor : UsageExtractor) (key : String) (text : List Char) :
    List ComponentUsage × Tier :=
  match extractor.treeOf? key text with
  | some tree => (usagesOfTree text tree, .tree)
  | none => (usagesOf text, .text)

/-- The uses that an exact parser has reported, in order of their open tags. -/
def ofReport (text : List Char) (reported : List ReportedUsage) : List ComponentUsage :=
  (reported.filterMap (·.toUsage? text)).mergeSort fun a b => a.openTagStart ≤ b.openTagStart

/-- The uses in a text, where an exact parser may be asked. -/
def usagesExact {m : Type → Type} [Monad m] (extractor : UsageExtractor) (path : Path)
    (key : String) (text : List Char) : Parsing m (List ComponentUsage × Tier) := do
  match extractor.treeOf? key text with
  | some tree => return (usagesOfTree text tree, .tree)
  | none =>
    match ← Gateway.parseExact .markup path (String.ofList text) with
    | .ok reported => return (ofReport text reported, .exact)
    | .error _ => return (usagesOf text, .text)

/-- The uses that contain an offset, from the outside in. -/
def stackAt (extractor : UsageExtractor) (key : String) (text : List Char) (offset : Nat) :
    List ComponentUsage :=
  usageStack (extractor.usages key text).1 offset

def innermostAt? (extractor : UsageExtractor) (key : String) (text : List Char) (offset : Nat) :
    Option ComponentUsage :=
  (extractor.stackAt key text offset).getLast?

end UsageExtractor

end PhoenixLens.Markup
