import PhoenixLens.Markup.Extractor
import PhoenixLens.Proofs.Exact.BoundedCache
import PhoenixLens.Proofs.Markup.TreeUses

/-!
# Trees and texts

The uses in a template are the same whether they are read from its tree or from its text. So an
extractor finds them whatever it has been told and asked before: it may keep the tree of the text,
or that of another one, or none.
-/

namespace PhoenixLens.Markup

/-- What an extractor is told or asked. -/
inductive ExtractorCall where
  | rebuild (key : String) (text : List Char)
  | invalidate (key : String)
  | clear
  | ask (key : String) (text : List Char)

namespace UsageExtractor

variable {extractor : UsageExtractor} {known : Set (List Char)}

/-- The uses in a text, with the extractor that has been asked for them. -/
def ask (extractor : UsageExtractor) (key : String) (text : List Char) :
    List ComponentUsage × UsageExtractor :=
  ((extractor.usages key text).1, extractor.touch key)

def follow (extractor : UsageExtractor) : ExtractorCall → UsageExtractor
  | .rebuild key text => extractor.rebuild key text
  | .invalidate key => extractor.invalidate key
  | .clear => extractor.clear
  | .ask key text => (extractor.ask key text).2

def after (extractor : UsageExtractor) (calls : List ExtractorCall) : UsageExtractor :=
  calls.foldl follow extractor

/-- Every tree that is kept is that of a known text, whose digest it has. -/
def KeepsTreesOf (known : Set (List Char)) (extractor : UsageExtractor) : Prop :=
  ∀ key kept, extractor.trees.find? key = some kept →
    ∃ text ∈ known,
      kept = ⟨Text.contentDigest (String.ofList text), (parseTemplate text).root⟩

theorem keepsTreesOf_start (known : Set (List Char)) (capacity : Nat) :
    KeepsTreesOf known { trees := { capacity } } := nofun

theorem KeepsTreesOf.follow (h : extractor.KeepsTreesOf known) {call : ExtractorCall}
    (hKnown : ∀ key text, call = .rebuild key text → text ∈ known) :
    (extractor.follow call).KeepsTreesOf known := by
  intro key kept hKept
  cases call with
  | rebuild other text =>
    obtain ⟨-, rfl⟩ | ⟨-, hBefore⟩ := BoundedCache.find?_set_eq_some hKept
    · exact ⟨text, hKnown other text rfl, rfl⟩
    · exact h key kept hBefore
  | invalidate other =>
    have hErase : (extractor.trees.erase other).find? key = some kept := hKept
    rw [BoundedCache.find?_erase] at hErase
    split at hErase
    · cases hErase
    · exact h key kept hErase
  | clear => cases hKept
  | ask other text =>
    have hTouch : (extractor.trees.touch other).find? key = some kept := hKept
    rw [BoundedCache.find?_touch] at hTouch
    exact h key kept hTouch

theorem KeepsTreesOf.after (h : extractor.KeepsTreesOf known) {calls : List ExtractorCall}
    (hKnown : ∀ key text, .rebuild key text ∈ calls → text ∈ known) :
    (extractor.after calls).KeepsTreesOf known := by
  induction calls generalizing extractor with
  | nil => exact h
  | cons call calls ih =>
    refine ih (h.follow ?_) fun key text hMem => hKnown key text (List.mem_cons_of_mem _ hMem)
    rintro key text rfl
    exact hKnown key text List.mem_cons_self

/-- Whether or not the tree of a text is kept, its uses are found, if nothing else is read from the
tree and no other text has its digest. -/
theorem KeepsTreesOf.ask (h : extractor.KeepsTreesOf known) {text : List Char}
    (hTree : usagesOfTree text (parseTemplate text).root = usagesOf text)
    (hDigest : ∀ other ∈ known, Text.contentDigest (String.ofList other) =
      Text.contentDigest (String.ofList text) → other = text) (key : String) :
    (extractor.ask key text).1 = usagesOf text := by
  rw [UsageExtractor.ask, usages, treeOf?]
  cases hKept : extractor.trees.find? key with
  | none => rfl
  | some kept =>
    obtain ⟨other, hOther, rfl⟩ := h key kept hKept
    rw [Option.bind_some]
    by_cases hSame : Text.contentDigest (String.ofList other) =
        Text.contentDigest (String.ofList text)
    · obtain rfl := hDigest other hOther hSame
      rw [if_pos (beq_iff_eq.mpr rfl)]
      exact hTree
    · rw [if_neg fun hEq => hSame (beq_iff_eq.mp hEq)]

end UsageExtractor

/-- From a tree that shows a template the same uses are read as from its text. If the tree of the
text is such a tree, an extractor finds these uses after any calls, unless it has built a tree of
another text with the same digest. -/
theorem tree_and_text_agree (template : Template true) (hHeight : template.height ≤ maxTreeDepth) :
    (∀ tree : Node, tree.Shows template →
      usagesOfTree template.source tree = usagesOf template.source) ∧
    ((parseTemplate template.source).root.Shows template →
      ∀ (capacity : Nat) (calls : List ExtractorCall) (key : String),
        (∀ other text, .rebuild other text ∈ calls →
          Text.contentDigest (String.ofList text) =
            Text.contentDigest (String.ofList template.source) → text = template.source) →
        ((UsageExtractor.after { trees := { capacity } } calls).ask key template.source).1 =
          usagesOf template.source) := by
  have hTrees : ∀ tree : Node, tree.Shows template →
      usagesOfTree template.source tree = usagesOf template.source := by
    intro tree hShows
    rw [usagesOfTree_source hShows hHeight, template.usagesOf_source]
  refine ⟨hTrees, fun hShows capacity calls key hDigest => ?_⟩
  have hKeeps := (UsageExtractor.keepsTreesOf_start
    {text | ∃ other, .rebuild other text ∈ calls} capacity).after fun other _ hMem => ⟨other, hMem⟩
  exact hKeeps.ask (hTrees _ hShows) (fun text ⟨other, hMem⟩ => hDigest other text hMem) key

-- A name may have an underscore, but the tree of such a text does not show it: there the name of the
-- tag ends at the underscore.
example :
    (usagesInNode "<.my_icon />".toList 0 (parseTemplate "<.my_icon />".toList).root).map
        (·.componentName) = ["my"] ∧
      (usagesOf "<.my_icon />".toList).map (·.componentName) = ["my_icon"] := by
  decide +kernel

theorem isIdentifier_modal : IsIdentifier "modal".toList :=
  ⟨⟨'m', "odal".toList, rfl, rfl⟩, by decide⟩

theorem isIdentifier_title : IsIdentifier "title".toList :=
  ⟨⟨'t', "itle".toList, rfl, rfl⟩, by decide⟩

theorem isIdentifier_x : IsIdentifier "x".toList := ⟨⟨'x', [], rfl, rfl⟩, by decide⟩

theorem isCapitalised_icons : IsCapitalised "Icons".toList :=
  ⟨⟨'I', "cons".toList, rfl, rfl⟩, by decide⟩

theorem isElementName_br : IsElementName "br".toList := ⟨⟨'b', ['r'], rfl, rfl⟩, by decide⟩

/-- A component with a slot, an element without a closing tag and another component in it. -/
def dialog : Template true :=
  let gap : TagGap := ⟨[' '], by decide⟩
  let id : TagAttribute :=
    .quoted ⟨"id".toList, by decide⟩ ⟨"a".toList, by decide, hasNoTag_of_not_mem (by decide)⟩
  let rest : TagAttribute :=
    .spread ⟨"\x7b@rest\x7d".toList, ⟨"@rest\x7d".toList, rfl⟩, by decide,
      hasNoTag_of_not_mem (by decide)⟩
  let isOpen : TagAttribute :=
    .expression ⟨"open".toList, by decide⟩
      ⟨"\x7b@b\x7d".toList, ⟨"@b\x7d".toList, rfl⟩, by decide, hasNoTag_of_not_mem (by decide)⟩
  let solid : TagAttribute := .bare ⟨"solid".toList, by decide⟩
  let ending : TagBlanks := ⟨[], isTagBlank_of_mem_nil⟩
  let modal : ComponentName :=
    { modules := [], name := ⟨"modal".toList, isIdentifier_modal⟩, mark := ⟨[], isMark_nil⟩ }
  let icon : ComponentName :=
    { modules := [⟨"Icons".toList, isCapitalised_icons⟩]
      name := ⟨"x".toList, isIdentifier_x⟩
      mark := ⟨[], isMark_nil⟩ }
  .block (.component modal) ⟨[(gap, id), (gap, rest), (gap, isOpen)], ending⟩
    (.block (.slot ⟨"title".toList, isIdentifier_title⟩) ⟨[], ending⟩
      (.text ⟨"Delete?".toList, hasNoTag_of_not_mem (by decide)⟩ .done)
      (.void ⟨"br".toList, isElementName_br⟩ ⟨[], ending⟩
        (.selfClosing (.component icon) ⟨[(gap, solid)], ending⟩ .done)))
    .done

theorem tree_and_text_agree_dialog :
    dialog.height ≤ maxTreeDepth ∧ (parseTemplate dialog.source).root.Shows dialog ∧
      let calls : List ExtractorCall :=
        [.rebuild "a" dialog.source, .ask "a" "<.b />".toList, .rebuild "b" dialog.source]
      ((UsageExtractor.after { trees := { capacity := 1 } } calls).ask "b" dialog.source).1 =
        usagesOf dialog.source := by
  have hHeight : dialog.height ≤ maxTreeDepth := by decide
  have hShows : (parseTemplate dialog.source).root.Shows dialog :=
    ⟨by decide +kernel, by decide +kernel, fun _ => 61, by decide +kernel⟩
  refine ⟨hHeight, hShows, (tree_and_text_agree dialog hHeight).2 hShows 1 _ "b" ?_⟩
  intro key text hMem _
  simp only [List.mem_cons, List.not_mem_nil, ExtractorCall.rebuild.injEq, or_false, false_or,
    reduceCtorEq] at hMem
  rcases hMem with ⟨-, rfl⟩ | ⟨-, rfl⟩
  · rfl
  · rfl

end PhoenixLens.Markup
