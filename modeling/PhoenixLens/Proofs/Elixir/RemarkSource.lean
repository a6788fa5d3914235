import PhoenixLens.Proofs.Elixir.RemarkScan

/-!
# Sources with a comment behind a line

A comment behind a physical line that completes a logical line stays in that logical line, and the
other ones do not change. So a scanner finds the same in both sources where it takes up the line
with its comment as it takes up the line.
-/

namespace PhoenixLens

namespace Elixir

/-! ### Logical lines -/

/-- The logical line that a physical line continues or completes, unless it belongs to a heredoc or
opens one. -/
def Joining.draftOf? (state : Joining) (number : Nat) (line : List Char) : Option Draft :=
  match state.heredoc with
  | some h => (h.delimiter.isPrefixOf? (Text.trimStart line)).map (closeHeredoc state.draft h)
  | none =>
    if (heredocOpening? line).isSome then none else some (extend state.draft number line none)

/-- What is unfinished behind some physical lines, and the logical lines that they finish. -/
def Joining.through (state : Joining) (number : Nat) : List (List Char) → Joining × List LogicalLine
  | [] => (state, [])
  | line :: lines =>
    let (next, finished) := takeLine state number line
    let (last, more) := next.through (number + 1) lines
    (last, finished ++ more)

theorem takeLine_of_draftOf? {state : Joining} {number : Nat} {line : List Char} {draft : Draft}
    (h : state.draftOf? number line = some draft) : takeLine state number line = settle draft := by
  rw [Joining.draftOf?] at h
  rw [takeLine]
  cases hHeredoc : state.heredoc with
  | some heredoc =>
    simp only [hHeredoc] at h
    obtain ⟨rest, hRest, rfl⟩ := Option.map_eq_some_iff.mp h
    simp only [hRest]
  | none =>
    simp only [hHeredoc] at h
    split at h
    · cases h
    · rename_i hOpening
      rw [Option.not_isSome_iff_eq_none] at hOpening
      simp only [hOpening]
      rw [Option.some.inj h]

theorem joinLines_append (state : Joining) (number : Nat) (lines more : List (List Char)) :
    joinLines state number (lines ++ more) =
      (state.through number lines).2 ++
        joinLines (state.through number lines).1 (number + lines.length) more := by
  induction lines generalizing state number with
  | nil => simp [Joining.through]
  | cons line lines ih =>
    simp only [List.cons_append, joinLines, ih, Joining.through, List.length_cons,
      List.append_assoc, Nat.add_assoc, Nat.add_comm 1]

section Lines

variable {p : Char → Prop}

theorem extend_remark {line other : List Char} (h : Remarked p line other) (draft : Option Draft)
    (number : Nat) (heredoc : Option (List Char)) :
    ∃ text, Remarked p (extend draft number line heredoc).text text ∧
      extend draft number other heredoc = { extend draft number line heredoc with text } := by
  cases draft with
  | none => exact ⟨other, h, rfl⟩
  | some draft =>
    refine ⟨draft.text ++ ' ' :: Text.trim other, ?_, rfl⟩
    have hTrim := h.trim.append_left (draft.text ++ [' '])
    rwa [List.append_assoc, List.append_assoc] at hTrim

theorem draftOf?_remark {state : Joining} {number : Nat} {line other : List Char} {draft : Draft}
    (hLine : Remarked p line other) (hOther : heredocOpening? other = none)
    (h : state.draftOf? number line = some draft) :
    ∃ text, Remarked p draft.text text ∧
      state.draftOf? number other = some { draft with text } := by
  rw [Joining.draftOf?] at h ⊢
  cases hHeredoc : state.heredoc with
  | some heredoc =>
    simp only [hHeredoc] at h
    obtain ⟨rest, hRest, rfl⟩ := Option.map_eq_some_iff.mp h
    obtain ⟨remark, hRemark, hTrim⟩ := hLine.trimStart
    have hRestOther : heredoc.delimiter.isPrefixOf? (Text.trimStart other) =
        some (rest ++ remark) := by
      rw [List.isPrefixOf?_eq_some_iff_append_eq, hTrim,
        ← List.isPrefixOf?_eq_some_iff_append_eq.mp hRest, List.append_assoc]
    have hText : Remarked p (heredoc.before ++ '"' :: '"' :: rest)
        (heredoc.before ++ '"' :: '"' :: (rest ++ remark)) :=
      ⟨remark, hRemark, by simp⟩
    obtain ⟨text, hDraft, hExtend⟩ :=
      extend_remark hText state.draft heredoc.line (some (dedent heredoc.body.reverse))
    exact ⟨text, hDraft, by simp only [hRestOther, Option.map_some, closeHeredoc, hExtend]⟩
  | none =>
    simp only [hHeredoc] at h
    split at h
    · cases h
    · cases h
      obtain ⟨text, hDraft, hExtend⟩ := extend_remark hLine state.draft number none
      refine ⟨text, hDraft, ?_⟩
      rw [hOther, hExtend]
      rfl

/-- Only the text of one logical line changes. -/
theorem logicalLines_remark {source commented : List Char} {before after : List (List Char)}
    {line other : List Char} {draft : Draft} (hSource : Text.lines source = before ++ line :: after)
    (hCommented : Text.lines commented = before ++ other :: after) (hLine : Remarked p line other)
    (hOther : heredocOpening? other = none)
    (hDraft : (Joining.through {} 1 before).1.draftOf? (before.length + 1) line = some draft)
    (hCode : EndsInCode draft.text) (hEnds : needsContinuation draft.text = false) :
    ∃ front rest text, Remarked p draft.text text ∧
      logicalLines source = front ++ draft.toLogicalLine :: rest ∧
      logicalLines commented = front ++ { draft.toLogicalLine with text } :: rest := by
  obtain ⟨text, hText, hDraftOther⟩ := draftOf?_remark hLine hOther hDraft
  refine ⟨(Joining.through {} 1 before).2, joinLines {} (before.length + 1 + 1) after, text, hText,
    ?_, ?_⟩
  · rw [logicalLines, hSource, joinLines_append, joinLines, Nat.add_comm 1,
      takeLine_of_draftOf? hDraft, settle, hEnds]
    rfl
  · rw [logicalLines, hCommented, joinLines_append, joinLines, Nat.add_comm 1,
      takeLine_of_draftOf? hDraftOther, settle, hText.needsContinuation_eq hCode, hEnds]
    rfl

end Lines

end Elixir

/-! ### Scanners -/

/-- A comment behind the line does not reach what a scanner of the kind reads. -/
def EntityKind.AllowsComment (line : Elixir.LogicalLine) (comment : List Char) :
    EntityKind → Prop
  | .routes =>
    ∀ name ∈ Elixir.routerArgumentMacros, Elixir.callsBare name (Text.trim line.text) = false
  | .components =>
    ∀ name ∈ Elixir.componentMacros, Elixir.callsBare name (Text.trim line.text) = false
  | .schemas => ∀ name ∈ Elixir.schemaMacros, Elixir.callsBare name (Text.trim line.text) = false
  | .events =>
    Elixir.DocumentsByHeredoc line ∧ Text.trim line.text ≠ "def".toList ∧
      Text.trim line.text ≠ "defp".toList
  | .controllers =>
    Elixir.bindsVariable (Text.trim line.text) = false ∧
      ∀ c ∈ comment, Elixir.isClosing c = false
  | .templates => False

namespace Elixir

/-- Lines that a router takes up alike declare the same routes. -/
theorem routesOfLines_congr {file : Path} {line other : LogicalLine}
    (h : ∀ state : RouterState, state.takeLine file other = state.takeLine file line)
    (state : RouterState) (front rest : List LogicalLine) :
    routesOfLines file state (front ++ other :: rest) =
      routesOfLines file state (front ++ line :: rest) := by
  induction front generalizing state with
  | nil => rw [List.nil_append, List.nil_append, routesOfLines, routesOfLines, h]
  | cons first front ih => simp only [List.cons_append, routesOfLines, ih]

theorem foldl_congr_at {σ : Type} {take : σ → LogicalLine → σ} {line other : LogicalLine}
    (h : ∀ state, take state other = take state line) (state : σ) (front rest : List LogicalLine) :
    (front ++ other :: rest).foldl take state = (front ++ line :: rest).foldl take state := by
  rw [List.foldl_append, List.foldl_append, List.foldl_cons, List.foldl_cons, h]

end Elixir

/-- A comment is insignificant behind a line that completes a logical line outside of strings,
if it does not open a heredoc and does not reach what the scanner reads. -/
theorem EntityKind.scan_remark (disk : Disk) (path : Path) {kind : EntityKind}
    {source commented : List Char} {before after : List (List Char)} {line comment : List Char}
    {draft : Elixir.Draft} (hSource : Text.lines source = before ++ line :: after)
    (hCommented : Text.lines commented = before ++ (line ++ ' ' :: '#' :: comment) :: after)
    (hOpening : Elixir.heredocOpening? (line ++ ' ' :: '#' :: comment) = none)
    (hDraft : (Elixir.Joining.through {} 1 before).1.draftOf? (before.length + 1) line =
      some draft)
    (hCode : Elixir.EndsInCode draft.text) (hEnds : Elixir.needsContinuation draft.text = false)
    (hAllows : kind.AllowsComment draft.toLogicalLine comment) :
    kind.scan disk path commented = kind.scan disk path source := by
  let p : Char → Prop := fun c => c ≠ '\n' ∧ (kind = .controllers → Elixir.isClosing c = false)
  have hBreak : '\n' ∉ comment := by
    intro hMem
    refine @Text.not_mem_of_mem_lines commented (line ++ ' ' :: '#' :: comment) ?_ ?_
    · rw [hCommented]
      exact List.mem_append_right _ List.mem_cons_self
    · simp [hMem]
  have hComment : ∀ c ∈ comment, p c := by
    intro c hc
    refine ⟨fun hEq => hBreak (hEq ▸ hc), ?_⟩
    rintro rfl
    exact hAllows.2 c hc
  have hLine : Elixir.Remarked p line (line ++ ' ' :: '#' :: comment) :=
    ⟨_, ⟨[' '], comment, by decide, hComment, rfl⟩, rfl⟩
  obtain ⟨front, rest, text, hText, hLines, hLinesCommented⟩ :=
    Elixir.logicalLines_remark hSource hCommented hLine hOpening hDraft hCode hEnds
  have hWhole := Elixir.IsWhole.of_ends hCode hEnds
  have hp : ∀ c, p c → c ≠ '\n' := fun c hc => hc.1
  cases kind with
  | routes =>
    have hTake := fun state => hText.takeLine_router hp hWhole hAllows state path
    change Elixir.routesOf path commented = Elixir.routesOf path source
    rw [Elixir.routesOf, Elixir.routesOf, hLines, hLinesCommented]
    exact Elixir.routesOfLines_congr hTake {} front rest
  | components =>
    have hTake := fun state => hText.takeLine_component hp hWhole hAllows state path
    change Elixir.componentsOf path commented = Elixir.componentsOf path source
    rw [Elixir.componentsOf, Elixir.componentsOf, hLines, hLinesCommented,
      Elixir.foldl_congr_at hTake]
  | schemas =>
    have hTake := fun state => hText.takeLine_schema hp hWhole hAllows state path
    change Elixir.schemasOf path commented = Elixir.schemasOf path source
    simp only [Elixir.schemasOf, hLines, hLinesCommented, Elixir.foldl_congr_at hTake]
  | events =>
    obtain ⟨hDoc, hDef, hDefp⟩ := hAllows
    have hTake := fun state => hText.takeLine_event hp hWhole hDoc hDef hDefp state path
    change Elixir.eventsOf path commented = Elixir.eventsOf path source
    rw [Elixir.eventsOf, Elixir.eventsOf, hLines, hLinesCommented, Elixir.foldl_congr_at hTake]
  | controllers =>
    have hClosing : ∀ c, p c → c ≠ '\n' ∧ Elixir.isClosing c = false :=
      fun c hc => ⟨hc.1, hc.2 rfl⟩
    have hTake := fun state => hText.takeLine_controller hClosing hWhole hAllows.1 state path
    change Elixir.controllersOf path commented = Elixir.controllersOf path source
    simp only [Elixir.controllersOf, hLines, hLinesCommented, Elixir.foldl_congr_at hTake]
  | templates => exact hAllows.elim

/-- A router with one scope, which the given line opens. -/
def routerWithScope (opening : String) : List Char :=
  ("defmodule AppWeb.Router do\n" ++ opening ++
    "\n    get \"/users\", UserController, :index\n  end\nend\n").toList

theorem scan_remark_scope :
    EntityKind.routes.scan {} ⟨"/app/router.ex"⟩
        (routerWithScope "  scope(\"/admin\") do # staff") =
      EntityKind.routes.scan {} ⟨"/app/router.ex"⟩ (routerWithScope "  scope(\"/admin\") do") := by
  have hAllows : ∀ name ∈ Elixir.routerArgumentMacros,
      Elixir.callsBare name (Text.trim "  scope(\"/admin\") do".toList) = false := by
    decide
  refine @EntityKind.scan_remark {} ⟨"/app/router.ex"⟩ .routes _ _
    ["defmodule AppWeb.Router do".toList]
    ["    get \"/users\", UserController, :index".toList, "  end".toList, "end".toList]
    "  scope(\"/admin\") do".toList " staff".toList
    { line := 2, text := "  scope(\"/admin\") do".toList } ?_ ?_ ?_ ?_ ?_ ?_ hAllows
  all_goals decide +kernel

/-- Without parentheses the comment is read as a part of the path, and the scope loses it. -/
theorem scope_loses_path_to_comment :
    (Elixir.routesOf ⟨"/app/router.ex"⟩ (routerWithScope "  scope \"/admin\" do")).map Route.path =
        ["/admin/users"] ∧
      (Elixir.routesOf ⟨"/app/router.ex"⟩ (routerWithScope "  scope \"/admin\" do # staff")).map
        Route.path = ["/users"] := by
  constructor
  all_goals decide

end PhoenixLens
