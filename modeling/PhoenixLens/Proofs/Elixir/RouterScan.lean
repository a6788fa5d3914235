import PhoenixLens.Proofs.Elixir.RouterReading
import PhoenixLens.Proofs.Elixir.SourceLines

/-!
# The routes of written routers

The lines of a router are taken up one by one, with a stack of open blocks between them. The routes
found that way are those of the tree that the lines were written for: a block leaves the stack as it
found it, and what is open at a line is the place of its declaration in the tree.
-/

namespace PhoenixLens.Elixir

/-! ### Physical lines -/

namespace RouterTree

theorem length_lines (width : Nat) {pipes : Bool} (depth : Nat) (tree : RouterTree pipes) :
    (tree.lines width depth).length = tree.height := by
  induction tree generalizing depth with
  | done => rfl
  | leaf declaration next ih => rw [lines, List.length_cons, ih, height, Nat.add_comm]
  | pipeThrough names next ih => rw [lines, List.length_cons, ih, height, Nat.add_comm]
  | block opening body next ihBody ihNext =>
    rw [lines, List.length_cons, List.length_append, List.length_cons, ihBody, ihNext, height]
    omega

end RouterTree

theorem RouterLeaf.opens_line (leaf : RouterLeaf) : leaf.line.opens = false := by
  cases leaf <;> rfl

theorem RouterOpening.opens_line (opening : RouterOpening) : opening.line.opens = true := by
  cases opening <;> rfl

/-! ### Runs -/

namespace RouterState

def after (state : RouterState) (file : Path) (lines : List LogicalLine) : RouterState :=
  lines.foldl (fun state line => (state.takeLine file line).1) state

theorem after_append (state : RouterState) (file : Path) (lines more : List LogicalLine) :
    state.after file (lines ++ more) = (state.after file lines).after file more :=
  List.foldl_append

end RouterState

theorem routesOfLines_cons (file : Path) (state : RouterState) (line : LogicalLine)
    (lines : List LogicalLine) :
    routesOfLines file state (line :: lines) =
      (state.takeLine file line).2 ++ routesOfLines file (state.takeLine file line).1 lines := rfl

theorem routesOfLines_append (file : Path) (state : RouterState) (lines more : List LogicalLine) :
    routesOfLines file state (lines ++ more) =
      routesOfLines file state lines ++ routesOfLines file (state.after file lines) more := by
  induction lines generalizing state with
  | nil => rfl
  | cons line lines ih =>
    rw [List.cons_append, routesOfLines_cons, routesOfLines_cons, ih, List.append_assoc]
    rfl

namespace RouterState

variable {s t u : RouterState}

/-- The states have the same open blocks. -/
structure Agrees (s t : RouterState) : Prop where
  depth : t.tracker.depth = s.tracker.depth
  frames : t.frames = s.frames
  rootPipelines : t.rootPipelines = s.rootPipelines

/-- The states have the same open blocks, but pipelines may have been added to the innermost. -/
structure Continues (s t : RouterState) : Prop where
  depth : t.tracker.depth = s.tracker.depth
  outer : t.frames.tail = s.frames.tail
  outerDepths : t.frames.map OpenFrame.outerDepth = s.frames.map OpenFrame.outerDepth
  rootPipelines : s.frames ≠ [] → t.rootPipelines = s.rootPipelines

theorem Agrees.refl (s : RouterState) : Agrees s s := ⟨rfl, rfl, rfl⟩

theorem Agrees.trans (hFirst : Agrees s t) (hSecond : Agrees t u) : Agrees s u :=
  ⟨hSecond.depth.trans hFirst.depth, hSecond.frames.trans hFirst.frames,
    hSecond.rootPipelines.trans hFirst.rootPipelines⟩

theorem Agrees.context (h : Agrees s t) : t.context = s.context := by
  rw [RouterState.context, h.frames, h.rootPipelines, RouterState.context]

theorem Agrees.inPipeline (h : Agrees s t) : t.inPipeline = s.inPipeline := by
  rw [RouterState.inPipeline, h.frames, RouterState.inPipeline]

theorem Agrees.continues (h : Agrees s t) : Continues s t :=
  ⟨h.depth, congrArg _ h.frames, congrArg _ h.frames, fun _ => h.rootPipelines⟩

theorem Continues.trans (hFirst : Continues s t) (hSecond : Continues t u) : Continues s u := by
  refine ⟨hSecond.depth.trans hFirst.depth, hSecond.outer.trans hFirst.outer,
    hSecond.outerDepths.trans hFirst.outerDepths, fun hOpen => ?_⟩
  have hStillOpen : t.frames ≠ [] := by
    intro hNone
    have hDepths := hFirst.outerDepths
    rw [hNone] at hDepths
    exact hOpen (List.map_eq_nil_iff.mp hDepths.symm)
  exact (hSecond.rootPipelines hStillOpen).trans (hFirst.rootPipelines hOpen)

/-- Every open block has been opened in fewer blocks than are open now. -/
def IsStacked (state : RouterState) : Prop :=
  ∀ f ∈ state.frames, f.outerDepth < state.tracker.depth

/-- The innermost open block is a scope, or no block is open. -/
def InScope (state : RouterState) : Prop :=
  state.frames = [] ∨ ∃ path alias? helper? pipelines depth outer,
    state.frames = ⟨.scope path alias? helper? pipelines, depth⟩ :: outer

/-- The state before a tree that may name pipelines if `pipes` says so. -/
structure IsReady (pipes : Bool) (state : RouterState) : Prop where
  inPipeline : state.inPipeline = false
  isStacked : state.IsStacked
  inScope : pipes = true → state.InScope

theorem IsStacked.of_agrees (hStacked : s.IsStacked) (h : Agrees s t) : t.IsStacked := by
  rw [IsStacked, h.frames, h.depth]
  exact hStacked

theorem IsReady.of_agrees {pipes : Bool} (hReady : IsReady pipes s) (h : Agrees s t) :
    IsReady pipes t := by
  refine ⟨h.inPipeline.trans hReady.inPipeline, hReady.isStacked.of_agrees h, ?_⟩
  rw [InScope, h.frames]
  exact hReady.inScope

/-! ### Steps -/

theorem settle_of_blocks {line : List Char} {opens closes depth : Nat}
    {closed kept : List OpenFrame} (hBlocks : blockDelta line = (opens, closes))
    (hDepth : s.tracker.depth + opens - closes = depth) (hFrames : s.frames = closed ++ kept)
    (hClosed : ∀ f ∈ closed, depth ≤ f.outerDepth) (hKept : ∀ f ∈ kept, f.outerDepth < depth) :
    (s.settle line).tracker.depth = depth ∧ (s.settle line).frames = kept ∧
      (s.settle line).rootPipelines = s.rootPipelines := by
  have hSettled : (s.settle line).tracker.depth = depth := by
    simp [RouterState.settle, BlockTracker.advance, hBlocks, hDepth]
  refine ⟨hSettled, ?_, rfl⟩
  have hDropped : (s.settle line).frames =
      s.frames.dropWhile fun f => (s.settle line).tracker.depth ≤ f.outerDepth := rfl
  rw [hDropped, hSettled, hFrames,
    List.dropWhile_append_of_pos fun f hf => by simpa using hClosed f hf]
  cases kept with
  | nil => rfl
  | cons f kept => rw [List.dropWhile_cons_of_neg (by simpa using hKept f List.mem_cons_self)]

theorem settle_agrees {line : List Char} (hBlocks : blockDelta line = (0, 0))
    (hStacked : s.IsStacked) : Agrees s (s.settle line) := by
  obtain ⟨hDepth, hFrames, hRoot⟩ := settle_of_blocks hBlocks rfl (List.nil_append _).symm
    nofun hStacked
  exact ⟨hDepth, hFrames, hRoot⟩

theorem takeLine_eq {line text : List Char} (hPipeline : s.inPipeline = false)
    (hText : Text.trim line = text) (file : Path) (n : Nat) :
    s.takeLine file { line := n, text := line } =
      ((s.apply file n (readRouterLine s.context file n text)).1.settle line,
        (s.apply file n (readRouterLine s.context file n text)).2) := by
  simp [RouterState.takeLine, hPipeline, hText]

theorem takeLine_inPipeline (hPipeline : s.inPipeline = true) (file : Path) (n : Nat)
    (line : List Char) :
    s.takeLine file { line := n, text := line } = (s.settle line, []) := by
  simp [RouterState.takeLine, hPipeline, RouterState.apply]

theorem takeLine_end (s : RouterState) (file : Path) (n width : Nat) :
    s.takeLine file { line := n, text := List.replicate width ' ' ++ "end".toList } =
      (s.settle (List.replicate width ' ' ++ "end".toList), []) := by
  cases hPipeline : s.inPipeline with
  | true => exact takeLine_inPipeline hPipeline file n _
  | false =>
    rw [takeLine_eq hPipeline (trim_end width), readRouterLine_end]
    rfl

/-- The end of a block gives the blocks back that were open before it. -/
theorem settle_end (opened : List OpenFrame) (hStacked : s.IsStacked)
    (hOpened : ∀ f ∈ opened, f.outerDepth = s.tracker.depth) (width : Nat)
    (hDepth : t.tracker.depth = s.tracker.depth + 1) (hFrames : t.frames = opened ++ s.frames)
    (hRoot : t.rootPipelines = s.rootPipelines) :
    Agrees s (t.settle (List.replicate width ' ' ++ "end".toList)) := by
  obtain ⟨hNow, hLeft, hKept⟩ := settle_of_blocks (IsOwnLine.of_end width).blocks
    (show t.tracker.depth + 0 - 1 = s.tracker.depth by omega) hFrames
    (fun f hf => Nat.le_of_eq (hOpened f hf).symm) hStacked
  exact ⟨hNow, hLeft, hKept.trans hRoot⟩

theorem settle_opening {line : List Char} (hBlocks : blockDelta line = (1, 0))
    (hStacked : ∀ f ∈ s.frames, f.outerDepth < s.tracker.depth + 1) :
    (s.settle line).tracker.depth = s.tracker.depth + 1 ∧ (s.settle line).frames = s.frames ∧
      (s.settle line).rootPipelines = s.rootPipelines :=
  settle_of_blocks hBlocks rfl (List.nil_append _).symm nofun hStacked

end RouterState

/-! ### Blocks -/

section

variable {file : Path} {n : Nat} {line last : List Char} {body : List (List Char)}
  (next : List (List Char)) {s t u v : RouterState} {routes inner : List Route}

theorem run_line (hLine : s.takeLine file { line := n, text := line } = (t, routes)) :
    routesOfLines file s (numbered n (line :: next)) =
        routes ++ routesOfLines file t (numbered (n + 1) next) ∧
      s.after file (numbered n (line :: next)) = t.after file (numbered (n + 1) next) := by
  rw [numbered, routesOfLines_cons, RouterState.after, List.foldl_cons, hLine]
  exact ⟨rfl, rfl⟩

theorem run_block (hLine : s.takeLine file { line := n, text := line } = (t, routes))
    (hRoutes : routesOfLines file t (numbered (n + 1) body) = inner)
    (hAfter : t.after file (numbered (n + 1) body) = u)
    (hLast : u.takeLine file { line := n + 1 + body.length, text := last } = (v, [])) :
    routesOfLines file s (numbered n (line :: (body ++ last :: next))) =
        routes ++ inner ++ routesOfLines file v (numbered (n + (1 + (body.length + 1))) next) ∧
      s.after file (numbered n (line :: (body ++ last :: next))) =
        v.after file (numbered (n + (1 + (body.length + 1))) next) := by
  have hNumber : n + 1 + body.length + 1 = n + (1 + (body.length + 1)) := by omega
  obtain ⟨hFirst, hFirstAfter⟩ := run_line (body ++ last :: next) hLine
  obtain ⟨hEnd, hEndAfter⟩ := run_line next hLast
  rw [hNumber] at hEnd hEndAfter
  rw [hFirst, hFirstAfter, numbered_append, routesOfLines_append, RouterState.after_append, hRoutes,
    hAfter, hEnd, hEndAfter, List.nil_append, List.append_assoc]
  exact ⟨rfl, rfl⟩

end

/-! ### Places -/

namespace RouterContext

/-- A context with a further block in it. -/
def within (context : RouterContext) (frame : RouterFrame) : RouterContext :=
  { context with frames := context.frames ++ [frame] }

variable (context : RouterContext) (frame : RouterFrame)

theorem joinAll_concat (paths : List (List Char)) (path : List Char) :
    joinAll (paths ++ [path]) = joinRoutePaths (joinAll paths) path := List.foldl_concat ..

theorem filterMap_within {α : Type} (read : RouterFrame → Option α) :
    (context.within frame).frames.filterMap read =
      context.frames.filterMap read ++ (read frame).toList := by
  rw [within, List.filterMap_append]
  cases h : read frame <;> simp [h]

theorem outerPath_within :
    (context.within frame).outerPath =
      frame.path?.elim context.outerPath (joinRoutePaths context.outerPath) := by
  rw [outerPath, filterMap_within]
  cases frame.path? with
  | none => simp [outerPath]
  | some path => exact joinAll_concat _ path

theorem scopePath?_within :
    (context.within frame).scopePath? =
      frame.scopePath?.elim context.scopePath?
        fun path => some (joinRoutePaths (context.scopePath?.getD []) path) := by
  simp only [scopePath?, filterMap_within]
  cases frame.scopePath? with
  | none => simp
  | some path =>
    cases context.frames.filterMap RouterFrame.scopePath? with
    | nil => rfl
    | cons first more => exact congrArg some (joinAll_concat (first :: more) path)

theorem pipelines_within :
    (context.within frame).pipelines = context.pipelines ++ frame.pipelineNames := by
  simp [pipelines, within]

theorem place_within :
    (context.within frame).place =
      { outerPath := frame.path?.elim context.outerPath (joinRoutePaths context.outerPath)
        scopePath := frame.scopePath?.elim context.scopePath?
          fun path => some (joinRoutePaths (context.scopePath?.getD []) path)
        aliases := context.place.aliases ++ frame.aliasName?.toList
        helpers := context.place.helpers ++ frame.helperName?.toList
        pipelines := context.pipelines ++ frame.pipelineNames } := by
  rw [place, outerPath_within, scopePath?_within, pipelines_within, filterMap_within,
    filterMap_within]
  rfl

end RouterContext

namespace RouterState

variable {s t u : RouterState}

theorem context_push (s : RouterState) (frame : RouterFrame) :
    (s.push frame).context = s.context.within frame := by
  simp [RouterState.context, RouterState.push, RouterContext.within]

/-- An open block adds to the place of its body what the meaning of a tree says. -/
theorem place_push {opening : RouterOpening} {place : RouterPlace}
    (h : opening.inner? s.context.place = some place) :
    (s.push opening.frame).context.place = place := by
  rw [context_push, RouterContext.place_within]
  cases opening with
  | scope path alias? as? =>
    rw [← Option.some.inj h]
    simp [RouterOpening.frame, RouterFrame.path?, RouterFrame.scopePath?, RouterFrame.aliasName?,
      RouterFrame.helperName?, RouterFrame.pipelineNames, RouterContext.place]
  | liveSession name =>
    rw [← Option.some.inj h]
    simp [RouterOpening.frame, RouterFrame.path?, RouterFrame.scopePath?, RouterFrame.aliasName?,
      RouterFrame.helperName?, RouterFrame.pipelineNames, RouterContext.place]
  | pipeline name => cases h
  | resources declared =>
    rw [← Option.some.inj h]
    simp [RouterOpening.frame, RouterFrame.path?, RouterFrame.scopePath?, RouterFrame.aliasName?,
      RouterFrame.helperName?, RouterFrame.pipelineNames, RouterContext.place]

theorem place_pipeThrough (h : s.InScope) (names : List (List Char)) :
    (s.pipeThrough names).context.place = s.context.place.pipedThrough names := by
  rcases h with hNone | ⟨path, alias?, helper?, pipelines, depth, outer, hFrames⟩
  · simp [RouterState.pipeThrough, pipeScopes, hNone, RouterState.context, RouterContext.place,
      RouterPlace.pipedThrough, RouterContext.pipelines, RouterContext.outerPath,
      RouterContext.scopePath?]
  · have hBefore : s.context = RouterContext.within ⟨(outer.map OpenFrame.frame).reverse,
        s.rootPipelines⟩ (.scope path alias? helper? pipelines) := by
      simp [RouterState.context, hFrames, RouterContext.within]
    have hAfter : (s.pipeThrough names).context =
        RouterContext.within ⟨(outer.map OpenFrame.frame).reverse, s.rootPipelines⟩
          (.scope path alias? helper? (pipelines ++ names)) := by
      simp [RouterState.pipeThrough, pipeScopes, RouterState.context, hFrames, RouterContext.within]
    rw [hBefore, hAfter, RouterContext.place_within, RouterContext.place_within]
    simp [RouterFrame.path?, RouterFrame.scopePath?, RouterFrame.aliasName?,
      RouterFrame.helperName?, RouterFrame.pipelineNames, RouterPlace.pipedThrough]

theorem pipeThrough_inScope {pipes : Bool} (hReady : IsReady pipes s) (hScope : s.InScope)
    (names : List (List Char)) :
    IsReady true (s.pipeThrough names) ∧ Continues s (s.pipeThrough names) := by
  have hStacked := hReady.isStacked
  have hPipeline := hReady.inPipeline
  rcases hScope with hNone | ⟨path, alias?, helper?, pipelines, depth, outer, hFrames⟩
  · have hPiped : s.pipeThrough names = { s with rootPipelines := s.rootPipelines ++ names } := by
      simp [RouterState.pipeThrough, pipeScopes, hNone]
    rw [hPiped]
    exact ⟨⟨hPipeline, hStacked, fun _ => .inl hNone⟩, ⟨rfl, rfl, rfl, fun h => absurd hNone h⟩⟩
  · have hPiped : s.pipeThrough names =
        { s with frames := ⟨.scope path alias? helper? (pipelines ++ names), depth⟩ :: outer } := by
      simp [RouterState.pipeThrough, pipeScopes, hFrames]
    rw [IsStacked, hFrames, List.forall_mem_cons] at hStacked
    rw [RouterState.inPipeline, hFrames, List.any_cons, Bool.or_eq_false_iff] at hPipeline
    rw [hPiped]
    refine ⟨⟨?_, ?_, fun _ => .inr ⟨path, alias?, helper?, _, depth, outer, rfl⟩⟩, ?_⟩
    · rw [RouterState.inPipeline, List.any_cons, hPipeline.2]
      rfl
    · rw [IsStacked, List.forall_mem_cons]
      exact hStacked
    · exact ⟨rfl, by simp [hFrames], by simp [hFrames], fun _ => rfl⟩

/-- The state in a block that has just been opened. -/
structure Opens (s : RouterState) (frame : RouterFrame) (t : RouterState) : Prop where
  depth : t.tracker.depth = s.tracker.depth + 1
  frames : t.frames = (s.push frame).frames
  rootPipelines : t.rootPipelines = s.rootPipelines

namespace Opens

variable {frame : RouterFrame}

theorem context (h : Opens s frame t) : t.context = (s.push frame).context := by
  rw [RouterState.context, h.frames, h.rootPipelines]
  rfl

theorem isStacked (h : Opens s frame t) (hStacked : s.IsStacked) : t.IsStacked := by
  rw [IsStacked, h.frames, h.depth, RouterState.push, List.forall_mem_cons]
  exact ⟨Nat.lt_succ_self _, fun f hf => Nat.lt_succ_of_lt (hStacked f hf)⟩

theorem inPipeline (h : Opens s frame t) :
    t.inPipeline = (frame == .pipeline || s.inPipeline) := by
  rw [RouterState.inPipeline, h.frames]
  rfl

theorem isReady {opening : RouterOpening} (h : Opens s opening.frame t)
    (hOther : opening.frame ≠ .pipeline) (hPipeline : s.inPipeline = false)
    (hStacked : s.IsStacked) : IsReady opening.isScope t := by
  refine ⟨?_, h.isStacked hStacked, fun hScope => ?_⟩
  · rw [h.inPipeline, hPipeline, Bool.or_false, beq_eq_false_iff_ne]
    exact hOther
  · cases opening with
    | scope path alias? as? => exact .inr ⟨_, _, _, _, _, _, h.frames⟩
    | _ => cases hScope

theorem closes (h : Opens s frame t) (hStacked : s.IsStacked) (hBody : Continues t u)
    (width : Nat) : Agrees s (u.settle (List.replicate width ' ' ++ "end".toList)) := by
  have hFrames := h.frames
  have hDepths := hBody.outerDepths
  have hTail := hBody.outer
  rw [hFrames, RouterState.push] at hDepths hTail
  cases hOpen : u.frames with
  | nil => simp [hOpen] at hDepths
  | cons f outer =>
    rw [hOpen] at hDepths hTail
    rw [List.map_cons, List.map_cons, List.cons.injEq] at hDepths
    have hOuter : outer = s.frames := hTail
    have hOpened : u.frames = [f] ++ s.frames := by rw [hOpen, hOuter, List.singleton_append]
    have hRoot := hBody.rootPipelines (by simp [hFrames, RouterState.push])
    exact settle_end [f] hStacked (by simpa using hDepths.1) width (hBody.depth.trans h.depth)
      hOpened
      (hRoot.trans h.rootPipelines)

end Opens

/-! ### Lines in a pipeline -/

/-- The lines count for nothing in a pipeline, and close the blocks that they open. -/
def IsIgnored (file : Path) (lines : List (List Char)) : Prop :=
  ∀ (s : RouterState) (n : Nat), s.inPipeline = true → s.IsStacked →
    routesOfLines file s (numbered n lines) = [] ∧ Agrees s (s.after file (numbered n lines))

namespace IsIgnored

variable {file : Path} {line : List Char} {body next : List (List Char)}

theorem nil : IsIgnored file [] := fun s _ _ _ => ⟨rfl, Agrees.refl s⟩

theorem cons (hNext : IsIgnored file next) (hBlocks : blockDelta line = (0, 0)) :
    IsIgnored file (line :: next) := by
  intro s n hPipeline hStacked
  have hAgrees := settle_agrees hBlocks hStacked
  obtain ⟨hRoutes, hAfter⟩ :=
    run_line next (takeLine_inPipeline hPipeline file n line)
  obtain ⟨hNone, hRest⟩ := hNext (s.settle line) (n + 1) (hAgrees.inPipeline.trans hPipeline)
    (hStacked.of_agrees hAgrees)
  rw [hRoutes, hAfter, hNone]
  exact ⟨rfl, hAgrees.trans hRest⟩

theorem block (hBody : IsIgnored file body) (hBlocks : blockDelta line = (1, 0)) (width : Nat)
    (hNext : IsIgnored file next) :
    IsIgnored file
      (line :: (body ++ (List.replicate width ' ' ++ "end".toList) :: next)) := by
  intro s n hPipeline hStacked
  obtain ⟨hDepth, hFrames, hRoot⟩ :=
    settle_opening hBlocks fun f hf => Nat.lt_succ_of_lt (hStacked f hf)
  have hOpened : (s.settle line).inPipeline = true := by
    rw [RouterState.inPipeline, hFrames]
    exact hPipeline
  have hOpenedStacked : (s.settle line).IsStacked := by
    rw [IsStacked, hFrames, hDepth]
    exact fun f hf => Nat.lt_succ_of_lt (hStacked f hf)
  obtain ⟨hNone, hInner⟩ := hBody (s.settle line) (n + 1) hOpened hOpenedStacked
  have hAgrees := settle_end [] hStacked nofun width (hInner.depth.trans hDepth)
    (hInner.frames.trans hFrames) (hInner.rootPipelines.trans hRoot)
  obtain ⟨hRoutes, hAfter⟩ := run_block next (takeLine_inPipeline hPipeline file n line) hNone
    rfl (takeLine_end _ file _ width)
  obtain ⟨hNextNone, hRest⟩ := hNext _ (n + (1 + (body.length + 1)))
    (hAgrees.inPipeline.trans hPipeline) (hStacked.of_agrees hAgrees)
  rw [hRoutes, hAfter, hNextNone]
  exact ⟨rfl, hAgrees.trans hRest⟩

end IsIgnored

/-! ### Lines of a tree -/

variable (file : Path) (n width : Nat)

theorem takeLine_leaf (hPipeline : s.inPipeline = false) (hStacked : s.IsStacked)
    (leaf : RouterLeaf) :
    ∃ t, s.takeLine file { line := n, text := List.replicate width ' ' ++ leaf.line.text } =
      (t, leaf.routes file s.context.place n) ∧ Agrees s t := by
  have hLine := leaf.line_wellFormed
  have hBlocks := (hLine.isOwnLine width).blocks
  rw [leaf.opens_line] at hBlocks
  refine ⟨_, ?_, settle_agrees hBlocks hStacked⟩
  rw [takeLine_eq hPipeline (hLine.isTrimmed.trim_indented _), apply_leaf]

theorem takeLine_opening (hPipeline : s.inPipeline = false) (hStacked : s.IsStacked)
    (opening : RouterOpening) :
    ∃ t, s.takeLine file { line := n, text := List.replicate width ' ' ++ opening.line.text } =
      (t, opening.routes file s.context.place n) ∧ Opens s opening.frame t := by
  have hLine := opening.line_wellFormed
  have hBlocks := (hLine.isOwnLine width).blocks
  rw [opening.opens_line] at hBlocks
  have hPushed : ∀ f ∈ (s.push opening.frame).frames,
      f.outerDepth < (s.push opening.frame).tracker.depth + 1 := by
    rw [RouterState.push, List.forall_mem_cons]
    exact ⟨Nat.lt_succ_self _, fun f hf => Nat.lt_succ_of_lt (hStacked f hf)⟩
  obtain ⟨hDepth, hFrames, hRoot⟩ := settle_opening hBlocks hPushed
  refine ⟨_, ?_, hDepth, hFrames, hRoot⟩
  rw [takeLine_eq hPipeline (hLine.isTrimmed.trim_indented _), apply_opening]

theorem takeLine_pipeThrough {pipes : Bool} (hReady : IsReady pipes s) (hScope : s.InScope)
    (names : RouterNames) :
    ∃ t, s.takeLine file { line := n, text := List.replicate width ' ' ++ names.line.text } =
      (t, []) ∧ Agrees (s.pipeThrough names.names) t := by
  have hLine := names.line_wellFormed
  have hBlocks := (hLine.isOwnLine width).blocks
  refine ⟨_, ?_, settle_agrees hBlocks (pipeThrough_inScope hReady hScope names.names).1.isStacked⟩
  rw [takeLine_eq hReady.inPipeline (hLine.isTrimmed.trim_indented _),
    apply_pipeThrough]

theorem takeLine_module (module : ModuleName) :
    ∃ t, ({} : RouterState).takeLine file { line := n, text := (moduleLine module).text } =
      (t, []) ∧ t.frames = [] ∧ t.rootPipelines = [] := by
  have hLine := moduleLine_wellFormed module
  have hBlocks : blockDelta (moduleLine module).text = (1, 0) := (hLine.isOwnLine 0).blocks
  obtain ⟨_, hFrames, hRoot⟩ := settle_opening (s := {}) hBlocks nofun
  refine ⟨_, ?_, hFrames, hRoot⟩
  rw [takeLine_eq rfl hLine.isTrimmed.trim_eq, readRouterLine_module]
  rfl

end RouterState

theorem RouterOpening.inner?_eq_none_iff (opening : RouterOpening) {place : RouterPlace} :
    opening.inner? place = none ↔ opening.frame = .pipeline := by
  cases opening <;> simp [RouterOpening.inner?, RouterOpening.frame]

/-! ### Trees -/

namespace RouterTree

open RouterState

theorem isIgnored_lines (file : Path) (width depth : Nat) {pipes : Bool}
    (tree : RouterTree pipes) : IsIgnored file (tree.lines width depth) := by
  induction tree generalizing depth with
  | done => exact IsIgnored.nil
  | leaf declaration next ih =>
    have hBlocks := (declaration.line_wellFormed.isOwnLine (width * depth)).blocks
    rw [declaration.opens_line] at hBlocks
    exact (ih depth).cons hBlocks
  | pipeThrough names next ih =>
    exact (ih depth).cons (names.line_wellFormed.isOwnLine (width * depth)).blocks
  | block opening body next ihBody ihNext =>
    have hBlocks := (opening.line_wellFormed.isOwnLine (width * depth)).blocks
    rw [opening.opens_line] at hBlocks
    exact (ihBody (depth + 1)).block hBlocks (width * depth) (ihNext depth)

theorem routes_block (file : Path) (place : RouterPlace) (n : Nat) {pipes : Bool}
    (opening : RouterOpening) (body : RouterTree opening.isScope) (next : RouterTree pipes) :
    (block opening body next).routes file place n =
      opening.routes file place n ++
          (opening.inner? place).elim [] (body.routes file · (n + 1)) ++
        next.routes file place (n + (1 + (body.height + 1))) := by
  rw [routes]
  cases opening.inner? place <;> rfl

theorem run (file : Path) (width : Nat) {pipes : Bool} (tree : RouterTree pipes) :
    ∀ (depth : Nat) (s : RouterState) (n : Nat), IsReady pipes s →
      routesOfLines file s (numbered n (tree.lines width depth)) =
          tree.routes file s.context.place n ∧
        Continues s (s.after file (numbered n (tree.lines width depth))) := by
  induction tree with
  | done => exact fun depth s n hReady => ⟨rfl, (Agrees.refl s).continues⟩
  | leaf declaration next ih =>
    intro depth s n hReady
    obtain ⟨t, hLine, hAgrees⟩ := takeLine_leaf file n (width * depth) hReady.inPipeline
      hReady.isStacked declaration
    obtain ⟨hRoutes, hAfter⟩ := run_line (next.lines width depth) hLine
    obtain ⟨hNext, hContinues⟩ := ih depth t (n + 1) (hReady.of_agrees hAgrees)
    rw [lines, hRoutes, hAfter, hNext, hAgrees.context]
    exact ⟨rfl, hAgrees.continues.trans hContinues⟩
  | pipeThrough names next ih =>
    intro depth s n hReady
    have hScope := hReady.inScope rfl
    obtain ⟨hPiped, hContinuesPiped⟩ := pipeThrough_inScope hReady hScope names.names
    obtain ⟨t, hLine, hAgrees⟩ := takeLine_pipeThrough file n (width * depth) hReady hScope
      names
    obtain ⟨hRoutes, hAfter⟩ := run_line (next.lines width depth) hLine
    obtain ⟨hNext, hContinues⟩ := ih depth t (n + 1) (hPiped.of_agrees hAgrees)
    rw [lines, hRoutes, hAfter, hNext, hAgrees.context, place_pipeThrough hScope]
    exact ⟨rfl, (hContinuesPiped.trans hAgrees.continues).trans hContinues⟩
  | block opening body next ihBody ihNext =>
    intro depth s n hReady
    obtain ⟨t, hLine, hOpens⟩ := takeLine_opening file n (width * depth)
      hReady.inPipeline hReady.isStacked opening
    have hInner : routesOfLines file t (numbered (n + 1) (body.lines width (depth + 1))) =
          (opening.inner? s.context.place).elim [] (body.routes file · (n + 1)) ∧
        Continues t (t.after file (numbered (n + 1) (body.lines width (depth + 1)))) := by
      cases hPlace : opening.inner? s.context.place with
      | none =>
        -- what stands in a pipeline is read as macros of plugs, whatever its tree is
        have hPipeline : t.inPipeline = true := by
          rw [hOpens.inPipeline, opening.inner?_eq_none_iff.mp hPlace]
          rfl
        obtain ⟨hRoutes, hAgrees⟩ := body.isIgnored_lines file width (depth + 1) t (n + 1) hPipeline
          (hOpens.isStacked hReady.isStacked)
        exact ⟨hRoutes, hAgrees.continues⟩
      | some place =>
        have hOther : opening.frame ≠ .pipeline := by
          intro hFrame
          rw [opening.inner?_eq_none_iff.mpr hFrame] at hPlace
          cases hPlace
        have hBody := ihBody (depth + 1) t (n + 1)
          (hOpens.isReady hOther hReady.inPipeline hReady.isStacked)
        rwa [hOpens.context, place_push hPlace] at hBody
    obtain ⟨hBody, hBodyContinues⟩ := hInner
    -- the body may have named pipelines in its own block only, which is gone behind its end
    have hAgrees := hOpens.closes hReady.isStacked hBodyContinues (width * depth)
    obtain ⟨hRoutes, hAfter⟩ := run_block (next.lines width depth) hLine hBody rfl
      (takeLine_end _ file _ (width * depth))
    obtain ⟨hNext, hContinues⟩ := ihNext depth _ (n + (1 + (body.height + 1)))
      (hReady.of_agrees hAgrees)
    rw [body.length_lines] at hRoutes hAfter
    rw [lines, hRoutes, hAfter, hNext, hAgrees.context, routes_block]
    exact ⟨rfl, hAgrees.continues.trans hContinues⟩

end RouterTree

end PhoenixLens.Elixir
