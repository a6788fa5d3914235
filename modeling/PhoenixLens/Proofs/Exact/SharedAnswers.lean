import PhoenixLens.Proofs.Exact.Gateway

/-!
# Files that share a text

An exact parser is given a path besides the text, but its answer is kept for the kind and the text
only. So the result for a file may be the answer for another file, if that has the same text; it is
never one for another text.
-/

namespace PhoenixLens

variable {σ : Type} {parser : ExactParser (StateM σ)} {fileRoom textRoom : Nat} {state : σ}
  {known : Set String} {acts : List GatewayAct} {call : ParseCall}
  {answer : ParseKind → Path → String → Except ParseError Json}

/-- The answers about texts are the same at all times. -/
def ExactParser.AnswersAs (parser : ExactParser (StateM σ))
    (answer : ParseKind → Path → String → Except ParseError Json) : Prop :=
  ∀ kind path text state, (parser.run kind (.content path text) state).1 = answer kind path text

def GatewayAct.isClearing : GatewayAct → Bool
  | asks _ => false
  | clears => true

/-- The text of a call has been asked about under a path since the answers were last forgotten. -/
def AskedUnder (acts : List GatewayAct) (call : ParseCall) (path : Path) : Prop :=
  Since GatewayAct.isClearing
    (fun act => ∃ other, act = .asks other ∧ other.ofFile = false ∧ other.kind = call.kind ∧
      other.text = call.text ∧ other.path = path) acts

namespace GatewayRun

/-- A usable parser is not asked where an answer is kept. -/
theorem result_of_kept {run : GatewayRun σ}
    (hParser : run.gateway.parser = some parser.overheard)
    (hUsable : (parser.isAvailable run.state).1 = true) (hReadable : call.isReadable = true)
    {payload : Json} (hKept : call.kept? run.gateway = some payload) :
    (run.ask call).result = call.result (decodePayload call.kind payload) := by
  rw [ask, ParseCall.run_ask, hParser]
  simp only [StateT.run_bind, ExactParser.run_isAvailable, pure_bind, hUsable, hReadable, if_true,
    hKept, StateT.run_pure]
  rfl

/-- A usable parser is asked where no answer is kept, and what it says settles the gateway. -/
theorem gateway_of_not_kept {run : GatewayRun σ}
    (hParser : run.gateway.parser = some parser.overheard)
    (hUsable : (parser.isAvailable run.state).1 = true) (hReadable : call.isReadable = true)
    (hKept : call.kept? run.gateway = none) :
    (run.ask call).next.gateway = call.settle
      (parser.run call.kind call.input (parser.isAvailable run.state).2).1 run.gateway := by
  rw [ask, ParseCall.run_ask, hParser]
  simp only [StateT.run_bind, ExactParser.run_isAvailable, pure_bind, hUsable, hReadable, if_true,
    hKept, ExactParser.run_run, StateT.run_pure]
  rfl

/-- What the parser is heard to say in a call is its answer. -/
theorem answer_of_said {run : GatewayRun σ}
    (hParser : run.gateway.parser = some parser.overheard) {kind : ParseKind} {input : ExactInput}
    {given : Except ParseError Json} (h : .answered kind input given ∈ (run.ask call).said) :
    kind = call.kind ∧ input = call.input ∧
      given = (parser.run kind input (parser.isAvailable run.state).2).1 := by
  have hUnheard {said : Exchange} (hSaid : .answered kind input given ∈ [said])
      (hTried : ∃ isUsable, said = .tried isUsable) : False := by
    obtain ⟨isUsable, rfl⟩ := hTried
    cases List.mem_singleton.mp hSaid
  rw [ask, ParseCall.run_ask, hParser] at h
  simp only [StateT.run_bind, ExactParser.run_isAvailable, pure_bind, List.nil_append] at h
  cases hUsable : (parser.isAvailable run.state).1 with
  | false =>
    rw [hUsable, if_neg (by decide)] at h
    exact (hUnheard h ⟨_, rfl⟩).elim
  | true =>
    rw [hUsable, if_pos rfl] at h
    cases hReadable : call.isReadable with
    | false =>
      rw [hReadable, if_neg (by decide)] at h
      exact (hUnheard h ⟨_, rfl⟩).elim
    | true =>
      rw [hReadable, if_pos rfl] at h
      cases hKept : call.kept? run.gateway with
      | some payload =>
        rw [hKept] at h
        exact (hUnheard h ⟨_, rfl⟩).elim
      | none =>
        rw [hKept] at h
        obtain hTried | hAnswered := List.mem_cons.mp h
        · cases hTried
        · cases List.mem_singleton.mp hAnswered
          exact ⟨rfl, rfl, rfl⟩

/-- What has been returned about a text is the answer about it under a path that it has been asked
about under since. -/
theorem Returned.askedUnder (hAnswer : parser.AnswersAs answer)
    (hDigests : Set.InjOn Text.contentDigest known)
    (hKnown : ∀ asked, .asks asked ∈ acts → asked.text ∈ known) (hContent : call.ofFile = false)
    {payload : Json}
    (h : ((start (some parser) fileRoom textRoom state).after acts).Returned call payload) :
    ∃ path, AskedUnder acts call path ∧ answer call.kind path call.text = .ok payload := by
  induction acts using List.reverseRecOn with
  | nil => exact absurd h not_since_nil
  | append_singleton acts act ih =>
    have hBefore : ∀ asked, .asks asked ∈ acts → asked.text ∈ known :=
      fun asked hAct => hKnown asked (List.mem_append_left _ hAct)
    rw [after_concat] at h
    cases act with
    | clears =>
      obtain ⟨hClearing, -⟩ := since_concat.mp h
      cases hClearing
    | asks asked =>
      have hKeeps : ((start (some parser) fileRoom textRoom state).after acts).Keeps (some parser)
          fileRoom textRoom known :=
        Keeps.after hDigests acts hBefore
      have hParser := hKeeps.parser
      rw [step, Returned, past_ask, since_concat] at h
      obtain ⟨-, ⟨other, said, hEvent, hAlike, hSaid⟩ | hEarlier⟩ := h
      · -- the answer has been given in the last call
        cases hEvent
        obtain ⟨-, -, hGiven⟩ := answer_of_said hParser hSaid
        have hAsked : asked.ofFile = false := hAlike.ofFile.symm.trans hContent
        rw [ParseCall.input, hAsked, if_neg (by decide), hAnswer] at hGiven
        refine ⟨asked.path, since_concat.mpr ⟨rfl, .inl ⟨asked, rfl, hAsked, hAlike.kind.symm,
          (hAlike.text hContent).symm, rfl⟩⟩, ?_⟩
        rw [hAlike.kind, hAlike.text hContent, hGiven]
      · obtain ⟨path, hAsked, hGiven⟩ := ih hBefore hEarlier
        exact ⟨path, since_concat.mpr ⟨rfl, .inr hAsked⟩, hGiven⟩

/-- Whatever was asked before: an exact result for a text is read off the answer for that text under
a path that it has been asked about under since the last clearing, this call included. So it is read
off the answer for the very path where the answer is the same under all of these, and where there is
no room for answers. -/
theorem exact_of_shared_text (hAnswer : parser.AnswersAs answer)
    (hDigests : Set.InjOn Text.contentDigest known)
    (hKnown : ∀ asked, .asks asked ∈ acts → asked.text ∈ known) (hText : call.text ∈ known)
    (hContent : call.ofFile = false) {found : List call.kind.Found}
    (h : (((start (some parser) fileRoom textRoom state).after acts).ask call).result =
      (found, .exact)) :
    (∃ path, AskedUnder (acts ++ [.asks call]) call path ∧
      call.reading (answer call.kind path call.text) = .ok found) ∧
    ((textRoom = 0 ∨ ∀ path, AskedUnder acts call path →
        answer call.kind path call.text = answer call.kind call.path call.text) →
      call.reading (answer call.kind call.path call.text) = .ok found) := by
  have hKeeps : ((start (some parser) fileRoom textRoom state).after acts).Keeps (some parser)
      fileRoom textRoom known := .after hDigests acts hKnown
  have hAnswered : (textRoom ≠ 0 ∧ ∃ path, AskedUnder acts call path ∧
        call.reading (answer call.kind path call.text) = .ok found) ∨
      call.reading (answer call.kind call.path call.text) = .ok found := by
    cases ask_goes hKeeps.parser call with
    | absent _ _ hResult => cases hResult.symm.trans h
    | unusable _ _ hResult => cases hResult.symm.trans h
    | unreadable _ _ _ hResult => cases hResult.symm.trans h
    | @kept payload _ _ hReadable hKept hResult _ =>
      obtain ⟨path, hAsked, hGiven⟩ := Returned.askedUnder hAnswer hDigests hKnown hContent
        (hKeeps.returned call payload hKept hReadable hText)
      refine .inl ⟨?_, path, hAsked, ?_⟩
      · rintro rfl
        have hRoom := hKeeps.fits.room_eq call
        rw [hContent, if_neg (by decide)] at hRoom
        cases (hKeeps.fits.kept?_eq_none hRoom).symm.trans hKept
      · rw [hGiven]
        exact ParseCall.result_eq_exact.mp (hResult.symm.trans h)
    | @answered given _ hSaid _ _ hResult _ =>
      obtain ⟨-, -, hGiven⟩ := answer_of_said hKeeps.parser (by rw [hSaid]; exact .tail _ (.head _))
      rw [ParseCall.input, hContent, if_neg (by decide), hAnswer] at hGiven
      rw [← hGiven]
      exact .inr (ParseCall.result_eq_exact.mp (hResult.symm.trans h))
  refine ⟨?_, fun hSame => ?_⟩
  · obtain ⟨-, path, hAsked, hFound⟩ | hFound := hAnswered
    · exact ⟨path, since_concat.mpr ⟨rfl, .inr hAsked⟩, hFound⟩
    · exact ⟨call.path, since_concat.mpr ⟨rfl, .inl ⟨call, rfl, hContent, rfl, rfl, rfl⟩⟩, hFound⟩
  · obtain ⟨hRoom, path, hAsked, hFound⟩ | hFound := hAnswered
    · rw [← (hSame.resolve_left hRoom) path hAsked]
      exact hFound
    · exact hFound

/-- A text that is asked about under two paths, with the answer for the first one forgotten in
between. -/
theorem exact_of_shared_text_cleared :
    let report (path : Path) : ReportedUsage := { name := path.text, start := 0, stop := 1 }
    let answer (kind : ParseKind) (path : Path) (_ : String) : Except ParseError Json :=
      .ok (.obj [(kind.member, .list ReportedUsage.encode [report path])])
    let parser : ExactParser (StateM Unit) := ⟨pure true, fun kind input =>
      match input with
      | .content path text => pure (answer kind path text)
      | .file _ => pure (.error .unavailable)⟩
    let call (path : String) : ParseCall := ⟨{}, .markup, ⟨path⟩, "<p/>", false⟩
    let acts : List GatewayAct := [.asks (call "/a.heex"), .clears]
    let found := [report ⟨"/b.heex"⟩]
    (((start (some parser) 0 10 ()).after acts).ask (call "/b.heex")).result = (found, .exact) ∧
      (call "/b.heex").reading (answer .markup ⟨"/b.heex"⟩ "<p/>") = .ok found := by
  intro report answer parser call acts found
  have hResult : (((start (some parser) 0 10 ()).after acts).ask (call "/b.heex")).result =
      (found, .exact) := by decide
  have hKnown : ∀ asked, .asks asked ∈ acts → asked.text ∈ ({"<p/>"} : Set String) := by
    intro asked hAsked
    obtain rfl : asked = call "/a.heex" := by simpa [acts] using hAsked
    rfl
  have hAnswer : parser.AnswersAs answer := fun _ _ _ _ => rfl
  have hText : (call "/b.heex").text ∈ ({"<p/>"} : Set String) := rfl
  refine ⟨hResult, (exact_of_shared_text hAnswer (Set.injOn_singleton _ _) hKnown hText rfl
    hResult).2 (.inr fun path hPath => ?_)⟩
  have hCleared : AskedUnder ([.asks (call "/a.heex")] ++ [.clears]) (call "/b.heex") path := hPath
  cases (since_concat.mp hCleared).1

/-- The template of one file is found for another one with the same text. -/
theorem exact_for_other_file :
    let template (path : Path) : TemplateInfo :=
      { name := "t", moduleName := "M", filePath := path, kind := .colocated }
    let answer (_ : ParseKind) (path : Path) (_ : String) : Except ParseError Json :=
      .ok ((ParseKind.entities .templates).encode [template path])
    let parser : ExactParser (StateM Unit) := ⟨pure true, fun kind input =>
      match input with
      | .content path text => pure (answer kind path text)
      | .file _ => pure (.error .unavailable)⟩
    let call (path : String) : ParseCall :=
      ⟨{}, .entities .templates, ⟨path⟩, "<p/>", false⟩
    let run := (start (some parser) 10 10 ()).after [.asks (call "/app/lib/a.html.heex")]
    let other := call "/app/lib/b.html.heex"
    parser.AnswersAs answer ∧
      (run.ask other).result = ([template ⟨"/app/lib/a.html.heex"⟩], .exact) ∧
      other.reading (answer other.kind other.path other.text) =
        .ok [template ⟨"/app/lib/b.html.heex"⟩] := by
  intro template answer parser call run other
  let first := call "/app/lib/a.html.heex"
  let payload := (ParseKind.entities .templates).encode [template ⟨"/app/lib/a.html.heex"⟩]
  let fresh := start (some parser) 10 10 ()
  have hFresh : fresh.gateway.parser = some parser.overheard := rfl
  have hSettled : (fresh.ask first).next.gateway = first.settle (.ok payload) fresh.gateway :=
    gateway_of_not_kept hFresh rfl rfl rfl
  have hGateway : run.gateway = first.keep payload fresh.gateway := hSettled
  -- both files have the same question, so the answer kept for one is found for the other
  have hKept : other.kept? run.gateway = some payload := by
    rw [hGateway]
    exact first.kept?_keep_self payload (by decide)
  exact ⟨fun _ _ _ _ => rfl, result_of_kept (by rw [hGateway]; rfl) rfl rfl hKept, rfl⟩

end GatewayRun

end PhoenixLens
