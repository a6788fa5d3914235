import Mathlib.Data.List.Induction
import Mathlib.Data.Set.Function
import PhoenixLens.Exact.Gateway
import PhoenixLens.Proofs.Exact.BoundedCache
import PhoenixLens.Proofs.History
import PhoenixLens.Proofs.Path.Order

/-!
# Where the results of a gateway come from

A gateway is asked one thing after the other, and its answers are forgotten now and then. The exact
parser behind it is any computation with a state of its own, so its answers may be any sequence. It
is overheard, so that what it has said in a call can be told from what was kept.
-/

namespace PhoenixLens

variable {σ : Type} {m : Type → Type}

/-! ### Questions about files -/

theorem FileQuestion.beq_iff {a b : FileQuestion} :
    (a == b) = true ↔
      a.kind = b.kind ∧ a.path.same b.path = true ∧ a.modified = b.modified := by
  change (a.kind == b.kind && a.path.same b.path && a.modified == b.modified) = true ↔ _
  simp only [Bool.and_eq_true, beq_iff_eq, and_assoc]

instance : EquivBEq FileQuestion where
  rfl := FileQuestion.beq_iff.mpr ⟨rfl, Path.same_refl _, rfl⟩
  symm h := by
    obtain ⟨hKind, hPath, hModified⟩ := FileQuestion.beq_iff.mp h
    exact FileQuestion.beq_iff.mpr ⟨hKind.symm, (Path.same_comm _ _).trans hPath, hModified.symm⟩
  trans h h' := by
    obtain ⟨hKind, hPath, hModified⟩ := FileQuestion.beq_iff.mp h
    obtain ⟨hKind', hPath', hModified'⟩ := FileQuestion.beq_iff.mp h'
    refine FileQuestion.beq_iff.mpr ⟨hKind.trans hKind', ?_, hModified.trans hModified'⟩
    exact (Path.same_congr_left hPath _).trans hPath'

/-! ### Calls -/

/-- A call to a gateway, at a time when the disk is as given. -/
structure ParseCall where
  disk : Disk
  kind : ParseKind
  path : Path
  text : String
  /-- The parser is asked about the file on disk, and not about the text. -/
  ofFile : Bool

namespace ParseCall

def input (call : ParseCall) : ExactInput :=
  if call.ofFile then .file call.path else .content call.path call.text

def ask [Monad m] (call : ParseCall) : Parsing m (List call.kind.Found × Strategy) :=
  if call.ofFile then Gateway.parseFile call.disk call.kind call.path call.text
  else Gateway.parse call.disk call.kind call.path call.text

def scanned (call : ParseCall) : List call.kind.Found :=
  Gateway.scan call.disk call.path call.text call.kind

/-- The file can be looked at, if the question is about the file. -/
def isReadable (call : ParseCall) : Bool :=
  !call.ofFile || (call.disk.modified? call.path).isSome

def fileQuestion (call : ParseCall) : FileQuestion :=
  ⟨call.kind, call.path, (call.disk.modified? call.path).getD 0⟩

def textQuestion (call : ParseCall) : TextQuestion := ⟨call.kind, Text.contentDigest call.text⟩

/-- What an answer says has been found. -/
def reading (call : ParseCall) (answer : Except ParseError Json) :
    Except ParseError (List call.kind.Found) :=
  answer.bind (decodePayload call.kind)

def result (call : ParseCall) (reading : Except ParseError (List call.kind.Found)) :
    List call.kind.Found × Strategy :=
  Gateway.orScan call.disk call.path call.text reading

def kept? (call : ParseCall) (gateway : Gateway m) : Option Json :=
  if call.ofFile then gateway.fileAnswers.find? call.fileQuestion
  else gateway.textAnswers.find? call.textQuestion

/-- The gateway after the answer that is kept for a call has been used. -/
def touch (call : ParseCall) (gateway : Gateway m) : Gateway m :=
  if call.ofFile then
    { gateway with fileAnswers := gateway.fileAnswers.touch call.fileQuestion }
  else { gateway with textAnswers := gateway.textAnswers.touch call.textQuestion }

/-- The gateway after an answer has been kept for a call. -/
def keep (call : ParseCall) (payload : Json) (gateway : Gateway m) : Gateway m :=
  if call.ofFile then
    { gateway with fileAnswers := gateway.fileAnswers.set call.fileQuestion payload }
  else { gateway with textAnswers := gateway.textAnswers.set call.textQuestion payload }

/-- The gateway after the parser has answered: only what can be decoded is kept. -/
def settle (call : ParseCall) (answer : Except ParseError Json) (gateway : Gateway m) :
    Gateway m :=
  match answer with
  | .error _ => gateway
  | .ok payload =>
    if (decodePayload call.kind payload).toBool then call.keep payload gateway else gateway

theorem result_eq_exact {call : ParseCall}
    {reading : Except ParseError (List call.kind.Found)} {found : List call.kind.Found} :
    call.result reading = (found, .exact) ↔ reading = .ok found := by
  cases reading <;> simp [result, Gateway.orScan]

theorem result_eq_scanned {call : ParseCall}
    {reading : Except ParseError (List call.kind.Found)} :
    (call.result reading).2 = .scanned ↔ ∃ error, reading = .error error := by
  cases reading <;> simp [result, Gateway.orScan]

theorem reading_eq_ok {call : ParseCall} {answer : Except ParseError Json}
    {found : List call.kind.Found} :
    call.reading answer = .ok found ↔
      ∃ payload, answer = .ok payload ∧ decodePayload call.kind payload = .ok found := by
  cases answer <;> simp [reading, Except.bind]

/-- An answer that says nothing is not kept. -/
theorem settle_eq_self {call : ParseCall} {answer : Except ParseError Json} {error : ParseError}
    (hError : call.reading answer = .error error) (gateway : Gateway m) :
    call.settle answer gateway = gateway := by
  cases answer with
  | error _ => rfl
  | ok payload =>
    have hPayload : decodePayload call.kind payload = .error error := hError
    rw [settle, hPayload]
    rfl

def room (call : ParseCall) (gateway : Gateway m) : Nat :=
  if call.ofFile then gateway.fileAnswers.capacity else gateway.textAnswers.capacity

/-- Both kinds of call go the same way: a parser that can be used is asked only where nothing is
kept. -/
theorem run_ask [Monad m] [LawfulMonad m] (call : ParseCall) (gateway : Gateway m) :
    call.ask.run gateway =
      match gateway.parser with
      | none => pure (call.result (.error .unavailable), gateway)
      | some parser => do
        if ← parser.isAvailable then
          if call.isReadable then
            match call.kept? gateway with
            | some payload =>
              return (call.result (decodePayload call.kind payload), call.touch gateway)
            | none =>
              let answer ← parser.run call.kind call.input
              return (call.result (call.reading answer), call.settle answer gateway)
          else return (call.result (.error .notStarted), gateway)
        else return (call.result (.error .unavailable), gateway) := by
  obtain ⟨disk, kind, path, text, ofFile⟩ := call
  cases hParser : gateway.parser with
  | none =>
    cases ofFile <;>
      simp [ask, Gateway.parse, Gateway.parseFile, Gateway.parseExact, Gateway.parseFileExact,
        Gateway.available?, hParser, result]
  | some parser =>
    cases ofFile with
    | false =>
      simp only [ask, Gateway.parse, Gateway.parseExact, Gateway.available?, hParser, isReadable,
        kept?, touch, textQuestion, input, StateT.run_bind, StateT.run_get, StateT.run_monadLift,
        monadLift_self, bind_assoc, pure_bind, Bool.false_eq_true, if_false, Bool.not_false,
        Bool.true_or, if_true]
      refine bind_congr fun isUsable => ?_
      cases isUsable with
      | false => simp [result]
      | true =>
        cases gateway.textAnswers.find? ⟨kind, Text.contentDigest text⟩ with
        | some payload => simp [result]
        | none =>
          simp only [if_true, StateT.run_bind, StateT.run_monadLift, monadLift_self, bind_assoc,
            pure_bind]
          refine bind_congr fun answer => ?_
          cases answer with
          | error error => simp [settle, reading, result, Except.bind]
          | ok payload =>
            simp only [settle, reading, result, keep, textQuestion, Except.bind,
              Bool.false_eq_true, if_false]
            split <;> simp [hParser]
    | true =>
      simp only [ask, Gateway.parseFile, Gateway.parseFileExact, Gateway.available?, hParser,
        isReadable, kept?, touch, fileQuestion, input, StateT.run_bind, StateT.run_get,
        StateT.run_monadLift, monadLift_self, bind_assoc, pure_bind, Bool.not_true, Bool.false_or,
        if_true]
      refine bind_congr fun isUsable => ?_
      cases isUsable with
      | false => simp [result]
      | true =>
        cases hModified : disk.modified? path with
        | none => simp [result]
        | some modified =>
          cases hKept : gateway.fileAnswers.find? ⟨kind, path, modified⟩ with
          | some payload => simp [result, hKept]
          | none =>
            simp only [if_true, hKept, StateT.run_bind, StateT.run_monadLift, monadLift_self,
              bind_assoc, pure_bind, Option.isSome_some, Option.getD_some]
            refine bind_congr fun answer => ?_
            cases answer with
            | error error => simp [settle, reading, result, Except.bind]
            | ok payload =>
              simp only [settle, reading, result, keep, fileQuestion, hModified, Except.bind,
                if_true, Option.getD_some]
              split <;> simp [hParser]

/-! ### What is kept -/

@[simp] theorem parser_touch (call : ParseCall) (gateway : Gateway m) :
    (call.touch gateway).parser = gateway.parser := by
  rw [touch]
  split <;> rfl

@[simp] theorem parser_keep (call : ParseCall) (payload : Json) (gateway : Gateway m) :
    (call.keep payload gateway).parser = gateway.parser := by
  rw [keep]
  split <;> rfl

theorem kept?_touch (call other : ParseCall) (gateway : Gateway m) :
    other.kept? (call.touch gateway) = other.kept? gateway := by
  simp only [kept?, touch]
  split <;> split <;> simp [BoundedCache.find?_touch]

@[simp] theorem kept?_clear (call : ParseCall) (gateway : Gateway m) :
    call.kept? gateway.clear = none := by
  simp [kept?, Gateway.clear, BoundedCache.find?, BoundedCache.clear]

/-- Two calls ask the same question, as far as the gateway can tell. -/
structure AsksAs (call other : ParseCall) : Prop where
  kind : call.kind = other.kind
  ofFile : call.ofFile = other.ofFile
  file : call.ofFile = true → (call.fileQuestion == other.fileQuestion) = true
  text : call.ofFile = false → call.textQuestion = other.textQuestion

theorem kept?_keep {call other : ParseCall} {payload found : Json} {gateway : Gateway m}
    (h : other.kept? (call.keep payload gateway) = some found) :
    other.AsksAs call ∧ found = payload ∨ other.kept? gateway = some found := by
  simp only [kept?, keep] at h ⊢
  cases hOther : other.ofFile <;> cases hCall : call.ofFile <;>
    simp only [hOther, hCall, if_true, if_false, Bool.false_eq_true] at h ⊢
  · obtain ⟨hKey, hFound⟩ | ⟨-, hFound⟩ := BoundedCache.find?_set_eq_some h
    · have hQuestion : other.textQuestion = call.textQuestion := eq_of_beq hKey
      refine .inl ⟨⟨?_, ?_, ?_, ?_⟩, hFound⟩
      · exact congrArg TextQuestion.kind hQuestion
      · rw [hOther, hCall]
      · simp [hOther]
      · exact fun _ => hQuestion
    · exact .inr hFound
  · exact .inr h
  · exact .inr h
  · obtain ⟨hKey, hFound⟩ | ⟨-, hFound⟩ := BoundedCache.find?_set_eq_some h
    · refine .inl ⟨⟨?_, ?_, ?_, ?_⟩, hFound⟩
      · exact (FileQuestion.beq_iff.mp hKey).1
      · rw [hOther, hCall]
      · exact fun _ => hKey
      · simp [hOther]
    · exact .inr hFound

theorem kept?_keep_self (call : ParseCall) (payload : Json) {gateway : Gateway m}
    (hRoom : 0 < call.room gateway) : call.kept? (call.keep payload gateway) = some payload := by
  simp only [kept?, keep, room] at hRoom ⊢
  cases hFile : call.ofFile <;> rw [hFile] at hRoom <;>
    exact BoundedCache.find?_set_self _ _ _ hRoom

end ParseCall

/-- The gateway keeps no more than there is room for. -/
structure Gateway.Fits (gateway : Gateway m) (fileRoom textRoom : Nat) : Prop where
  fileCapacity : gateway.fileAnswers.capacity = fileRoom
  textCapacity : gateway.textAnswers.capacity = textRoom
  files : gateway.fileAnswers.size ≤ fileRoom
  texts : gateway.textAnswers.size ≤ textRoom

namespace Gateway.Fits

variable {gateway : Gateway m} {fileRoom textRoom : Nat}

theorem touch (h : gateway.Fits fileRoom textRoom) (call : ParseCall) :
    (call.touch gateway).Fits fileRoom textRoom := by
  obtain ⟨rfl, rfl, hFiles, hTexts⟩ := h
  rw [ParseCall.touch]
  split
  · exact ⟨by simp, rfl, BoundedCache.size_touch_le hFiles _, hTexts⟩
  · exact ⟨rfl, by simp, hFiles, BoundedCache.size_touch_le hTexts _⟩

theorem keep (h : gateway.Fits fileRoom textRoom) (call : ParseCall) (payload : Json) :
    (call.keep payload gateway).Fits fileRoom textRoom := by
  obtain ⟨rfl, rfl, hFiles, hTexts⟩ := h
  rw [ParseCall.keep]
  split
  · exact ⟨rfl, rfl, BoundedCache.size_set_le _ _ _, hTexts⟩
  · exact ⟨rfl, rfl, hFiles, BoundedCache.size_set_le _ _ _⟩

theorem clear (h : gateway.Fits fileRoom textRoom) : gateway.clear.Fits fileRoom textRoom := by
  exact ⟨h.fileCapacity, h.textCapacity, Nat.zero_le _, Nat.zero_le _⟩

theorem room_eq (h : gateway.Fits fileRoom textRoom) (call : ParseCall) :
    call.room gateway = if call.ofFile then fileRoom else textRoom := by
  rw [ParseCall.room, h.fileCapacity, h.textCapacity]

theorem kept?_eq_none (h : gateway.Fits fileRoom textRoom) {call : ParseCall}
    (hRoom : call.room gateway = 0) : call.kept? gateway = none := by
  obtain ⟨rfl, rfl, hFiles, hTexts⟩ := h
  simp only [ParseCall.room, ParseCall.kept?] at hRoom ⊢
  cases hFile : call.ofFile <;> rw [hFile] at hRoom
  · exact BoundedCache.find?_eq_none_of_capacity hTexts hRoom _
  · exact BoundedCache.find?_eq_none_of_capacity hFiles hRoom _

end Gateway.Fits

/-! ### Runs -/

/-- What an exact parser says: whether it can be used, or its answer to a question. -/
inductive Exchange where
  | tried (isUsable : Bool)
  | answered (kind : ParseKind) (input : ExactInput) (answer : Except ParseError Json)

/-- The state of a parser, and what it has said so far. -/
structure Overheard (σ : Type) where
  state : σ
  said : List Exchange := []

/-- The same parser, with a note of all that it says. -/
def ExactParser.overheard (parser : ExactParser (StateM σ)) :
    ExactParser (StateM (Overheard σ)) where
  isAvailable := fun heard =>
    let (isUsable, state) := parser.isAvailable heard.state
    (isUsable, { state, said := heard.said ++ [.tried isUsable] })
  run kind input := fun heard =>
    let (answer, state) := parser.run kind input heard.state
    (answer, { state, said := heard.said ++ [.answered kind input answer] })

namespace ExactParser

theorem run_isAvailable (parser : ExactParser (StateM σ)) (heard : Overheard σ) :
    parser.overheard.isAvailable.run heard =
      pure ((parser.isAvailable heard.state).1,
        { state := (parser.isAvailable heard.state).2
          said := heard.said ++ [.tried (parser.isAvailable heard.state).1] }) := rfl

theorem run_run (parser : ExactParser (StateM σ)) (kind : ParseKind) (input : ExactInput)
    (heard : Overheard σ) :
    (parser.overheard.run kind input).run heard =
      pure ((parser.run kind input heard.state).1,
        { state := (parser.run kind input heard.state).2
          said := heard.said ++ [.answered kind input (parser.run kind input heard.state).1] }) :=
  rfl

end ExactParser

inductive GatewayEvent where
  /-- A call, with what the parser has said in it. -/
  | asked (call : ParseCall) (said : List Exchange)
  | cleared

def GatewayEvent.isClearing : GatewayEvent → Bool
  | asked _ _ => false
  | cleared => true

inductive GatewayAct where
  | asks (call : ParseCall)
  | clears

/-- A gateway with the state of the parser behind it, and what has happened. -/
structure GatewayRun (σ : Type) where
  gateway : Gateway (StateM (Overheard σ))
  state : σ
  past : List GatewayEvent := []

/-- What a call leads to: its result, what the parser has said in it, and how things are then. -/
structure GatewayReply (σ : Type) (call : ParseCall) where
  result : List call.kind.Found × Strategy
  said : List Exchange
  next : GatewayRun σ

namespace GatewayRun

/-- Nothing has been asked yet. -/
def start (parser : Option (ExactParser (StateM σ))) (fileRoom textRoom : Nat) (state : σ) :
    GatewayRun σ :=
  { gateway :=
      { parser := parser.map ExactParser.overheard
        fileAnswers := { capacity := fileRoom }
        textAnswers := { capacity := textRoom } }
    state }

def ask (run : GatewayRun σ) (call : ParseCall) : GatewayReply σ call :=
  let ((result, gateway), heard) := (call.ask.run run.gateway).run { state := run.state }
  { result, said := heard.said
    next :=
      { gateway, state := heard.state, past := run.past ++ [.asked call heard.said] } }

def clear (run : GatewayRun σ) : GatewayRun σ :=
  { run with gateway := run.gateway.clear, past := run.past ++ [.cleared] }

def step (run : GatewayRun σ) : GatewayAct → GatewayRun σ
  | .asks call => (run.ask call).next
  | .clears => run.clear

def after (run : GatewayRun σ) (acts : List GatewayAct) : GatewayRun σ := acts.foldl step run

theorem after_concat (run : GatewayRun σ) (acts : List GatewayAct) (act : GatewayAct) :
    run.after (acts ++ [act]) = (run.after acts).step act := by
  rw [after, List.foldl_concat, after]

end GatewayRun

/-- How a call goes: its result, what the parser says, and the gateway afterwards. -/
inductive ParseCall.Goes (call : ParseCall) (run : GatewayRun σ) (reply : GatewayReply σ call) :
    Prop where
  | absent (hParser : run.gateway.parser = none) (hSaid : reply.said = [])
      (hResult : reply.result = (call.scanned, .scanned))
      (hGateway : reply.next.gateway = run.gateway)
  | unusable (hParser : run.gateway.parser ≠ none) (hSaid : reply.said = [.tried false])
      (hResult : reply.result = (call.scanned, .scanned))
      (hGateway : reply.next.gateway = run.gateway)
  | unreadable (hParser : run.gateway.parser ≠ none) (hSaid : reply.said = [.tried true])
      (hReadable : call.isReadable = false) (hResult : reply.result = (call.scanned, .scanned))
      (hGateway : reply.next.gateway = run.gateway)
  | kept {payload : Json} (hParser : run.gateway.parser ≠ none)
      (hSaid : reply.said = [.tried true]) (hReadable : call.isReadable = true)
      (hKept : call.kept? run.gateway = some payload)
      (hResult : reply.result = call.result (decodePayload call.kind payload))
      (hGateway : reply.next.gateway = call.touch run.gateway)
  | answered {answer : Except ParseError Json} (hParser : run.gateway.parser ≠ none)
      (hSaid : reply.said = [.tried true, .answered call.kind call.input answer])
      (hReadable : call.isReadable = true) (hKept : call.kept? run.gateway = none)
      (hResult : reply.result = call.result (call.reading answer))
      (hGateway : reply.next.gateway = call.settle answer run.gateway)

namespace GatewayRun

theorem past_ask (run : GatewayRun σ) (call : ParseCall) :
    (run.ask call).next.past = run.past ++ [.asked call (run.ask call).said] := rfl

theorem ask_goes {run : GatewayRun σ} {parser : Option (ExactParser (StateM σ))}
    (hParser : run.gateway.parser = parser.map ExactParser.overheard) (call : ParseCall) :
    call.Goes run (run.ask call) := by
  generalize hReply : run.ask call = reply
  rw [ask, ParseCall.run_ask, hParser] at hReply
  cases parser with
  | none =>
    subst hReply
    exact .absent hParser rfl rfl rfl
  | some parser =>
    have hSome : run.gateway.parser ≠ none := by simp [hParser]
    simp only [Option.map_some, StateT.run_bind, ExactParser.run_isAvailable] at hReply
    cases hUsable : (parser.isAvailable run.state).1 with
    | false =>
      simp only [hUsable, List.nil_append, bind_pure_comp, pure_bind, Bool.false_eq_true, if_false,
        StateT.run_pure] at hReply
      subst hReply
      exact .unusable hSome rfl rfl rfl
    | true =>
      cases hReadable : call.isReadable with
      | false =>
        simp only [hUsable, List.nil_append, hReadable, Bool.false_eq_true, if_false, if_true,
          pure_bind, StateT.run_pure] at hReply
        subst hReply
        exact .unreadable hSome rfl hReadable rfl rfl
      | true =>
        cases hKept : call.kept? run.gateway with
        | some payload =>
          simp only [hUsable, List.nil_append, hReadable, if_true, hKept, pure_bind,
            StateT.run_pure] at hReply
          subst hReply
          exact .kept hSome rfl hReadable hKept rfl rfl
        | none =>
          simp only [hUsable, List.nil_append, hReadable, if_true, hKept, bind_pure_comp, pure_bind,
            StateT.run_map, ExactParser.run_run, List.cons_append, map_pure] at hReply
          subst hReply
          exact .answered hSome rfl hReadable hKept rfl rfl

end GatewayRun

/-! ### What is kept has been said -/

/-- Two calls ask about the same: about one text, or about one file that has not changed. -/
structure ParseCall.Alike (call other : ParseCall) : Prop where
  kind : call.kind = other.kind
  ofFile : call.ofFile = other.ofFile
  file : call.ofFile = true → call.path.same other.path = true ∧
    call.disk.modified? call.path = other.disk.modified? other.path
  text : call.ofFile = false → call.text = other.text

theorem ParseCall.Alike.refl (call : ParseCall) : call.Alike call :=
  ⟨rfl, rfl, fun _ => ⟨Path.same_refl _, rfl⟩, fun _ => rfl⟩

theorem ParseCall.AsksAs.alike {call other : ParseCall} {known : Set String}
    (h : call.AsksAs other) (hDigests : Set.InjOn Text.contentDigest known)
    (hText : call.text ∈ known) (hOther : other.text ∈ known)
    (hReadable : call.isReadable = true) (hReadableOther : other.isReadable = true) :
    call.Alike other := by
  refine ⟨h.kind, h.ofFile, ?_, ?_⟩
  · intro hFile
    obtain ⟨-, hPath, hModified⟩ := FileQuestion.beq_iff.mp (h.file hFile)
    have hFileOther : other.ofFile = true := h.ofFile.symm.trans hFile
    simp only [ParseCall.isReadable, hFile, hFileOther, Bool.not_true, Bool.false_or,
      Option.isSome_iff_exists] at hReadable hReadableOther
    obtain ⟨time, hTime⟩ := hReadable
    obtain ⟨timeOther, hTimeOther⟩ := hReadableOther
    simp only [ParseCall.fileQuestion, hTime, hTimeOther, Option.getD_some] at hModified
    exact ⟨hPath, by rw [hTime, hTimeOther, hModified]⟩
  · intro hContent
    exact hDigests hText hOther (congrArg TextQuestion.digest (h.text hContent))

/-- The parser has given this answer when it was last asked about the same, and nothing has been
forgotten since. -/
def GatewayRun.Returned (run : GatewayRun σ) (call : ParseCall) (payload : Json) : Prop :=
  Since GatewayEvent.isClearing
    (fun event => ∃ other said, event = .asked other said ∧ call.Alike other ∧
      .answered other.kind other.input (.ok payload) ∈ said) run.past

/-- What a gateway keeps can be decoded, fits into its room and has been said by the parser. -/
structure GatewayRun.Keeps (parser : Option (ExactParser (StateM σ))) (fileRoom textRoom : Nat)
    (known : Set String) (run : GatewayRun σ) : Prop where
  parser : run.gateway.parser = parser.map ExactParser.overheard
  fits : run.gateway.Fits fileRoom textRoom
  decodes : ∀ (call : ParseCall) (payload : Json), call.kept? run.gateway = some payload →
    ∃ found, decodePayload call.kind payload = .ok found
  returned : ∀ (call : ParseCall) (payload : Json), call.kept? run.gateway = some payload →
    call.isReadable = true → call.text ∈ known → run.Returned call payload

namespace GatewayRun

variable {parser : Option (ExactParser (StateM σ))} {fileRoom textRoom : Nat} {state : σ}
  {known : Set String} {run : GatewayRun σ}

theorem Returned.ask {call : ParseCall} {payload : Json} (h : run.Returned call payload)
    (asked : ParseCall) : (run.ask asked).next.Returned call payload := by
  rw [Returned, past_ask, since_concat]
  exact ⟨rfl, .inr h⟩

theorem returned_ask_self {call other : ParseCall} {payload : Json}
    (hSaid : .answered other.kind other.input (.ok payload) ∈ (run.ask other).said)
    (hAlike : call.Alike other) : (run.ask other).next.Returned call payload := by
  rw [Returned, past_ask, since_concat]
  exact ⟨rfl, .inl ⟨other, _, rfl, hAlike, hSaid⟩⟩

namespace Keeps

theorem start : (GatewayRun.start parser fileRoom textRoom state).Keeps parser fileRoom textRoom
    known := by
  refine ⟨rfl, ⟨rfl, rfl, Nat.zero_le _, Nat.zero_le _⟩, ?_, ?_⟩
  all_goals
    intro call payload hKept
    have hNone : call.kept? (GatewayRun.start parser fileRoom textRoom state).gateway = none := by
      simp [ParseCall.kept?, GatewayRun.start, BoundedCache.find?]
    rw [hNone] at hKept
    cases hKept

/-- A call after which the same answers are kept. -/
theorem ask_of_kept_eq (h : run.Keeps parser fileRoom textRoom known) {asked : ParseCall}
    (hParser : (run.ask asked).next.gateway.parser = run.gateway.parser)
    (hFits : (run.ask asked).next.gateway.Fits fileRoom textRoom)
    (hKept : ∀ call : ParseCall,
      call.kept? (run.ask asked).next.gateway = call.kept? run.gateway) :
    (run.ask asked).next.Keeps parser fileRoom textRoom known := by
  refine ⟨hParser.trans h.parser, hFits, ?_, ?_⟩
  · intro call payload hPayload
    exact h.decodes call payload ((hKept call).symm.trans hPayload)
  · intro call payload hPayload hReadable hText
    exact (h.returned call payload ((hKept call).symm.trans hPayload) hReadable hText).ask asked

/-- A call whose answer is kept. -/
theorem ask_of_keep (h : run.Keeps parser fileRoom textRoom known)
    (hDigests : Set.InjOn Text.contentDigest known) {asked : ParseCall} {payload : Json}
    {found : List asked.kind.Found} (hAsked : asked.text ∈ known)
    (hReadable : asked.isReadable = true)
    (hSaid : .answered asked.kind asked.input (.ok payload) ∈ (run.ask asked).said)
    (hFound : decodePayload asked.kind payload = .ok found)
    (hGateway : (run.ask asked).next.gateway = asked.keep payload run.gateway) :
    (run.ask asked).next.Keeps parser fileRoom textRoom known := by
  refine ⟨?_, ?_, ?_, ?_⟩
  · rw [hGateway, ParseCall.parser_keep, h.parser]
  · rw [hGateway]
    exact h.fits.keep asked payload
  · intro call kept hKept
    rw [hGateway] at hKept
    rcases ParseCall.kept?_keep hKept with ⟨hAsks, rfl⟩ | hBefore
    · rw [hAsks.kind]
      exact ⟨found, hFound⟩
    · exact h.decodes call kept hBefore
  · intro call kept hKept hReadableCall hText
    rw [hGateway] at hKept
    rcases ParseCall.kept?_keep hKept with ⟨hAsks, rfl⟩ | hBefore
    · exact returned_ask_self hSaid
        (hAsks.alike hDigests hText hAsked hReadableCall hReadable)
    · exact (h.returned call kept hBefore hReadableCall hText).ask asked

theorem ask (h : run.Keeps parser fileRoom textRoom known)
    (hDigests : Set.InjOn Text.contentDigest known) {asked : ParseCall}
    (hAsked : asked.text ∈ known) : (run.ask asked).next.Keeps parser fileRoom textRoom known := by
  have hSame (hGateway : (run.ask asked).next.gateway = run.gateway) :
      (run.ask asked).next.Keeps parser fileRoom textRoom known :=
    h.ask_of_kept_eq (by rw [hGateway]) (by rw [hGateway]; exact h.fits) (by simp [hGateway])
  cases ask_goes h.parser asked with
  | absent hParser hSaid hResult hGateway => exact hSame hGateway
  | unusable hParser hSaid hResult hGateway => exact hSame hGateway
  | unreadable hParser hSaid hReadable hResult hGateway => exact hSame hGateway
  | kept hParser hSaid hReadable hKept hResult hGateway =>
    refine h.ask_of_kept_eq ?_ ?_ ?_
    · rw [hGateway, ParseCall.parser_touch]
    · rw [hGateway]
      exact h.fits.touch asked
    · intro call
      rw [hGateway, ParseCall.kept?_touch]
  | @answered answer hParser hSaid hReadable hKept hResult hGateway =>
    cases answer with
    | error error => exact hSame hGateway
    | ok payload =>
      rw [ParseCall.settle] at hGateway
      cases hFound : decodePayload asked.kind payload with
      | error error =>
        rw [hFound] at hGateway
        exact hSame hGateway
      | ok found =>
        rw [hFound] at hGateway
        refine h.ask_of_keep hDigests hAsked hReadable ?_ hFound hGateway
        simp [hSaid]

theorem clear (h : run.Keeps parser fileRoom textRoom known) :
    run.clear.Keeps parser fileRoom textRoom known := by
  have hNone (call : ParseCall) : call.kept? run.clear.gateway = none := call.kept?_clear _
  refine ⟨h.parser, h.fits.clear, ?_, ?_⟩
  all_goals
    intro call payload hKept
    rw [hNone] at hKept
    cases hKept

theorem after (hDigests : Set.InjOn Text.contentDigest known) (acts : List GatewayAct)
    (hKnown : ∀ asked, .asks asked ∈ acts → asked.text ∈ known) :
    ((GatewayRun.start parser fileRoom textRoom state).after acts).Keeps parser fileRoom textRoom
      known := by
  induction acts using List.reverseRecOn with
  | nil => exact start
  | append_singleton acts act ih =>
    have hBefore := ih fun asked hAct => hKnown asked (List.mem_append_left _ hAct)
    rw [after_concat]
    cases act with
    | asks asked => exact hBefore.ask hDigests (hKnown asked (by simp))
    | clears => exact hBefore.clear

end Keeps

/-! ### Results -/

/-- What can be told of the result of a call. -/
structure Classifies (parser : Option (ExactParser (StateM σ))) (fileRoom textRoom : Nat)
    (run : GatewayRun σ) {call : ParseCall} (reply : GatewayReply σ call) : Prop where
  /-- An exact result is read off an answer that the parser has given in this call, or about the
  same in an earlier one that has not been forgotten. -/
  exact : ∀ found, reply.result = (found, .exact) →
    ∃ payload, decodePayload call.kind payload = .ok found ∧ reply.next.Returned call payload
  /-- Any other result is that of the scanner, and nothing is kept for it. -/
  scanned : reply.result.2 = .scanned →
    reply.result.1 = call.scanned ∧ reply.next.gateway = run.gateway
  /-- The scanner's result is taken exactly where there is no parser, it cannot be used, the file
  cannot be looked at, or nothing is kept and no result can be read off this call's answer. -/
  scanned_iff : reply.result.2 = .scanned ↔
    parser = none ∨ .tried false ∈ reply.said ∨ call.isReadable = false ∨
      call.kept? run.gateway = none ∧ ∃ answer error,
        .answered call.kind call.input answer ∈ reply.said ∧ call.reading answer = .error error
  /-- What is kept can be read again, and then the parser is not asked. -/
  kept : ∀ payload, call.kept? run.gateway = some payload →
    (∃ found, decodePayload call.kind payload = .ok found ∧
      (reply.result.2 = .exact → reply.result.1 = found)) ∧
    ∀ kind input answer, .answered kind input answer ∉ reply.said
  /-- What can be read is kept if there is room. -/
  keeps : ∀ payload found, .answered call.kind call.input (.ok payload) ∈ reply.said →
    decodePayload call.kind payload = .ok found →
    0 < (if call.ofFile then fileRoom else textRoom) →
    call.kept? reply.next.gateway = some payload
  /-- Nothing is kept without room. -/
  kept_none : (if call.ofFile then fileRoom else textRoom) = 0 → call.kept? run.gateway = none
  fits : reply.next.gateway.Fits fileRoom textRoom

/-- A call that ends with the scanner before anything is looked up. -/
theorem Classifies.of_scanned (h : run.Keeps parser fileRoom textRoom known) {call : ParseCall}
    (hResult : (run.ask call).result = (call.scanned, .scanned))
    (hGateway : (run.ask call).next.gateway = run.gateway)
    (hSaid : ∀ kind input answer, .answered kind input answer ∉ (run.ask call).said)
    (hCause : parser = none ∨ .tried false ∈ (run.ask call).said ∨ call.isReadable = false) :
    run.Classifies parser fileRoom textRoom (run.ask call) where
  exact found hFound := by
    rw [hResult] at hFound
    cases hFound
  scanned _ := ⟨by rw [hResult], hGateway⟩
  scanned_iff := by
    refine ⟨fun _ => ?_, fun _ => by rw [hResult]⟩
    rcases hCause with hParser | hUsable | hReadable
    · exact .inl hParser
    · exact .inr (.inl hUsable)
    · exact .inr (.inr (.inl hReadable))
  kept payload hKept := by
    obtain ⟨found, hFound⟩ := h.decodes call payload hKept
    refine ⟨⟨found, hFound, fun hExact => ?_⟩, hSaid⟩
    rw [hResult] at hExact
    cases hExact
  keeps payload found hAnswered := absurd hAnswered (hSaid _ _ _)
  kept_none hRoom := h.fits.kept?_eq_none ((h.fits.room_eq call).trans hRoom)
  fits := by
    rw [hGateway]
    exact h.fits

/-- Whatever a parser answers, and however calls and clearings have followed each other: the next
result is exact only by an answer to the same question, it is the scanner's exactly where there is
no such answer, and only what can be read is kept. The digest is assumed to tell the texts apart that
the calls are about. -/
theorem classifies_after {parser : Option (ExactParser (StateM σ))} {fileRoom textRoom : Nat}
    {state : σ} {acts : List GatewayAct} {call : ParseCall} {known : Set String}
    (hDigests : Set.InjOn Text.contentDigest known)
    (hKnown : ∀ asked, .asks asked ∈ acts → asked.text ∈ known) (hText : call.text ∈ known) :
    let run := (start parser fileRoom textRoom state).after acts
    run.Classifies parser fileRoom textRoom (run.ask call) := by
  intro run
  have h : run.Keeps parser fileRoom textRoom known := .after hDigests acts hKnown
  have hRoom := h.fits.room_eq call
  have hPresent (hParser : run.gateway.parser ≠ none) : parser ≠ none := by
    rintro rfl
    exact hParser h.parser
  cases ask_goes h.parser call with
  | absent hParser hSaid hResult hGateway =>
    have hAbsent : parser = none := by simpa [h.parser] using hParser
    exact .of_scanned h hResult hGateway (by simp [hSaid]) (.inl hAbsent)
  | unusable hParser hSaid hResult hGateway =>
    exact .of_scanned h hResult hGateway (by simp [hSaid]) (.inr (.inl (by simp [hSaid])))
  | unreadable hParser hSaid hReadable hResult hGateway =>
    exact .of_scanned h hResult hGateway (by simp [hSaid]) (.inr (.inr hReadable))
  | @kept payload hParser hSaid hReadable hKept hResult hGateway =>
    obtain ⟨found, hFound⟩ := h.decodes call payload hKept
    have hExact : (run.ask call).result = (found, .exact) := by rw [hResult, hFound]; rfl
    refine ⟨?_, ?_, ?_, ?_, ?_, ?_, (h.ask hDigests hText).fits⟩
    · intro other hOther
      cases hExact.symm.trans hOther
      exact ⟨payload, hFound, (h.returned call payload hKept hReadable hText).ask call⟩
    · intro hScanned
      rw [hExact] at hScanned
      cases hScanned
    · simp [hExact, hPresent hParser, hSaid, hReadable]
    · intro other hOther
      cases hKept.symm.trans hOther
      exact ⟨⟨found, hFound, fun _ => by rw [hExact]⟩, by simp [hSaid]⟩
    · intro other _ hOther
      simp [hSaid] at hOther
    · intro hNone
      exact h.fits.kept?_eq_none (hRoom.trans hNone)
  | @answered answer hParser hSaid hReadable hKept hResult hGateway =>
    refine ⟨?_, ?_, ?_, ?_, ?_, ?_, (h.ask hDigests hText).fits⟩
    · intro found hFound
      have hReading := ParseCall.result_eq_exact.mp (hResult.symm.trans hFound)
      obtain ⟨payload, rfl, hPayload⟩ := ParseCall.reading_eq_ok.mp hReading
      exact ⟨payload, hPayload, returned_ask_self (by simp [hSaid]) (.refl call)⟩
    · intro hScanned
      rw [hResult] at hScanned
      obtain ⟨error, hError⟩ := ParseCall.result_eq_scanned.mp hScanned
      rw [hResult, hGateway, hError]
      exact ⟨rfl, ParseCall.settle_eq_self hError _⟩
    · rw [hResult, ParseCall.result_eq_scanned]
      simp [hPresent hParser, hSaid, hReadable, hKept]
    · intro payload hPayload
      rw [hKept] at hPayload
      cases hPayload
    · intro payload found hAnswered hFound hSome
      have hAnswer : answer = .ok payload := by simpa [hSaid, eq_comm] using hAnswered
      rw [hGateway, hAnswer, ParseCall.settle, hFound]
      exact ParseCall.kept?_keep_self call payload (hRoom ▸ hSome)
    · intro _
      exact hKept

/-- A parser that fails, answers, answers something else after its answer has been forgotten, and is
not asked again. -/
theorem classifies_after_replay :
    let parser : ExactParser (StateM Replay) := Replay.parser
    let call : ParseCall := ⟨{}, .markup, ⟨"/a.heex"⟩, "", false⟩
    let usage : ReportedUsage := { name := "a", start := 0, stop := 1 }
    let state : Replay :=
      { answers := [.error .malformed, .ok (.obj []), .ok (call.kind.encode [usage])] }
    let run := (start (some parser) 0 1 state).after
      [.asks call, .asks call, .clears, .asks call]
    (run.ask call).result = ([usage], .exact) ∧ (run.ask call).next.state.asked.length = 3 ∧
      run.Classifies (some parser) 0 1 (run.ask call) := by
  intro parser call usage state run
  have hReply : (run.ask call).result = ([usage], .exact) ∧
      (run.ask call).next.state.asked.length = 3 := by decide +kernel
  refine ⟨hReply.1, hReply.2, ?_⟩
  have hKnown : ∀ asked, .asks asked ∈ [GatewayAct.asks call, .asks call, .clears, .asks call] →
      asked.text ∈ ({""} : Set String) := by
    intro asked hAsked
    have hCall : asked = call := by simpa using hAsked
    rw [hCall]
    rfl
  exact classifies_after (Set.injOn_singleton _ _) hKnown rfl

end GatewayRun

end PhoenixLens
