import Mathlib.Data.List.Basic
import Mathlib.Data.List.Induction
import PhoenixLens.Session.Message

/-!
# What an editor says of documents

Four notices of an editor are about the text of a document: it is opened with a text, it changes to
one text after the other, it is saved, and it is closed. The protocol says which text the document
has behind them. A session reads of several changes the first alone.
-/

namespace PhoenixLens

/-! ### Acts -/

/-- What an editor says of a document. -/
inductive DocumentAct where
  | opens (uri : Uri) (text : String)
  /-- The document changes to one text after the other. -/
  | changes (uri : Uri) (texts : List String)
  | saves (uri : Uri) (text : Option String)
  | closes (uri : Uri)
deriving DecidableEq

namespace DocumentAct

/-- The text of a document behind an act, as the protocol has it: all changes are made, one after
the other, to a document that is open. -/
def meant (uri : Uri) (text : Option String) : DocumentAct → Option String
  | opens other new => if other = uri then some new else text
  | changes other texts =>
    if other = uri then text.map fun old => texts.foldl (fun _ new => new) old else text
  | saves _ _ => text
  | closes other => if other = uri then none else text

/-- The text that a session has of a document behind an act: it takes every text that comes, and of
several changes the first. -/
def stored (uri : Uri) (text : Option String) : DocumentAct → Option String
  | opens other new => if other = uri then some new else text
  | changes other texts => if other = uri then texts.head?.or text else text
  | saves other new => if other = uri then new.or text else text
  | closes other => if other = uri then none else text

def uri : DocumentAct → Uri
  | opens uri _ | changes uri _ | saves uri _ | closes uri => uri

/-- The texts that acts lead to, as the protocol has it. -/
def textMeant (texts : Uri → Option String) (acts : List DocumentAct) (uri : Uri) :
    Option String :=
  acts.foldl (meant uri) (texts uri)

/-- What is changed is open, and a text that is saved is the one that the document has. -/
def Fits (texts : Uri → Option String) : DocumentAct → Prop
  | opens _ _ | closes _ => True
  | changes uri _ => (texts uri).isSome = true
  | saves uri text => ∀ new, text = some new → texts uri = some new

/-- The editor keeps to the protocol, with the texts that documents have at first. -/
def KeepTo : (Uri → Option String) → List DocumentAct → Prop
  | _, [] => True
  | texts, act :: acts => act.Fits texts ∧ KeepTo (fun uri => meant uri (texts uri) act) acts

/-- The act brings a text of the document, or takes it away. -/
def concerns (uri : Uri) : DocumentAct → Bool
  | opens other _ | closes other => other = uri
  | changes other texts => other = uri && !texts.isEmpty
  | saves other text => other = uri && text.isSome

/-- The last act that brings a text of the document or takes it away. -/
def last? (uri : Uri) (acts : List DocumentAct) : Option DocumentAct :=
  (acts.filter (·.concerns uri)).getLast?

def ofNotice : Notice → Option DocumentAct
  | .opened uri text => some (opens uri text)
  | .edited uri text => some (changes uri text.toList)
  | .saved uri text => some (saves uri text)
  | .closed uri => some (closes uri)
  | _ => none

/-! ### What the protocol means -/

theorem last?_concat (uri : Uri) (acts : List DocumentAct) (act : DocumentAct) :
    last? uri (acts ++ [act]) = if act.concerns uri then some act else last? uri acts := by
  rw [last?, List.filter_append, List.filter_singleton]
  cases act.concerns uri with
  | true => simp
  | false => simp [last?]

theorem stored_of_not_concerns {uri : Uri} {act : DocumentAct} (h : act.concerns uri = false)
    (text : Option String) : stored uri text act = text ∧ meant uri text act = text := by
  cases act with
  | opens other new =>
    rw [stored, meant, if_neg (of_decide_eq_false h)]
    exact ⟨rfl, rfl⟩
  | changes other texts =>
    rw [stored, meant]
    split
    · next hOther =>
      rw [concerns, decide_eq_true hOther, Bool.true_and, Bool.not_eq_false',
        List.isEmpty_iff] at h
      rw [h]
      exact ⟨rfl, Option.map_id_apply⟩
    · exact ⟨rfl, rfl⟩
  | saves other new =>
    rw [stored, meant]
    split
    · next hOther =>
      rw [concerns, decide_eq_true hOther, Bool.true_and, Option.isSome_eq_false_iff,
        Option.isNone_iff_eq_none] at h
      rw [h]
      exact ⟨rfl, rfl⟩
    · exact ⟨rfl, rfl⟩
  | closes other =>
    rw [stored, meant, if_neg (of_decide_eq_false h)]
    exact ⟨rfl, rfl⟩

theorem keepTo_concat {texts : Uri → Option String} {acts : List DocumentAct}
    {act : DocumentAct} :
    KeepTo texts (acts ++ [act]) ↔ KeepTo texts acts ∧ act.Fits (textMeant texts acts) := by
  induction acts generalizing texts with
  | nil => exact and_comm
  | cons first acts ih =>
    rw [List.cons_append, KeepTo, KeepTo, ih, and_assoc]
    rfl

theorem foldl_changes (texts : List String) (old : String) :
    texts.foldl (fun _ new => new) old = texts.getLast?.getD old := by
  induction texts using List.reverseRecOn with
  | nil => rfl
  | append_singleton texts new _ => rw [List.foldl_concat, List.getLast?_concat, Option.getD_some]

/-- A text is stored as the protocol means it, unless the last act brings several changes of which
the first is not the last. -/
theorem stored_eq_meant_iff {texts : Uri → Option String} {acts : List DocumentAct}
    (h : KeepTo texts acts) (uri : Uri) :
    acts.foldl (stored uri) (texts uri) = textMeant texts acts uri ↔
      ∀ changed, last? uri acts = some (changes uri changed) →
        changed.head? = changed.getLast? := by
  induction acts using List.reverseRecOn with
  | nil => exact iff_of_true rfl (by rintro _ ⟨⟩)
  | append_singleton acts act ih =>
    obtain ⟨hBefore, hFits⟩ := keepTo_concat.mp h
    rw [textMeant, List.foldl_concat, List.foldl_concat, ← textMeant, last?_concat]
    cases hConcerns : act.concerns uri with
    | false =>
      rw [(stored_of_not_concerns hConcerns _).1, (stored_of_not_concerns hConcerns _).2]
      exact ih hBefore
    | true =>
      rw [if_pos rfl]
      cases act with
      | opens other new =>
        obtain rfl : other = uri := of_decide_eq_true hConcerns
        rw [stored, meant, if_pos rfl, if_pos rfl]
        exact iff_of_true rfl (by rintro _ ⟨⟩)
      | closes other =>
        obtain rfl : other = uri := of_decide_eq_true hConcerns
        rw [stored, meant, if_pos rfl, if_pos rfl]
        exact iff_of_true rfl (by rintro _ ⟨⟩)
      | saves other saved =>
        obtain ⟨hOther, hSaved⟩ := Bool.and_eq_true_iff.mp hConcerns
        obtain rfl : other = uri := of_decide_eq_true hOther
        obtain ⟨new, rfl⟩ := Option.isSome_iff_exists.mp hSaved
        rw [stored, meant, if_pos rfl, hFits new rfl]
        exact iff_of_true rfl (by rintro _ ⟨⟩)
      | changes other changed =>
        obtain ⟨hOther, hChanged⟩ := Bool.and_eq_true_iff.mp hConcerns
        obtain rfl : other = uri := of_decide_eq_true hOther
        obtain ⟨old, hOld⟩ := Option.isSome_iff_exists.mp hFits
        have hNe : changed ≠ [] := by simpa using hChanged
        rw [stored, meant, if_pos rfl, if_pos rfl, hOld, Option.map_some, foldl_changes]
        simp only [Option.some.injEq, changes.injEq, true_and, forall_eq']
        rw [List.head?_eq_some_head hNe, List.getLast?_eq_some_getLast hNe]
        rfl

end DocumentAct

namespace EditorMessage

/-- The document of a message and all the texts that it changes to. -/
def decodeChanges : Json → Option (Uri × List String) := Json.decodeRecord do
  let uri ← Json.required "textDocument" decodeEdited.versioned
  return (uri, ← Json.required "contentChanges" (Json.decodeList decodeEdited.change))

def act? (message : EditorMessage) : Option DocumentAct :=
  if message.isRequest then none
  else if message.method = "textDocument/didChange" then
    (message.params.bind decodeChanges).map fun d => .changes d.1 d.2
  else
    (noticeReader? message.method).bind fun read =>
      (read message.params).bind DocumentAct.ofNotice

/-- The message shuts a session down, or ends it. -/
def ends (message : EditorMessage) : Bool :=
  message.method == "shutdown" || message.method == "exit"

end EditorMessage

/-! ### Several changes -/

theorem Json.decodeRecord_map {α β : Type} (f : α → β) (reader : Json.Reader α) (value : Json) :
    Json.decodeRecord (f <$> reader) value = (Json.decodeRecord reader value).map f := by
  cases value with
  | obj members =>
    rw [decodeRecord, decodeRecord, StateT.run_map]
    cases reader.run (.members members) <;> rfl
  | arr items =>
    rw [decodeRecord, decodeRecord, StateT.run_map]
    cases hRun : reader.run (.fields items) with
    | none => rfl
    | some read =>
      obtain ⟨a, rest⟩ := read
      cases rest with
      | members => rfl
      | fields rest => cases rest <;> rfl
  | _ => rfl

/-- Of several changes a session has the first. -/
theorem decodeEdited_eq (value : Json) : EditorMessage.decodeEdited value =
    (EditorMessage.decodeChanges value).map fun d => .edited d.1 d.2.head? := by
  rw [EditorMessage.decodeChanges, ← Json.decodeRecord_map]
  simp only [map_bind, map_pure]
  rfl

/-! ### Messages -/

namespace EditorMessage

variable {message : EditorMessage}

theorem act?_of_noticeReader? (h : noticeReader? message.method = none) : message.act? = none := by
  rw [act?]
  split
  · rfl
  · split
    · next hMethod =>
      rw [hMethod] at h
      cases h
    · rw [h]
      rfl

/-- The methods of notices that something may follow from. -/
def noticeMethods : List String :=
  ["initialized", "textDocument/didOpen", "textDocument/didChange", "textDocument/didSave",
    "textDocument/didClose", "workspace/didChangeWatchedFiles"]

theorem noticeReader?_of_not_mem {method : String} (h : method ∉ noticeMethods) :
    noticeReader? method =
      if ignoredNotices.contains method then some fun _ => some .ignored else none := by
  simp only [noticeMethods, List.mem_cons, List.not_mem_nil, or_false, not_or] at h
  obtain ⟨hInitialized, hOpened, hEdited, hSaved, hClosed, hFiles⟩ := h
  rw [noticeReader?] <;> assumption

/-- A method of a query is none of a notice that says something of a document. -/
theorem act?_of_queryReader? {read : Option Json → Option Query}
    (h : queryReader? message.method = some read) : message.act? = none := by
  have hOther : message.method ∉ noticeMethods := by
    intro hMem
    have hNone : ∀ method ∈ noticeMethods, queryReader? method = none := by decide
    rw [hNone _ hMem] at h
    cases h
  have hNotEdited : message.method ≠ "textDocument/didChange" := by
    rintro hMethod
    rw [hMethod] at hOther
    exact hOther (by decide)
  rw [act?, if_neg hNotEdited, noticeReader?_of_not_mem hOther]
  split
  · rfl
  · split <;> rfl

theorem act?_of_ends (h : message.ends = true) : message.act? = none := by
  apply act?_of_noticeReader?
  obtain hMethod | hMethod := Bool.or_eq_true_iff.mp h
  · rw [beq_iff_eq.mp hMethod]
    rfl
  · rw [beq_iff_eq.mp hMethod]
    rfl

/-! ### Messages as an editor writes them -/

/-- The message by which an editor says an act of a document, with a version where one is due. -/
def ofAct (name : String) (version : Int) (act : DocumentAct) : EditorMessage :=
  { method := method act, params := some (params act), isRequest := false }
where
  method : DocumentAct → String
    | .opens _ _ => "textDocument/didOpen"
    | .changes _ _ => "textDocument/didChange"
    | .saves _ _ => "textDocument/didSave"
    | .closes _ => "textDocument/didClose"
  textMember (text : String) : String × Json := ("text", .str text)
  document (more : List (String × Json)) : String × Json :=
    ("textDocument", .obj (("uri", .str name) :: more))
  params : DocumentAct → Json
    | .opens _ text =>
      .obj [document
        [("languageId", .str "elixir"), ("version", .int version), textMember text]]
    | .changes _ texts =>
      .obj [document [("version", .int version)],
        ("contentChanges", .arr (texts.map fun text => .obj [textMember text]))]
    | .saves _ text => .obj (document [] :: text.toList.map textMember)
    | .closes _ => .obj [document []]

section

variable {name : String} {version : Int} {uri : Uri}

theorem decodeOpened_params (hName : Uri.parse? name = some uri)
    (hVersion : -0x80000000 ≤ version ∧ version < 0x80000000) (text : String) :
    decodeOpened (ofAct.params name version (.opens uri text)) = some (.opened uri text) := by
  simp [decodeOpened, decodeOpened.item, ofAct.params, ofAct.document, ofAct.textMember,
    Json.decodeRecord, Json.required, Json.nextField, decodeUri, Json.asString?, hName,
    Json.decodeString, Json.decodeInt32, hVersion]

theorem decodeChanges_params (hName : Uri.parse? name = some uri)
    (hVersion : -0x80000000 ≤ version ∧ version < 0x80000000) (texts : List String) :
    decodeChanges (ofAct.params name version (.changes uri texts)) = some (uri, texts) := by
  have hTexts : texts.mapM (decodeEdited.change ∘ fun text => .obj [ofAct.textMember text]) =
      some texts := by
    induction texts with
    | nil => rfl
    | cons text texts ih =>
      rw [List.mapM_cons, ih]
      rfl
  simp [decodeChanges, decodeEdited.versioned, ofAct.params, ofAct.document, Json.decodeRecord,
    Json.required, Json.nextField, decodeUri, Json.asString?, hName, Json.decodeInt32, hVersion,
    Json.decodeList, hTexts]

theorem decodeSaved_params (hName : Uri.parse? name = some uri) (text : Option String) :
    decodeSaved (ofAct.params name version (.saves uri text)) = some (.saved uri text) := by
  cases text with
  | none =>
    simp [decodeSaved, decodeDocument.identifier, ofAct.params, ofAct.document, Json.decodeRecord,
      Json.required, Json.nextField, decodeUri, Json.asString?, hName, Json.orNull, Json.optional,
      Json.withDefault]
  | some text =>
    simp [decodeSaved, decodeDocument.identifier, ofAct.params, ofAct.document, ofAct.textMember,
      Json.decodeRecord, Json.required, Json.nextField, decodeUri, Json.asString?, hName,
      Json.orNull, Json.optional, Json.withDefault, Json.nullable, Json.decodeString]

theorem decodeDocument_params (hName : Uri.parse? name = some uri) :
    decodeDocument (ofAct.params name version (.closes uri)) = some uri := by
  simp [decodeDocument, decodeDocument.identifier, ofAct.params, ofAct.document,
    Json.decodeRecord, Json.required, Json.nextField, decodeUri, Json.asString?, hName]

/-- A message says what it has been written for. -/
theorem act?_ofAct {act : DocumentAct} (hName : Uri.parse? name = some act.uri)
    (hVersion : -0x80000000 ≤ version ∧ version < 0x80000000) :
    (ofAct name version act).act? = some act := by
  cases act with
  | opens uri text =>
    exact congrArg (Option.bind · DocumentAct.ofNotice) (decodeOpened_params hName hVersion text)
  | changes uri texts => exact congrArg (Option.map _) (decodeChanges_params hName hVersion texts)
  | saves uri text =>
    exact congrArg (Option.bind · DocumentAct.ofNotice) (decodeSaved_params hName text)
  | closes uri =>
    exact congrArg (Option.bind · DocumentAct.ofNotice)
      (congrArg (Option.map .closed) (decodeDocument_params hName))

end

/-- The text that the notice of a message leads to is that of all that the message says. -/
theorem stored_act? (hNotice : message.isRequest = false) {read : Option Json → Option Notice}
    (hRead : noticeReader? message.method = some read) (uri : Uri) (text : Option String) :
    message.act?.elim text (DocumentAct.stored uri text) =
      ((read message.params).bind DocumentAct.ofNotice).elim text
        (DocumentAct.stored uri text) := by
  rw [act?, hNotice, if_neg Bool.false_ne_true]
  split
  · next hMethod =>
    rw [hMethod] at hRead
    cases hRead
    cases message.params with
    | none => rfl
    | some value =>
      simp only [Option.bind_some, decodeEdited_eq]
      cases decodeChanges value with
      | none => rfl
      | some d =>
        obtain ⟨other, texts⟩ := d
        cases texts <;> rfl
  · rw [hRead]
    rfl

end EditorMessage

end PhoenixLens
