import PhoenixLens.Json.Decode
import PhoenixLens.Path.Basic
import PhoenixLens.Proofs.Json.Lexing

/-!
# Values and records that are read back

The tokens of a value put the value where it belongs, wherever they stand. So the compact form of a
value is read as the value itself, with the members of its objects in order of their names.

A value survives if it can be written and is read as what it was made from, with its members in
order of their names. Encoders list the fields of a record in the order in which decoders take them,
so a record survives field by field.
-/

namespace PhoenixLens.Json

def stepAll (state : List Frame × Expecting) (tokens : List Token) :
    Option (List Frame × Expecting) :=
  tokens.foldlM (fun (frames, expecting) token => step frames expecting token) state

@[simp] theorem stepAll_nil (state : List Frame × Expecting) : stepAll state [] = some state := rfl

theorem stepAll_cons {frames : List Frame} {expecting : Expecting} {token : Token}
    {next : List Frame × Expecting} (h : step frames expecting token = some next)
    (tokens : List Token) : stepAll (frames, expecting) (token :: tokens) = stepAll next tokens := by
  simp only [stepAll, List.foldlM_cons, h, Option.bind_eq_bind, Option.bind_some]

theorem stepAll_singleton (frames : List Frame) (expecting : Expecting) (token : Token) :
    stepAll (frames, expecting) [token] = step frames expecting token := by
  simp [stepAll]

theorem stepAll_append (state : List Frame × Expecting) (tokens more : List Token) :
    stepAll state (tokens ++ more) = (stepAll state tokens).bind (stepAll · more) := by
  rw [stepAll, List.foldlM_append]
  rfl

/-- Tokens that put a value where it belongs, if there is room for so many containers in it. -/
def Builds (depth : Nat) (tokens : List Token) (value : Json) : Prop :=
  ∀ frames, frames.length + depth ≤ depthLimit →
    stepAll (frames, .value) tokens = place value frames

/-- The tokens of a value do not begin with the end of a container. -/
theorem stepAll_firstItem (value : Json) (frames : List Frame) :
    stepAll (frames, .firstItem) (tokensOf value) = stepAll (frames, .value) (tokensOf value) := by
  cases value with
  | arr items => rw [tokensOf_arr]; rfl
  | obj members => rw [tokensOf_obj]; rfl
  | _ => rfl

/-- The items of an array, after those that are there already. -/
theorem stepAll_items {depth : Nat} {items : List Json} (hNe : items ≠ []) {frames : List Frame}
    (hRoom : frames.length + (depth + 1) ≤ depthLimit)
    (h : ∀ item ∈ items, Builds depth (tokensOf item) (ordered item)) (before : List Json) :
    stepAll (.array before :: frames, .value) (separated (items.map tokensOf)) =
      some (.array ((items.map ordered).reverse ++ before) :: frames, .next) := by
  have hInner (before : List Json) : (Frame.array before :: frames).length + depth ≤ depthLimit := by
    rw [List.length_cons]
    omega
  induction items generalizing before with
  | nil => exact absurd rfl hNe
  | cons item items ih =>
    have hItem := h item List.mem_cons_self _ (hInner before)
    cases items with
    | nil =>
      have hAlone : separated ([item].map tokensOf) = tokensOf item := by simp [separated]
      rw [hAlone, hItem]
      rfl
    | cons other items =>
      have hRest := ih (by simp) (fun i hi => h i (List.mem_cons_of_mem _ hi)) (ordered item :: before)
      have hBoth : separated ((item :: other :: items).map tokensOf) =
          tokensOf item ++ .comma :: separated ((other :: items).map tokensOf) := by
        simp [separated]
      rw [hBoth, stepAll_append, hItem]
      change stepAll (.array (ordered item :: before) :: frames, .value) _ = _
      rw [hRest]
      simp

def memberTokens (m : String × Json) : List Token :=
  .quoted (some m.1) :: .colon :: tokensOf m.2

/-- A member, where a name has to stand. -/
theorem stepAll_member {depth : Nat} {m : String × Json} {frames : List Frame}
    {expecting : Expecting} (hName : expecting = .name ∨ expecting = .firstName)
    (hRoom : frames.length + (depth + 1) ≤ depthLimit)
    (h : Builds depth (tokensOf m.2) (ordered m.2)) (before : List (String × Json)) :
    stepAll (.object before :: frames, expecting) (memberTokens m) =
      some (.object ((m.1, ordered m.2) :: before) :: frames, .next) := by
  have hStart : step (.object before :: frames) expecting (.quoted (some m.1)) =
      some (.member before m.1 :: frames, .colon) := by
    rcases hName with rfl | rfl <;> rfl
  have hInner : (Frame.member before m.1 :: frames).length + depth ≤ depthLimit := by
    rw [List.length_cons]
    omega
  have hColon : step (.member before m.1 :: frames) .colon .colon =
      some (.member before m.1 :: frames, .value) := rfl
  rw [memberTokens, stepAll_cons hStart, stepAll_cons hColon, h _ hInner]
  rfl

/-- The members of an object, after those that are there already. -/
theorem stepAll_members {depth : Nat} {members : List (String × Json)} (hNe : members ≠ [])
    {frames : List Frame} {expecting : Expecting}
    (hName : expecting = .name ∨ expecting = .firstName)
    (hRoom : frames.length + (depth + 1) ≤ depthLimit)
    (h : ∀ m ∈ members, Builds depth (tokensOf m.2) (ordered m.2))
    (before : List (String × Json)) :
    stepAll (.object before :: frames, expecting) (separated (members.map memberTokens)) =
      some (.object ((mapValues ordered members).reverse ++ before) :: frames, .next) := by
  induction members generalizing before expecting with
  | nil => exact absurd rfl hNe
  | cons m members ih =>
    have hMember := stepAll_member hName hRoom (h m List.mem_cons_self) before
    cases members with
    | nil =>
      have hAlone : separated ([m].map memberTokens) = memberTokens m := by simp [separated]
      rw [hAlone, hMember]
      rfl
    | cons other members =>
      have hRest := ih (by simp) (.inl rfl) (fun n hn => h n (List.mem_cons_of_mem _ hn))
        ((m.1, ordered m.2) :: before)
      have hBoth : separated ((m :: other :: members).map memberTokens) =
          memberTokens m ++ .comma :: separated ((other :: members).map memberTokens) := by
        simp [separated]
      rw [hBoth, stepAll_append, hMember]
      change stepAll (.object ((m.1, ordered m.2) :: before) :: frames, .name) _ = _
      rw [hRest]
      simp [mapValues]

theorem placeContainer_of_room {depth : Nat} {frames : List Frame} (value : Json)
    (hRoom : frames.length + (depth + 1) ≤ depthLimit) :
    placeContainer value frames = place value frames := by
  rw [placeContainer, if_pos (by omega)]

theorem builds_arr {depth : Nat} {items : List Json}
    (h : ∀ item ∈ items, Builds depth (tokensOf item) (ordered item)) :
    Builds (depth + 1) (tokensOf (arr items)) (ordered (arr items)) := by
  intro frames hRoom
  have hOpen : step frames .value .openArray = some (.array [] :: frames, .firstItem) := rfl
  have hOrdered : ordered (arr items) = arr (items.map ordered) := by rw [ordered, orderedItems_eq]
  rw [tokensOf_arr, List.cons_append, stepAll_cons hOpen, hOrdered]
  cases items with
  | nil => exact (stepAll_singleton _ _ _).trans (placeContainer_of_room _ hRoom)
  | cons item items =>
    have hFirst : stepAll (.array [] :: frames, .firstItem)
        (separated ((item :: items).map tokensOf)) =
        stepAll (.array [] :: frames, .value) (separated ((item :: items).map tokensOf)) := by
      obtain ⟨more, hMore⟩ : ∃ more, separated ((item :: items).map tokensOf) =
          tokensOf item ++ more := by cases items <;> simp [separated]
      rw [hMore, stepAll_append, stepAll_append, stepAll_firstItem]
    rw [stepAll_append, hFirst, stepAll_items (by simp) hRoom h, Option.bind_some,
      stepAll_singleton, List.append_nil]
    change placeContainer (arr ((item :: items).map ordered).reverse.reverse) frames = _
    rw [List.reverse_reverse, placeContainer_of_room _ hRoom]

theorem builds_obj {depth : Nat} {members : List (String × Json)}
    (hNames : (members.map (·.1)).Nodup)
    (h : ∀ m ∈ members, Builds depth (tokensOf m.2) (ordered m.2)) :
    Builds (depth + 1) (tokensOf (obj members)) (ordered (obj members)) := by
  intro frames hRoom
  have hOpen : step frames .value .openObject = some (.object [] :: frames, .firstName) := rfl
  have hOrdered : ordered (obj members) = obj (mapValues ordered (byName members)) := by
    rw [ordered, orderedMembers_eq, mapValues_byName]
  have hTokens : (byName members).map (fun m =>
      Token.quoted (some m.1) :: .colon :: tokensOf m.2) = (byName members).map memberTokens := rfl
  have hInner := fun m hm => h m ((byName_perm hNames).mem_iff.mp hm)
  rw [tokensOf_obj, List.cons_append, stepAll_cons hOpen, hOrdered, hTokens]
  by_cases hNil : byName members = []
  · rw [hNil]
    exact (stepAll_singleton _ _ _).trans (placeContainer_of_room _ hRoom)
  · rw [stepAll_append, stepAll_members hNil (.inr rfl) hRoom hInner, Option.bind_some,
      stepAll_singleton, List.append_nil]
    change placeContainer (obj (mapValues ordered (byName members)).reverse.reverse) frames = _
    rw [List.reverse_reverse, placeContainer_of_room _ hRoom]

theorem builds_tokensOf {depth : Nat} {value : Json} (h : Written depth value) :
    Builds depth (tokensOf value) (ordered value) := by
  induction h with
  | null | bool | nat | str => exact fun frames _ => stepAll_singleton _ _ _
  | arr h ih => exact builds_arr ih
  | obj hNames h ih => exact builds_obj hNames ih

/-- The compact form of a value is read as the value. -/
theorem skim?_compact {value : Json} (h : Written depthLimit value) :
    skim? value.compact = some value.ordered := by
  have hBuilds : stepAll ([], .value) (tokensOf value) = some ([], .nothing value.ordered) :=
    builds_tokensOf h [] (Nat.zero_add _).le
  rw [skim?, compact, String.toList_ofList, tokens?_render h]
  simp only [stepAll] at hBuilds
  simp only [Option.bind_eq_bind, Option.bind_some, hBuilds]

/-! ### Records that survive being written -/

variable {α β : Type} {depth : Nat}

/-- The value is one that is written, and what is read back is decoded as `a`. -/
structure Survives (depth : Nat) (decode : Json → Option α) (value : Json) (a : α) : Prop where
  written : Written depth value
  decoded : decode value.ordered = some a

namespace Survives

theorem str (s : String) : Survives depth decodeString (.str s) s := ⟨.str s, rfl⟩

theorem bool (b : Bool) : Survives depth decodeBool (.bool b) b := ⟨.bool b, rfl⟩

theorem path (path : Path) : Survives depth Path.decode path.encode path := ⟨.str _, rfl⟩

theorem nat {bound n : Nat} (hBound : bound ≤ UInt64.size) (h : n < bound) :
    Survives depth (decodeNat bound) (.nat n) n := by
  refine ⟨.nat (Nat.lt_of_lt_of_le h hBound), ?_⟩
  change (some n).filter (· < bound) = some n
  simp [h]

/-- An alternative that is written as its tag. -/
theorem tag {ofTag? : String → Option α} {tag : String} {a : α} (h : ofTag? tag = some a) :
    Survives depth (fun value => decodeTag value >>= ofTag?) (.str tag) a :=
  ⟨.str _, h⟩

theorem list {decode : Json → Option α} {encode : α → Json} {items : List α}
    (h : ∀ a ∈ items, Survives depth decode (encode a) a) :
    Survives (depth + 1) (decodeList decode) (Json.list encode items) items := by
  refine ⟨.list fun a ha => (h a ha).written, ?_⟩
  have hOrdered : ordered (Json.list encode items) = arr (items.map (ordered ∘ encode)) := by
    rw [Json.list, ordered, orderedItems_eq, List.map_map]
  rw [hOrdered]
  change (items.map (ordered ∘ encode)).mapM decode = some items
  clear hOrdered
  induction items with
  | nil => rfl
  | cons a items ih =>
    have hRest := ih fun b hb => h b (List.mem_cons_of_mem _ hb)
    simp [(h a List.mem_cons_self).decoded, hRest]

theorem ordered_ne_null {value : Json} (h : value ≠ null) : value.ordered ≠ null := by
  cases value <;> simp_all [ordered]

/-- An optional value, of which no encoding is `null`. -/
theorem option {decode : Json → Option α} {encode : α → Json} {value : Option α}
    (hNull : ∀ a, encode a ≠ null) (h : ∀ a, value = some a → Survives depth decode (encode a) a) :
    Survives depth (nullable decode) (Json.option encode value) value := by
  cases value with
  | none => exact ⟨.null, rfl⟩
  | some a =>
    obtain ⟨hWritten, hDecoded⟩ := h a rfl
    refine ⟨hWritten, ?_⟩
    rw [Json.option, nullable]
    · rw [hDecoded]
      rfl
    · exact ordered_ne_null (hNull a)

theorem optionalString (value : Option String) :
    Survives depth (nullable decodeString) (Json.option .str value) value :=
  option nofun fun s _ => str s

theorem strings (items : List String) :
    Survives (depth + 1) (decodeList decodeString) (Json.list .str items) items :=
  list fun s _ => str s

end Survives

/-- Reading fields one after the other, of which the record has one each. -/
def Reads (depth : Nat) (record fields : List (String × Json)) (reader : Reader α) (a : α) : Prop :=
  (∀ m ∈ fields, Written depth m.2) ∧
    ((∀ m ∈ fields, record.filter (·.1 == m.1) = [(m.1, m.2.ordered)]) →
      reader.run (.members record) = some (a, .members record))

namespace Reads

variable {record fields : List (String × Json)} {name : String} {value : Json}
  {decode : Json → Option α} {a : α} {next : α → Reader β} {b : β}

theorem done : Reads depth record [] (pure a) a := ⟨nofun, fun _ => rfl⟩

theorem nextField_run (h : record.filter (·.1 == name) = [(name, value)]) :
    (nextField name).run (.members record) = some (some value, .members record) := by
  simp [nextField, h]

/-- A field of which all that follows does not depend on how it is missed. -/
theorem field {reader : Reader α} (hField : Survives depth decode value a)
    (hReader : ∀ found, (nextField name).run (.members record) = some (some found, .members record) →
      reader.run (.members record) = (decode found).map (·, .members record))
    (h : Reads depth record fields (next a) b) :
    Reads depth record ((name, value) :: fields) (reader >>= next) b := by
  obtain ⟨hWritten, hRun⟩ := h
  refine ⟨List.forall_mem_cons.mpr ⟨hField.written, hWritten⟩, fun hRecord => ?_⟩
  obtain ⟨hFirst, hRest⟩ := List.forall_mem_cons.mp hRecord
  rw [StateT.run_bind, hReader _ (nextField_run hFirst), hField.decoded]
  exact hRun hRest

theorem required (hField : Survives depth decode value a)
    (h : Reads depth record fields (next a) b) :
    Reads depth record ((name, value) :: fields) (Json.required name decode >>= next) b := by
  refine field hField (fun found hFound => ?_) h
  rw [Json.required, StateT.run_bind, hFound, Option.bind_eq_bind, Option.bind_some]
  cases hDecoded : decode found <;> simp [hDecoded]

theorem withDefault {default : α} (hField : Survives depth decode value a)
    (h : Reads depth record fields (next a) b) :
    Reads depth record ((name, value) :: fields) (Json.withDefault name default decode >>= next)
      b := by
  refine field hField (fun found hFound => ?_) h
  rw [Json.withDefault, StateT.run_bind, hFound, Option.bind_eq_bind, Option.bind_some]
  cases hDecoded : decode found <;> simp [hDecoded]

end Reads

/-- A record survives with its fields. -/
theorem Survives.record {members : List (String × Json)} {reader : Reader α} {a : α}
    (hNames : (members.map (·.1)).Nodup) (h : ∀ record, Reads depth record members reader a) :
    Survives (depth + 1) (decodeRecord reader) (.obj members) a := by
  obtain ⟨hWritten, hRun⟩ := h (byName (mapValues ordered members))
  refine ⟨.obj hNames hWritten, ?_⟩
  have hOrdered : ((mapValues ordered members).map (·.1)).Nodup := by rwa [map_fst_mapValues]
  have hFields : ∀ m ∈ members, (byName (mapValues ordered members)).filter (·.1 == m.1) =
      [(m.1, m.2.ordered)] := fun m hm => filter_byName hOrdered (List.mem_map_of_mem hm)
  rw [ordered, orderedMembers_eq]
  change ((reader.run (.members (byName (mapValues ordered members)))).map (·.1)) = some a
  rw [hRun hFields]
  rfl

/-! ### What is known of any record that can be read -/

/-- Whatever the reader reads has a property. -/
def Ensures (reader : Reader α) (p : α → Prop) : Prop :=
  ∀ record a next, reader.run record = some (a, next) → p a

namespace Ensures

variable {p : α → Prop} {q : β → Prop} {reader : Reader α} {name : String}
  {decode : Json → Option α}

theorem pure {a : α} (h : p a) : Ensures (Pure.pure a) p := by
  intro record b next hRun
  cases hRun
  exact h

theorem bind {next : α → Reader β} (h : Ensures reader p)
    (hNext : ∀ a, p a → Ensures (next a) q) : Ensures (reader >>= next) q := by
  intro record b last hRun
  rw [StateT.run_bind] at hRun
  obtain ⟨⟨a, between⟩, hFirst, hRest⟩ := Option.bind_eq_some_iff.mp hRun
  exact hNext a (h record a between hFirst) between b last hRest

theorem trivial (reader : Reader α) : Ensures reader fun _ => True := fun _ _ _ _ => True.intro

theorem ofOption {value : Option α} (h : ∀ a, value = some a → p a) :
    Ensures (liftM value) p := by
  intro record a next hRun
  cases value with
  | none => cases hRun
  | some b =>
    cases hRun
    exact h a rfl

theorem required (h : ∀ value a, decode value = some a → p a) :
    Ensures (Json.required name decode) p := by
  refine bind (trivial _) fun written _ => ?_
  cases written with
  | none => exact fun _ _ _ hRun => nomatch hRun
  | some value => exact ofOption (h value)

theorem withDefault {default : α} (hDefault : p default)
    (h : ∀ value a, decode value = some a → p a) :
    Ensures (Json.withDefault name default decode) p := by
  refine bind (trivial _) fun written _ => ?_
  cases written with
  | none => exact pure hDefault
  | some value => exact ofOption (h value)

theorem optional (h : ∀ value a, decode value = some a → p a) :
    Ensures (Json.optional name decode) fun found => ∀ a, found = some a → p a := by
  refine withDefault nofun fun value found hFound a hSome => ?_
  subst hSome
  cases value with
  | null => cases hFound
  | _ =>
    obtain ⟨b, hDecoded, hBoth⟩ := Option.map_eq_some_iff.mp hFound
    cases hBoth
    exact h _ a hDecoded

theorem record (h : Ensures reader p) {value : Json} {a : α}
    (hDecoded : decodeRecord reader value = some a) : p a := by
  cases value with
  | obj members =>
    obtain ⟨⟨b, next⟩, hRun, rfl⟩ := Option.map_eq_some_iff.mp hDecoded
    exact h _ _ next hRun
  | arr items =>
    rw [decodeRecord] at hDecoded
    split at hDecoded
    · rename_i b hRun
      cases hDecoded
      exact h _ _ _ hRun
    · cases hDecoded
  | _ => cases hDecoded

end Ensures

theorem of_mem_decodeList {decode : Json → Option α} {p : α → Prop}
    (h : ∀ value a, decode value = some a → p a) {value : Json} {items : List α}
    (hDecoded : decodeList decode value = some items) : ∀ a ∈ items, p a := by
  cases value with
  | arr values =>
    change values.mapM decode = some items at hDecoded
    induction values generalizing items with
    | nil =>
      cases hDecoded
      exact nofun
    | cons value values ih =>
      rw [List.mapM_cons] at hDecoded
      obtain ⟨a, hFirst, hRest⟩ := Option.bind_eq_some_iff.mp hDecoded
      obtain ⟨others, hOthers, hItems⟩ := Option.bind_eq_some_iff.mp hRest
      cases hItems
      exact List.forall_mem_cons.mpr ⟨h value a hFirst, ih hOthers⟩
  | _ => cases hDecoded

theorem decodeNat_lt {bound n : Nat} {value : Json} (h : decodeNat bound value = some n) :
    n < bound := by
  simpa using (Option.filter_eq_some_iff.mp h).2

end PhoenixLens.Json
