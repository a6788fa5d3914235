import PhoenixLens.Proofs.Markup.Offsets
import PhoenixLens.Proofs.Markup.Template

/-!
# Reading open tags

White space may stand on both sides of the equals sign of an attribute, and its value may be an
expression or stand in quotes of either kind. A tag that is written so ends where its text ends, and
its attributes are those that it was written with. The tags of templates are such tags: they have no
white space around their equals signs, and double quotes only.
-/

namespace PhoenixLens.Markup

open Elixir (Quoting isQuote isOpening isClosing)

/-! ### Tags as they are written -/

abbrev Quote := { quote : Char // isQuote quote = true }

/-- What stands behind the brace that opens an expression, which closes where the text ends. -/
abbrev ClosedText :=
  { inner : List Char // expressionEnd? 0 ('{' :: inner) = some (Text.byteLength ('{' :: inner)) }

inductive LooseValue where
  | quoted (quote : Quote) (text : { text : List Char // quote.1 ∉ text })
  | expression (inner : ClosedText)

inductive LooseAttribute where
  | bare (name : AttributeName)
  | valued (name : AttributeName) (before behind : TagBlanks) (value : LooseValue)
  /-- An expression that stands for attributes. -/
  | spread (inner : ClosedText)

/-- The attributes of a tag with the white space before each of them and behind the last. -/
structure LooseAttributes where
  attributes : List (TagGap × LooseAttribute)
  ending : TagBlanks

namespace LooseValue

def text : LooseValue → List Char
  | quoted quote text => quote.1 :: text.1 ++ [quote.1]
  | expression inner => '{' :: inner.1

/-- The value without quotes. -/
def content : LooseValue → List Char
  | quoted _ text => text.1
  | expression inner => '{' :: inner.1

/-- What stands before the content. -/
def lead : LooseValue → Nat
  | quoted _ _ => 1
  | expression _ => 0

end LooseValue

namespace LooseAttribute

def text : LooseAttribute → List Char
  | bare name => name.1
  | valued name before behind value => name.1 ++ (before.1 ++ '=' :: (behind.1 ++ value.text))
  | spread inner => '{' :: inner.1

/-- The attribute that is written at an offset, unless it is an expression alone. -/
def given? (pos : Nat) : LooseAttribute → Option UsageAttribute
  | bare name =>
    some
      { name := String.ofList name.1
        nameStart := pos
        nameEnd := pos + Text.byteLength name.1 }
  | valued name before behind value =>
    let start := pos + Text.byteLength name.1 + Text.byteLength before.1 + 1 +
      Text.byteLength behind.1 + value.lead
    some
      { name := String.ofList name.1
        nameStart := pos
        nameEnd := pos + Text.byteLength name.1
        value := some (String.ofList value.content)
        valueStart := some start
        valueEnd := some (start + Text.byteLength value.content) }
  | spread _ => none

end LooseAttribute

namespace LooseAttributes

def text (written : LooseAttributes) : List Char :=
  written.attributes.flatMap (fun (gap, given) => gap.1 ++ given.text) ++ written.ending.1

/-- The attributes that are written from an offset on. -/
def given (pos : Nat) : List (TagGap × LooseAttribute) → List UsageAttribute
  | [] => []
  | (gap, own) :: more =>
    let start := pos + Text.byteLength gap.1
    (own.given? start).toList ++ given (start + Text.byteLength own.text) more

end LooseAttributes

/-! ### Expressions -/

theorem expressionEnd?_go_append {cs : List Char} {state : Quoting} {depth pos stop : Nat}
    (h : expressionEnd?.go state depth pos cs = some stop) (shift : Nat) (rest : List Char) :
    expressionEnd?.go state depth (pos + shift) (cs ++ rest) = some (stop + shift) := by
  induction cs generalizing state depth pos with
  | nil => simp [expressionEnd?.go] at h
  | cons c cs ih =>
    have hNext : pos + shift + c.utf8Size = pos + c.utf8Size + shift := by omega
    cases state with
    | quoted quote escaped =>
      simp only [List.cons_append, expressionEnd?.go, hNext] at h ⊢
      exact ih h
    | code =>
      simp only [List.cons_append, expressionEnd?.go, hNext] at h ⊢
      split at h
      · rename_i hOpening
        rw [if_pos hOpening]
        exact ih h
      · rename_i hOpening
        rw [if_neg hOpening]
        split at h
        · rename_i hClosing
          rw [if_pos hClosing]
          split at h
          · rename_i hOuter
            rw [if_pos hOuter, ← Option.some.inj h]
          · rename_i hOuter
            rw [if_neg hOuter]
            exact ih h
        · rename_i hClosing
          rw [if_neg hClosing]
          exact ih h

/-- An expression closes where it does, whatever stands behind it. -/
theorem expressionEnd?_append {text : List Char}
    (h : expressionEnd? 0 text = some (Text.byteLength text)) (pos : Nat) (rest : List Char) :
    expressionEnd? pos (text ++ rest) = some (pos + Text.byteLength text) := by
  have hEnd := expressionEnd?_go_append h pos rest
  rwa [Nat.zero_add, Nat.add_comm (Text.byteLength text)] at hEnd

/-! ### Ends of tags -/

/-- What stands for nothing but itself in a tag. -/
def isTagText (c : Char) : Bool :=
  !(isQuote c || c == '{' || c == '>' || c == '<' || c == '/')

theorem isTagText_of_isTagBlank {c : Char} (h : Text.isTagBlank c = true) :
    isTagText c = true := by
  simp only [Text.isTagBlank, Bool.or_eq_true, beq_iff_eq] at h
  rcases h with (((rfl | rfl) | rfl) | rfl) | rfl <;> decide

theorem isTagText_of_isAttributeNameChar {c : Char} (h : isAttributeNameChar c = true)
    (hAngle : c ≠ '<') : isTagText c = true := by
  simp only [isAttributeNameChar, Bool.not_eq_true', Bool.or_eq_false_iff] at h
  simp [isTagText, h, hAngle]

theorem tagEnd?_go_zero {resume pos : Nat} (h : resume ≤ pos) (slash : Option Nat)
    (cs : List Char) : tagEnd?.go resume slash pos cs = tagEnd?.go 0 slash pos cs := by
  induction cs generalizing pos slash with
  | nil => rfl
  | cons c cs ih =>
    have hNext : resume ≤ pos + c.utf8Size := by omega
    rw [tagEnd?.go, tagEnd?.go, if_neg (Nat.not_lt.mpr h), if_neg (Nat.not_lt_zero pos), ih hNext,
      ih hNext]

theorem tagEnd?_go_skip {resume pos : Nat} {text : List Char}
    (h : pos + Text.byteLength text ≤ resume) (slash : Option Nat) (rest : List Char) :
    tagEnd?.go resume slash pos (text ++ rest) =
      tagEnd?.go resume slash (pos + Text.byteLength text) rest := by
  induction text generalizing pos with
  | nil => rfl
  | cons c text ih =>
    have hSize := c.utf8Size_pos
    rw [Text.byteLength_cons] at h
    rw [List.cons_append, tagEnd?.go, if_pos (by omega), ih (by omega), Text.byteLength_cons,
      Nat.add_assoc]

/-- The end of a tag is looked for behind the text as if it began there. -/
def InTag (text : List Char) : Prop :=
  ∀ pos rest, tagEnd?.go 0 none pos (text ++ rest) =
    tagEnd?.go 0 none (pos + Text.byteLength text) rest

namespace InTag

theorem append {text more : List Char} (h : InTag text) (hMore : InTag more) :
    InTag (text ++ more) := by
  intro pos rest
  rw [List.append_assoc, h, hMore, Text.byteLength_append, Nat.add_assoc]

theorem of_all {text : List Char} (h : ∀ c ∈ text, isTagText c = true) : InTag text := by
  induction text with
  | nil => exact fun _ _ => rfl
  | cons c text ih =>
    intro pos rest
    have hText := h c List.mem_cons_self
    simp only [isTagText, Bool.not_eq_true', Bool.or_eq_false_iff, beq_eq_false_iff_ne] at hText
    obtain ⟨⟨⟨⟨hQuote, hBrace⟩, hEnd⟩, hAngle⟩, hSlash⟩ := hText
    have hRest := ih (fun d hd => h d (List.mem_cons_of_mem _ hd)) (pos + c.utf8Size) rest
    rw [List.cons_append, tagEnd?.go]
    simp [hQuote, hBrace, hEnd, hAngle, hSlash, hRest, Nat.add_assoc]

theorem quoted {quote : Char} {value : List Char} (hIsQuote : isQuote quote = true)
    (hValue : quote ∉ value) : InTag (quote :: value ++ [quote]) := by
  intro pos rest
  have hQuote := utf8Size_of_isQuote hIsQuote
  have hClose := Text.offsetOf?_append value rest hValue (pos + 1)
  have hInner : value ++ quote :: rest = (value ++ [quote]) ++ rest := by simp
  have hStop : pos + 1 + Text.byteLength value + 1 =
      pos + 1 + Text.byteLength (value ++ [quote]) := by
    rw [Text.byteLength_append, Text.byteLength_cons, Text.byteLength_nil, hQuote]
    omega
  rw [List.cons_append, List.cons_append, tagEnd?.go, if_neg (Nat.not_lt_zero pos),
    if_pos hIsQuote, hQuote]
  rw [hInner] at hClose
  simp only [hClose, hStop]
  rw [tagEnd?_go_skip (Nat.le_refl _), tagEnd?_go_zero (Nat.le_refl _), Text.byteLength_cons,
    hQuote, Nat.add_assoc]

theorem expression {inner : List Char}
    (h : expressionEnd? 0 ('{' :: inner) = some (Text.byteLength ('{' :: inner))) :
    InTag ('{' :: inner) := by
  intro pos rest
  have hEnd := expressionEnd?_append h pos rest
  rw [List.cons_append] at hEnd ⊢
  rw [tagEnd?.go, if_neg (Nat.not_lt_zero pos), if_neg (by decide), if_pos (by decide)]
  simp only [hEnd]
  rw [Text.byteLength_cons, ← Nat.add_assoc, tagEnd?_go_skip (Nat.le_refl _),
    tagEnd?_go_zero (Nat.le_refl _)]

theorem name (name : AttributeName) : InTag name.1 :=
  of_all fun c hc => isTagText_of_isAttributeNameChar (name.2.2 c hc).1 (name.2.2 c hc).2

theorem blanks (blanks : TagBlanks) : InTag blanks.1 :=
  of_all fun c hc => isTagText_of_isTagBlank (blanks.2 c hc)

theorem value (value : LooseValue) : InTag value.text := by
  cases value with
  | quoted quote text => exact quoted quote.2 text.2
  | expression inner => exact expression inner.2

theorem one (given : LooseAttribute) : InTag given.text := by
  have hEquals : InTag ['='] := of_all (by decide)
  cases given with
  | bare own => exact name own
  | valued own before behind given =>
    exact (name own).append ((blanks before).append
      (hEquals.append ((blanks behind).append (value given))))
  | spread inner => exact expression inner.2

theorem attributes (written : LooseAttributes) : InTag written.text := by
  refine append ?_ (blanks written.ending)
  induction written.attributes with
  | nil => exact fun _ _ => rfl
  | cons first more ih =>
    rw [List.flatMap_cons]
    exact ((blanks ⟨first.1.1, first.1.2.2⟩).append (one first.2)).append ih

end InTag

/-- The end that is found for a tag whose attributes end at `pos`. -/
def endOfTag (selfClosing : Bool) (pos : Nat) : TagEnd :=
  if selfClosing then ⟨pos + 2, some pos⟩ else ⟨pos + 1, none⟩

theorem tagEnd?_loose (written : LooseAttributes) (selfClosing : Bool) (pos : Nat)
    (rest : List Char) :
    tagEnd? pos (written.text ++ (tagEnding selfClosing ++ rest)) =
      some (endOfTag selfClosing (pos + Text.byteLength written.text)) := by
  rw [tagEnd?, tagEnd?_go_zero (Nat.le_refl _), InTag.attributes written pos]
  cases selfClosing <;> rfl

theorem endOfTag_attributesEnd (selfClosing : Bool) (pos : Nat) :
    (endOfTag selfClosing pos).attributesEnd = pos := by
  cases selfClosing <;> rfl

theorem endOfTag_selfClosing (selfClosing : Bool) (pos : Nat) :
    (endOfTag selfClosing pos).selfClosing = selfClosing := by
  cases selfClosing <;> rfl

/-! ### Attributes -/

theorem attributesOf_go_zero {resume pos : Nat} (h : resume ≤ pos) (cs : List Char) :
    attributesOf.go resume pos cs = attributesOf.go 0 pos cs := by
  induction cs generalizing pos with
  | nil => rfl
  | cons c cs ih =>
    have hNext : resume ≤ pos + c.utf8Size := by omega
    rw [attributesOf.go, attributesOf.go, if_neg (Nat.not_lt.mpr h), if_neg (Nat.not_lt_zero pos),
      ih hNext]

theorem attributesOf_go_skip {resume pos : Nat} {text : List Char}
    (h : pos + Text.byteLength text ≤ resume) (rest : List Char) :
    attributesOf.go resume pos (text ++ rest) =
      attributesOf.go resume (pos + Text.byteLength text) rest := by
  induction text generalizing pos with
  | nil => rfl
  | cons c text ih =>
    have hSize := c.utf8Size_pos
    rw [Text.byteLength_cons] at h
    rw [List.cons_append, attributesOf.go, if_pos (by omega), ih (by omega), Text.byteLength_cons,
      Nat.add_assoc]

/-- An attribute or expression that has been read is passed over. -/
theorem attributesOf_go_tail (c : Char) (text : List Char) (pos : Nat) (rest : List Char) :
    attributesOf.go (pos + Text.byteLength (c :: text)) (pos + c.utf8Size) (text ++ rest) =
      attributesOf.go 0 (pos + Text.byteLength (c :: text)) rest := by
  rw [Text.byteLength_cons, ← Nat.add_assoc, attributesOf_go_skip (Nat.le_refl _),
    attributesOf_go_zero (Nat.le_refl _)]

theorem isAttributeNameChar_of_isTagBlank {c : Char} (h : Text.isTagBlank c = true) :
    isAttributeNameChar c = false := by
  simp [isAttributeNameChar, h]

theorem attributesOf_go_blanks {blanks : List Char} (h : ∀ c ∈ blanks, Text.isTagBlank c = true)
    (pos : Nat) (rest : List Char) :
    attributesOf.go 0 pos (blanks ++ rest) =
      attributesOf.go 0 (pos + Text.byteLength blanks) rest := by
  induction blanks generalizing pos with
  | nil => rfl
  | cons c blanks ih =>
    have hBlank := h c List.mem_cons_self
    have hBrace : (c == '{') = false := by
      rw [beq_eq_false_iff_ne]
      rintro rfl
      revert hBlank
      decide
    rw [List.cons_append, attributesOf.go, if_neg (Nat.not_lt_zero pos)]
    simp [hBrace, isAttributeNameChar_of_isTagBlank hBlank, Nat.add_assoc,
      ih fun d hd => h d (List.mem_cons_of_mem _ hd)]

/-- What may follow an attribute: white space and further attributes, or nothing. -/
structure EndsAttribute (rest : List Char) : Prop where
  apart : ∀ c ∈ rest.head?, isAttributeNameChar c = false
  noValue : ∀ c ∈ (rest.dropWhile Text.isTagBlank).head?, c ≠ '='

theorem attributesOf_go_named {name : AttributeName} {front rest : List Char}
    {given : UsageAttribute} {pos : Nat}
    (h : attributeOf pos (name.1 ++ front ++ rest) =
      (given, pos + Text.byteLength (name.1 ++ front))) :
    attributesOf.go 0 pos (name.1 ++ front ++ rest) =
      given :: attributesOf.go 0 (pos + Text.byteLength (name.1 ++ front)) rest := by
  obtain ⟨name, hNe, hChars⟩ := name
  obtain ⟨c, tail, rfl⟩ := List.exists_cons_of_ne_nil hNe
  have hChar := (hChars c List.mem_cons_self).1
  have hBrace : (c == '{') = false := by
    rw [beq_eq_false_iff_ne]
    rintro rfl
    revert hChar
    decide
  simp only [List.cons_append] at h ⊢
  rw [attributesOf.go, if_neg (Nat.not_lt_zero pos), hBrace, if_neg (by decide), if_pos hChar, h]
  exact congrArg (given :: ·) (attributesOf_go_tail c (tail ++ front) pos rest)

theorem attributeOf_name (name : AttributeName) {rest : List Char}
    (hApart : ∀ c ∈ rest.head?, isAttributeNameChar c = false) :
    (name.1 ++ rest).takeWhile isAttributeNameChar = name.1 ∧
      (name.1 ++ rest).dropWhile isAttributeNameChar = rest :=
  ⟨Text.takeWhile_append_of_stop (fun c hc => (name.2.2 c hc).1) hApart,
    Text.dropWhile_append_of_stop (fun c hc => (name.2.2 c hc).1) hApart⟩

theorem attributeOf_bare (name : AttributeName) {rest : List Char} (h : EndsAttribute rest)
    (pos : Nat) :
    attributeOf pos (name.1 ++ rest) =
      ({ name := String.ofList name.1, nameStart := pos,
         nameEnd := pos + Text.byteLength name.1 }, pos + Text.byteLength name.1) := by
  obtain ⟨hName, hRest⟩ := attributeOf_name name h.apart
  simp only [attributeOf, hName, hRest]
  cases hNext : rest.dropWhile Text.isTagBlank with
  | nil => rfl
  | cons c more =>
    have hEquals := h.noValue c (by rw [hNext]; rfl)
    split
    · rename_i heq
      cases heq
      exact absurd rfl hEquals
    · rfl

theorem attributeValue_quoted {quote : Char} {value : List Char} (hIsQuote : isQuote quote = true)
    (hValue : quote ∉ value) (pos : Nat) (rest : List Char) :
    attributeValue pos (quote :: value ++ quote :: rest) =
      some ⟨value, pos + 1, pos + 1 + Text.byteLength value,
        pos + 1 + Text.byteLength value + 1⟩ := by
  have hQuote := utf8Size_of_isQuote hIsQuote
  have hText : (value ++ quote :: rest).takeWhile (· != quote) = value := by
    refine Text.takeWhile_append_of_stop (fun c hc => ?_) (by simp)
    rw [bne_iff_ne]
    rintro rfl
    exact hValue hc
  simp only [List.cons_append, attributeValue, hText, Text.byteLength_cons, Text.byteLength_append,
    hQuote]
  rw [if_pos hIsQuote, Nat.min_eq_left (by omega)]

theorem attributeValue_expression {inner : List Char}
    (h : expressionEnd? 0 ('{' :: inner) = some (Text.byteLength ('{' :: inner))) (pos : Nat)
    (rest : List Char) :
    attributeValue pos ('{' :: inner ++ rest) =
      some ⟨'{' :: inner, pos, pos + Text.byteLength ('{' :: inner),
        pos + Text.byteLength ('{' :: inner)⟩ := by
  have hEnd := expressionEnd?_append h pos rest
  have hTake := Text.takeBytes_append ('{' :: inner) rest
  simp only [List.cons_append] at hEnd hTake ⊢
  simp only [attributeValue, hEnd, Option.getD_some]
  rw [if_neg (by decide), if_pos (by decide), Nat.min_eq_left, Nat.add_sub_cancel_left, hTake]
  simp only [Text.byteLength_cons, Text.byteLength_append]
  omega

/-- White space may stand on both sides of the equals sign. -/
theorem attributeOf_value {name : AttributeName} {before behind : TagBlanks} {rest : List Char}
    {value : AttributeValue} {pos : Nat} (hFirst : ∀ c ∈ rest.head?, Text.isTagBlank c = false)
    (hValue : attributeValue (pos + Text.byteLength name.1 + Text.byteLength before.1 + 1 +
      Text.byteLength behind.1) rest = some value) :
    attributeOf pos (name.1 ++ (before.1 ++ '=' :: (behind.1 ++ rest))) =
      ({ name := String.ofList name.1
         nameStart := pos
         nameEnd := pos + Text.byteLength name.1
         value := some (String.ofList value.text)
         valueStart := some value.start
         valueEnd := some value.stop }, value.next) := by
  have hApart : ∀ c ∈ (before.1 ++ '=' :: (behind.1 ++ rest)).head?,
      isAttributeNameChar c = false := by
    cases hBefore : before.1 with
    | nil =>
      rintro c ⟨⟩
      decide
    | cons d blanks =>
      rintro c ⟨⟩
      exact isAttributeNameChar_of_isTagBlank (before.2 _ (hBefore ▸ List.mem_cons_self))
  obtain ⟨hName, hRest⟩ := attributeOf_name name hApart
  have hStop : ∀ c ∈ ('=' :: (behind.1 ++ rest)).head?, Text.isTagBlank c = false := by
    rintro c ⟨⟩
    decide
  simp only [attributeOf, hName, hRest, Text.takeWhile_append_of_stop before.2 hStop,
    Text.dropWhile_append_of_stop before.2 hStop, Text.takeWhile_append_of_stop behind.2 hFirst,
    Text.dropWhile_append_of_stop behind.2 hFirst, hValue]

/-- A value is read where it stands. -/
theorem attributeValue_loose (value : LooseValue) (pos : Nat) (rest : List Char) :
    attributeValue pos (value.text ++ rest) =
      some ⟨value.content, pos + value.lead, pos + value.lead + Text.byteLength value.content,
        pos + Text.byteLength value.text⟩ := by
  cases value with
  | quoted quote text =>
    have hQuote := utf8Size_of_isQuote quote.2
    have hForm : (LooseValue.quoted quote text).text ++ rest =
        quote.1 :: text.1 ++ quote.1 :: rest := by simp [LooseValue.text]
    have hStop : pos + 1 + Text.byteLength text.1 + 1 =
        pos + Text.byteLength (LooseValue.quoted quote text).text := by
      simp only [LooseValue.text, Text.byteLength_cons, Text.byteLength_append,
        Text.byteLength_nil, hQuote]
      omega
    rw [hForm, attributeValue_quoted quote.2 text.2, hStop]
    rfl
  | expression inner => exact attributeValue_expression inner.2 pos rest

theorem LooseValue.first (value : LooseValue) :
    ∃ c rest, value.text = c :: rest ∧ Text.isTagBlank c = false := by
  cases value with
  | quoted quote text =>
    refine ⟨quote.1, text.1 ++ [quote.1], rfl, ?_⟩
    have hQuote := quote.2
    simp only [isQuote, Bool.or_eq_true, beq_iff_eq] at hQuote
    rcases hQuote with hDouble | hSingle
    · rw [hDouble]
      decide
    · rw [hSingle]
      decide
  | expression inner => exact ⟨'{', inner.1, rfl, by decide⟩

theorem attributesOf_go_loose (given : LooseAttribute) {rest : List Char}
    (h : EndsAttribute rest) (pos : Nat) :
    attributesOf.go 0 pos (given.text ++ rest) =
      (given.given? pos).toList ++ attributesOf.go 0 (pos + Text.byteLength given.text) rest := by
  cases given with
  | bare name =>
    have hRead := attributeOf_bare name h pos
    have hGo := attributesOf_go_named (show attributeOf pos (name.1 ++ [] ++ rest) =
      (_, pos + Text.byteLength (name.1 ++ [])) by rw [List.append_nil]; exact hRead)
    rw [List.append_nil] at hGo
    exact hGo
  | valued name before behind value =>
    have hFirst : ∀ c ∈ (value.text ++ rest).head?, Text.isTagBlank c = false := by
      obtain ⟨d, more, hText, hBlank⟩ := value.first
      rw [hText]
      rintro c ⟨⟩
      exact hBlank
    have hRead := attributeOf_value hFirst (attributeValue_loose value
      (pos + Text.byteLength name.1 + Text.byteLength before.1 + 1 + Text.byteLength behind.1) rest)
    have hForm : name.1 ++ (before.1 ++ '=' :: (behind.1 ++ (value.text ++ rest))) =
        name.1 ++ (before.1 ++ '=' :: (behind.1 ++ value.text)) ++ rest := by simp
    have hStop : pos + Text.byteLength name.1 + Text.byteLength before.1 + 1 +
          Text.byteLength behind.1 + Text.byteLength value.text =
        pos + Text.byteLength (name.1 ++ (before.1 ++ '=' :: (behind.1 ++ value.text))) := by
      have hEquals : ('=' : Char).utf8Size = 1 := rfl
      simp only [Text.byteLength_append, Text.byteLength_cons, hEquals]
      omega
    rw [hForm, hStop] at hRead
    rw [LooseAttribute.text, attributesOf_go_named hRead]
    rfl
  | spread inner =>
    have hEnd := expressionEnd?_append inner.2 pos rest
    rw [List.cons_append] at hEnd
    rw [LooseAttribute.text, List.cons_append, attributesOf.go, if_neg (Nat.not_lt_zero pos),
      if_pos (by decide), hEnd]
    exact attributesOf_go_tail '{' inner.1 pos rest

theorem LooseAttribute.first (given : LooseAttribute) :
    ∃ c rest, given.text = c :: rest ∧ Text.isTagBlank c = false ∧ c ≠ '=' := by
  have hName (name : AttributeName) (more : List Char) : ∃ c rest, name.1 ++ more = c :: rest ∧
      Text.isTagBlank c = false ∧ c ≠ '=' := by
    obtain ⟨name, hNe, hChars⟩ := name
    obtain ⟨c, rest, rfl⟩ := List.exists_cons_of_ne_nil hNe
    have hChar := (hChars c List.mem_cons_self).1
    simp only [isAttributeNameChar, Bool.not_eq_true', Bool.or_eq_false_iff,
      beq_eq_false_iff_ne] at hChar
    exact ⟨c, rest ++ more, rfl, hChar.1.1.1.1.1, hChar.1.1.1.2⟩
  cases given with
  | bare name =>
    have hBare := hName name []
    rwa [List.append_nil] at hBare
  | valued name before behind value => exact hName name _
  | spread inner => exact ⟨'{', inner.1, rfl, by decide, by decide⟩

theorem LooseAttributes.isTagBlank_head (written : LooseAttributes) :
    ∀ c ∈ written.text.head?, Text.isTagBlank c = true := by
  obtain ⟨attributes, ending⟩ := written
  cases attributes with
  | nil => exact fun c hc => ending.2 c (List.mem_of_mem_head? hc)
  | cons first more =>
    obtain ⟨⟨gap, hNe, hBlanks⟩, given⟩ := first
    obtain ⟨c, gap, rfl⟩ := List.exists_cons_of_ne_nil hNe
    rintro d ⟨⟩
    exact hBlanks c List.mem_cons_self

theorem endsAttribute_text (written : LooseAttributes) : EndsAttribute written.text := by
  refine ⟨fun c hc => isAttributeNameChar_of_isTagBlank (written.isTagBlank_head c hc), ?_⟩
  obtain ⟨attributes, ending⟩ := written
  cases attributes with
  | nil =>
    have hNone := Text.dropWhile_append_of_stop (b := []) ending.2 nofun
    rw [List.append_nil] at hNone
    simp [LooseAttributes.text, hNone]
  | cons first more =>
    obtain ⟨gap, given⟩ := first
    obtain ⟨c, rest, hFirst, hBlank, hEquals⟩ := given.first
    have hForm : (LooseAttributes.mk ((gap, given) :: more) ending).text =
        gap.1 ++ c :: (rest ++ (LooseAttributes.mk more ending).text) := by
      simp [LooseAttributes.text, hFirst]
    have hStop : ∀ d ∈ (c :: (rest ++ (LooseAttributes.mk more ending).text)).head?,
        Text.isTagBlank d = false := by
      rintro d ⟨⟩
      exact hBlank
    rw [hForm, Text.dropWhile_append_of_stop gap.2.2 hStop]
    rintro d ⟨⟩
    exact hEquals

theorem attributesOf_loose (written : LooseAttributes) (pos : Nat) :
    attributesOf pos written.text = LooseAttributes.given pos written.attributes := by
  rw [attributesOf, attributesOf_go_zero (Nat.le_refl _)]
  obtain ⟨attributes, ending⟩ := written
  induction attributes generalizing pos with
  | nil =>
    have hGo := attributesOf_go_blanks ending.2 pos []
    rw [List.append_nil] at hGo
    exact hGo
  | cons first more ih =>
    obtain ⟨gap, given⟩ := first
    have hForm : (LooseAttributes.mk ((gap, given) :: more) ending).text =
        gap.1 ++ (given.text ++ (LooseAttributes.mk more ending).text) := by
      simp [LooseAttributes.text]
    rw [hForm, attributesOf_go_blanks gap.2.2, attributesOf_go_loose _ (endsAttribute_text _), ih]
    rfl

/-! ### Attributes by their names -/

namespace LooseAttribute

def isNamed (name : String) : LooseAttribute → Bool
  | bare own => String.ofList own.1 == name
  | valued own _ _ _ => String.ofList own.1 == name
  | spread _ => false

/-- The value without quotes. -/
def content? : LooseAttribute → Option (List Char)
  | valued _ _ _ value => some value.content
  | _ => none

end LooseAttribute

/-- The length of attributes with the white space before each of them. -/
def lengthOf (attributes : List (TagGap × LooseAttribute)) : Nat :=
  Text.byteLength (attributes.flatMap fun (gap, given) => gap.1 ++ given.text)

theorem find?_given?_toList (name : String) (own : LooseAttribute) (pos : Nat) :
    (own.given? pos).toList.find? (·.name == name) =
      if own.isNamed name then own.given? pos else none := by
  cases own with
  | spread inner => rfl
  | _ =>
    simp only [LooseAttribute.given?, LooseAttribute.isNamed, Option.toList_some,
      List.find?_cons, List.find?_nil]
    split <;> simp_all

theorem given?_eq_some {name : String} {own : LooseAttribute} (h : own.isNamed name = true)
    (pos : Nat) :
    ∃ given, own.given? pos = some given ∧ given.value = own.content?.map String.ofList := by
  cases own with
  | spread inner => cases h
  | _ => exact ⟨_, rfl, rfl⟩

theorem find?_given_append {name : String} {front : List (TagGap × LooseAttribute)}
    (h : ∀ given ∈ front, given.2.isNamed name = false)
    (more : List (TagGap × LooseAttribute)) (pos : Nat) :
    (LooseAttributes.given pos (front ++ more)).find? (·.name == name) =
      (LooseAttributes.given (pos + lengthOf front) more).find? (·.name == name) := by
  induction front generalizing pos with
  | nil => rfl
  | cons first front ih =>
    obtain ⟨gap, own⟩ := first
    obtain ⟨hOwn, hFront⟩ := List.forall_mem_cons.mp h
    have hLength : lengthOf ((gap, own) :: front) =
        Text.byteLength gap.1 + (Text.byteLength own.text + lengthOf front) := by
      simp [lengthOf, Text.byteLength_append]
    rw [List.cons_append, LooseAttributes.given, List.find?_append, ih hFront, hLength,
      find?_given?_toList, hOwn, if_neg (by decide), Option.none_or, Nat.add_assoc, Nat.add_assoc]

/-- The first attribute of a name is found with its value. -/
theorem find?_given (name : String) (pos : Nat) (attributes : List (TagGap × LooseAttribute)) :
    ((LooseAttributes.given pos attributes).find? (·.name == name)).map (·.value) =
      ((attributes.map (·.2)).find? (·.isNamed name)).map fun given =>
        given.content?.map String.ofList := by
  induction attributes generalizing pos with
  | nil => rfl
  | cons first more ih =>
    obtain ⟨gap, own⟩ := first
    rw [LooseAttributes.given, List.find?_append, find?_given?_toList, List.map_cons,
      List.find?_cons]
    cases hNamed : own.isNamed name with
    | true =>
      obtain ⟨given, hGiven, hValue⟩ := given?_eq_some hNamed (pos + Text.byteLength gap.1)
      simp [hGiven, hValue]
    | false =>
      simp only [Bool.false_eq_true, if_false, Option.none_or]
      exact ih _

/-! ### Whole tags -/

/-- The tag that begins at an offset. -/
def looseTag (selfClosing : Bool) (start : Nat) (name : List Char) (written : LooseAttributes) :
    OpenTag :=
  { name, start
    nameEnd := nameEndAt start name
    stop := (endOfTag selfClosing (nameEndAt start name + Text.byteLength written.text)).stop
    selfClosing
    attributes := LooseAttributes.given (nameEndAt start name) written.attributes }

theorem readOpenTag?_loose (selfClosing : Bool) (start : Nat) (name : List Char)
    (written : LooseAttributes) (rest : List Char) :
    readOpenTag? start name (written.text ++ (tagEnding selfClosing ++ rest)) =
      some (looseTag selfClosing start name written) := by
  have hName : start + 1 + Text.byteLength name = nameEndAt start name := rfl
  simp only [readOpenTag?, hName, tagEnd?_loose, Option.map_some, endOfTag_attributesEnd,
    Nat.add_sub_cancel_left, Text.takeBytes_append, attributesOf_loose, endOfTag_selfClosing]
  rfl

/-! ### Tags among those in any spacing -/

def Expression.closed (value : Expression) : ClosedText :=
  ⟨value.1.tail, by
    obtain ⟨_, ⟨inner, rfl⟩, hClosed, _⟩ := value
    exact hClosed⟩

theorem Expression.cons_closed (value : Expression) : '{' :: value.closed.1 = value.1 := by
  obtain ⟨_, ⟨inner, rfl⟩, _⟩ := value
  rfl

def TagAttribute.loose : TagAttribute → LooseAttribute
  | bare name => .bare name
  | quoted name value =>
    .valued name ⟨[], nofun⟩ ⟨[], nofun⟩ (.quoted ⟨'"', rfl⟩ ⟨value.1, value.2.1⟩)
  | expression name value => .valued name ⟨[], nofun⟩ ⟨[], nofun⟩ (.expression value.closed)
  | spread value => .spread value.closed

def TagAttributes.loose (written : TagAttributes) : LooseAttributes :=
  ⟨written.attributes.map fun (gap, given) => (gap, given.loose), written.ending⟩

theorem TagAttribute.text_loose (given : TagAttribute) : given.loose.text = given.text := by
  cases given with
  | bare name => rfl
  | quoted name value => simp [loose, LooseAttribute.text, LooseValue.text, text]
  | expression name value =>
    simp [loose, LooseAttribute.text, LooseValue.text, text, value.cons_closed]
  | spread value => exact value.cons_closed

theorem TagAttribute.given?_loose (given : TagAttribute) (pos : Nat) :
    given.loose.given? pos = given.given? pos := by
  cases given with
  | bare name => rfl
  | quoted name value => rfl
  | expression name value =>
    simp [loose, LooseAttribute.given?, LooseValue.content, LooseValue.lead, given?,
      value.cons_closed]
  | spread value => rfl

namespace TagAttributes

theorem text_loose (written : TagAttributes) : written.loose.text = written.text := by
  simp [loose, LooseAttributes.text, text, List.flatMap_map, TagAttribute.text_loose]

theorem given_loose (written : TagAttributes) (pos : Nat) :
    LooseAttributes.given pos written.loose.attributes =
      givenAttributes pos written.attributes := by
  obtain ⟨attributes, ending⟩ := written
  induction attributes generalizing pos with
  | nil => rfl
  | cons first more ih =>
    obtain ⟨gap, given⟩ := first
    rw [givenAttributes, ← ih, ← given.text_loose, ← given.given?_loose]
    rfl

end TagAttributes

theorem tagEnd?_written (written : TagAttributes) (selfClosing : Bool) (pos : Nat)
    (rest : List Char) :
    tagEnd? pos (written.text ++ (tagEnding selfClosing ++ rest)) =
      some (endOfTag selfClosing (pos + Text.byteLength written.text)) := by
  rw [← written.text_loose]
  exact tagEnd?_loose written.loose selfClosing pos rest

/-! ### Whole tags -/

theorem endOfTag_stop (selfClosing : Bool) (start : Nat) (name : List Char)
    (written : TagAttributes) :
    (endOfTag selfClosing (nameEndAt start name + Text.byteLength written.text)).stop =
      start + Text.byteLength (startTag selfClosing name written) := by
  have hSizes : ('<' : Char).utf8Size = 1 ∧ ('>' : Char).utf8Size = 1 ∧
      ('/' : Char).utf8Size = 1 := ⟨rfl, rfl, rfl⟩
  cases selfClosing
  all_goals
    simp only [endOfTag, tagEnding, nameEndAt, startTag, Text.byteLength_append,
      Text.byteLength_cons, Text.byteLength_nil, hSizes, Bool.false_eq_true, if_false, if_true]
    omega

def writtenTag (selfClosing : Bool) (start : Nat) (name : List Char) (written : TagAttributes) :
    OpenTag :=
  { name, start
    nameEnd := nameEndAt start name
    stop := start + Text.byteLength (startTag selfClosing name written)
    selfClosing
    attributes := givenAttributes (nameEndAt start name) written.attributes }

theorem readOpenTag?_written (selfClosing : Bool) (start : Nat) (name : List Char)
    (written : TagAttributes) (rest : List Char) :
    readOpenTag? start name (written.text ++ (tagEnding selfClosing ++ rest)) =
      some (writtenTag selfClosing start name written) := by
  rw [← written.text_loose, readOpenTag?_loose, looseTag, written.text_loose, endOfTag_stop,
    TagAttributes.given_loose]
  rfl

end PhoenixLens.Markup
