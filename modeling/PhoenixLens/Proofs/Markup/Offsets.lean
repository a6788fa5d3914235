import PhoenixLens.Markup.Tag
import PhoenixLens.Proofs.Text.Rest

/-!
# Offsets of tags and attributes

Whatever a text holds, the offsets that are read off it lie between its characters, and what is
read is what stands there.
-/

namespace PhoenixLens.Markup

open Elixir (Quoting isQuote isOpening isClosing)
open Text (RestAt StandsAt)

variable {text cs rest : List Char} {pos stop : Nat}

theorem utf8Size_of_isQuote {c : Char} (h : isQuote c = true) : c.utf8Size = 1 := by
  simp only [isQuote, Bool.or_eq_true, beq_iff_eq] at h
  rcases h with rfl | rfl <;> rfl

/-! ### Expressions -/

theorem expressionEnd?_go_offset {state : Quoting} {depth : Nat} (h : RestAt text pos cs)
    (hEnd : expressionEnd?.go state depth pos cs = some stop) :
    pos < stop ∧ ∃ rest, RestAt text stop rest := by
  induction cs generalizing state depth pos with
  | nil => cases state <;> cases hEnd
  | cons c cs ih =>
    have hSize := c.utf8Size_pos
    have hNext {state : Quoting} {depth : Nat}
        (hEnd : expressionEnd?.go state depth (pos + c.utf8Size) cs = some stop) :
        pos < stop ∧ ∃ rest, RestAt text stop rest := by
      obtain ⟨hLt, hRest⟩ := ih h.tail hEnd
      exact ⟨by omega, hRest⟩
    cases state with
    | quoted quote escaped => exact hNext hEnd
    | code =>
      rw [expressionEnd?.go] at hEnd
      split at hEnd
      · exact hNext hEnd
      · split at hEnd
        · split at hEnd
          · cases hEnd
            exact ⟨by omega, cs, h.tail⟩
          · exact hNext hEnd
        · exact hNext hEnd

/-- An expression ends behind its beginning, between two characters. -/
theorem expressionEnd?_offset (h : RestAt text pos cs) (hEnd : expressionEnd? pos cs = some stop) :
    pos < stop ∧ ∃ rest, RestAt text stop rest :=
  expressionEnd?_go_offset h hEnd

/-! ### Ends of tags -/

/-- The slash that has been seen, if any, stands behind `first`, and only white space follows. -/
def SeenSlash (text : List Char) (first pos : Nat) (slash : Option Nat) : Prop :=
  ∀ start ∈ slash, first ≤ start ∧ ∃ blanks, StandsAt text ('/' :: blanks) start ∧
    (∀ c ∈ blanks, Text.isTagBlank c = true) ∧ start + Text.byteLength ('/' :: blanks) = pos

theorem seenSlash_none (text : List Char) (first pos : Nat) : SeenSlash text first pos none :=
  nofun

theorem seenSlash_some {first : Nat} (hFirst : first ≤ pos) (h : RestAt text pos ('/' :: cs)) :
    SeenSlash text first (pos + '/'.utf8Size) (some pos) := by
  rintro _ ⟨⟩
  have hFront : RestAt text pos (['/'] ++ cs) := h
  exact ⟨hFirst, [], hFront.standsAt, nofun, rfl⟩

theorem SeenSlash.blank {first : Nat} {slash : Option Nat} (h : SeenSlash text first pos slash)
    {c : Char} (hRest : RestAt text pos (c :: cs)) (hBlank : Text.isTagBlank c = true) :
    SeenSlash text first (pos + c.utf8Size) slash := by
  intro start hStart
  obtain ⟨hFirst, blanks, hSlash, hBlanks, rfl⟩ := h start hStart
  have hSlash' : StandsAt text ('/' :: blanks ++ [c]) start := hSlash.concat hRest
  refine ⟨hFirst, blanks ++ [c], hSlash', ?_, ?_⟩
  · exact List.forall_mem_append.mpr ⟨hBlanks, List.forall_mem_singleton.mpr hBlank⟩
  · simp [Nat.add_assoc]

/-- What is known of the end of a tag whose text goes on at the offset `first`. -/
structure IsTagEnd (text : List Char) (first : Nat) (tagEnd : TagEnd) : Prop where
  le : first + 1 ≤ tagEnd.stop
  bracket : ∃ rest, RestAt text (tagEnd.stop - 1) ('>' :: rest)
  slash : SeenSlash text first (tagEnd.stop - 1) tagEnd.slash

theorem tagEnd?_go_offset {first resume : Nat} {slash : Option Nat} {tagEnd : TagEnd}
    (h : RestAt text pos cs) (hFirst : first ≤ pos) (hSlash : SeenSlash text first pos slash)
    (hSkip : pos < resume → slash = none)
    (hEnd : tagEnd?.go resume slash pos cs = some tagEnd) : IsTagEnd text first tagEnd := by
  induction cs generalizing resume slash pos with
  | nil => cases hEnd
  | cons c cs ih =>
    have hSize := c.utf8Size_pos
    have hJump {resume : Nat} (hEnd : tagEnd?.go resume none (pos + c.utf8Size) cs = some tagEnd) :
        IsTagEnd text first tagEnd :=
      ih h.tail (by omega) (seenSlash_none _ _ _) (fun _ => rfl) hEnd
    rw [tagEnd?.go] at hEnd
    split at hEnd
    · rename_i hResume
      rw [hSkip hResume] at hEnd
      exact hJump hEnd
    · rename_i hResume
      have hReached : ¬pos + c.utf8Size < resume := by omega
      split at hEnd
      · split at hEnd
        · exact hJump hEnd
        · cases hEnd
      · split at hEnd
        · split at hEnd
          · exact hJump hEnd
          · cases hEnd
        · split at hEnd
          · rename_i hBracket
            cases hEnd
            obtain rfl := beq_iff_eq.mp hBracket
            exact ⟨Nat.succ_le_succ hFirst, ⟨cs, h⟩, hSlash⟩
          · split at hEnd
            · cases hEnd
            · split at hEnd
              · rename_i hBlank
                exact ih h.tail (by omega) (hSlash.blank h hBlank) (absurd · hReached) hEnd
              · split at hEnd
                · rename_i hOwn
                  obtain rfl := beq_iff_eq.mp hOwn
                  exact ih h.tail (by omega) (seenSlash_some hFirst h) (absurd · hReached) hEnd
                · exact hJump hEnd

/-- The end of a tag stands behind a `>`. -/
theorem tagEnd?_offset {tagEnd : TagEnd} (h : RestAt text pos cs)
    (hEnd : tagEnd? pos cs = some tagEnd) : IsTagEnd text pos tagEnd :=
  tagEnd?_go_offset h (Nat.le_refl _) (seenSlash_none _ _ _) (fun _ => rfl) hEnd

namespace IsTagEnd

variable {first : Nat} {tagEnd : TagEnd}

theorem behind (h : IsTagEnd text first tagEnd) : ∃ rest, RestAt text tagEnd.stop rest := by
  obtain ⟨rest, hRest⟩ := h.bracket
  have hStop : tagEnd.stop - 1 + '>'.utf8Size = tagEnd.stop :=
    Nat.sub_add_cancel (Nat.le_trans (Nat.le_add_left 1 first) h.le)
  exact ⟨rest, hStop ▸ hRest.tail⟩

theorem attributesEnd (h : IsTagEnd text first tagEnd) :
    first ≤ tagEnd.attributesEnd ∧ tagEnd.attributesEnd < tagEnd.stop ∧
      ∃ rest, RestAt text tagEnd.attributesEnd rest := by
  have hLe := h.le
  rw [TagEnd.attributesEnd]
  cases hSlash : tagEnd.slash with
  | none =>
    obtain ⟨rest, hRest⟩ := h.bracket
    exact ⟨Nat.le_sub_one_of_lt hLe, Nat.sub_lt (by omega) Nat.one_pos, _, hRest⟩
  | some start =>
    obtain ⟨hFirst, blanks, hStands, -, hStop⟩ := h.slash start hSlash
    obtain ⟨rest, hRest⟩ := hStands.exists_rest
    refine ⟨hFirst, ?_, _, hRest⟩
    have hSize : '/'.utf8Size = 1 := rfl
    rw [Text.byteLength_cons] at hStop
    simp only [Option.getD_some]
    omega

end IsTagEnd

end PhoenixLens.Markup

/-! ### Attributes -/

namespace PhoenixLens.UsageAttribute

/-- The offset behind an attribute, a closing quote apart. -/
def stop (given : UsageAttribute) : Nat := given.valueEnd.getD given.nameEnd

/-- The name and the value are what stands between their offsets, the value behind the name. -/
structure IsWritten (text : List Char) (given : UsageAttribute) : Prop where
  name : Text.span? text given.nameStart given.nameEnd = some given.name.toList
  value : (given.value = none ∧ given.valueStart = none ∧ given.valueEnd = none) ∨
    ∃ value start stop, given.value = some value ∧ given.valueStart = some start ∧
      given.valueEnd = some stop ∧ given.nameEnd ≤ start ∧
      Text.span? text start stop = some value.toList

variable {text : List Char} {given : UsageAttribute}

theorem IsWritten.append_right (h : given.IsWritten text) (more : List Char) :
    given.IsWritten (text ++ more) := by
  refine ⟨Text.span?_append_right h.name more, ?_⟩
  refine h.value.imp_right ?_
  rintro ⟨value, start, stop, hValue, hStart, hStop, hLe, hSpan⟩
  exact ⟨value, start, stop, hValue, hStart, hStop, hLe, Text.span?_append_right hSpan more⟩

theorem IsWritten.stop_le (h : given.IsWritten text) :
    given.nameEnd ≤ given.stop ∧ given.stop ≤ Text.byteLength text := by
  rw [stop]
  rcases h.value with ⟨-, -, hStop⟩ | ⟨value, start, stop, -, -, hStop, hLe, hSpan⟩
  · rw [hStop]
    exact ⟨Nat.le_refl _, (Text.le_of_span? h.name).2⟩
  · rw [hStop]
    obtain ⟨hOrder, hLast⟩ := Text.le_of_span? hSpan
    exact ⟨Nat.le_trans hLe hOrder, hLast⟩

end PhoenixLens.UsageAttribute

namespace PhoenixLens.Markup

open Elixir (Quoting isQuote isOpening isClosing)
open Text (RestAt StandsAt)

variable {text cs rest : List Char} {pos stop : Nat}

/-- Behind a quoted value stands its closing quote, or nothing. -/
theorem behind_quoted {quote : Char} (hQuote : isQuote quote = true) (h : RestAt text pos cs) :
    ∃ rest, RestAt text (min (pos + Text.byteLength (cs.takeWhile (· != quote)) + 1)
      (Text.byteLength text)) rest := by
  rw [← List.takeWhile_append_dropWhile (p := (· != quote)) (l := cs)] at h
  have hBehind := h.append
  cases hRest : cs.dropWhile (· != quote) with
  | nil =>
    rw [hRest] at hBehind
    have hStop := hBehind.add_byteLength
    rw [Text.byteLength_nil, Nat.add_zero] at hStop
    rw [hStop, Nat.min_eq_right (Nat.le_succ _)]
    exact ⟨[], .last text⟩
  | cons c rest =>
    rw [hRest] at hBehind
    have hClosing : c = quote := by
      have hHead := List.head_dropWhile_not (p := (· != quote)) (l := cs) (by simp [hRest])
      simpa [hRest] using hHead
    have hNext := hBehind.tail
    rw [hClosing, utf8Size_of_isQuote hQuote] at hNext
    rw [Nat.min_eq_left hNext.le]
    exact ⟨rest, hNext⟩

/-- An expression that is not closed reaches to the end of the text. -/
theorem behind_expression (h : RestAt text pos cs) :
    pos ≤ min ((expressionEnd? pos cs).getD (Text.byteLength text)) (Text.byteLength text) ∧
      ∃ rest, RestAt text
        (min ((expressionEnd? pos cs).getD (Text.byteLength text)) (Text.byteLength text)) rest := by
  cases hEnd : expressionEnd? pos cs with
  | none =>
    rw [Option.getD_none, Nat.min_self]
    exact ⟨h.le, [], .last text⟩
  | some stop =>
    obtain ⟨hLt, rest, hRest⟩ := expressionEnd?_offset h hEnd
    rw [Option.getD_some, Nat.min_eq_left hRest.le]
    exact ⟨Nat.le_of_lt hLt, rest, hRest⟩

/-- What is known of a value that begins at the offset `first` or behind it. -/
structure IsValueAt (text : List Char) (first : Nat) (value : AttributeValue) : Prop where
  start : first ≤ value.start
  written : Text.span? text value.start value.stop = some value.text
  next : value.stop ≤ value.next
  behind : ∃ rest, RestAt text value.next rest

theorem attributeValue_offset {value : AttributeValue} (h : RestAt text pos cs)
    (hValue : attributeValue pos cs = some value) : IsValueAt text pos value := by
  have hLast : pos + Text.byteLength cs = Text.byteLength text := h.add_byteLength
  cases cs with
  | nil => cases hValue
  | cons c cs =>
    rw [attributeValue, hLast] at hValue
    split at hValue
    · rename_i hQuote
      cases hValue
      have hBehind : RestAt text (pos + 1) cs := utf8Size_of_isQuote hQuote ▸ h.tail
      have hWhole := hBehind
      rw [← List.takeWhile_append_dropWhile (p := (· != c)) (l := cs)] at hWhole
      exact ⟨Nat.le_succ pos, hWhole.standsAt.span?,
        Nat.le_min.mpr ⟨Nat.le_succ _, hWhole.append.le⟩, behind_quoted hQuote hBehind⟩
    · split at hValue
      · cases hValue
        obtain ⟨hLe, rest, hRest⟩ := behind_expression h
        exact ⟨Nat.le_refl _, h.span?_eq hRest hLe, Nat.le_refl _, rest, hRest⟩
      · cases hValue
        have hWhole := h
        rw [← List.takeWhile_append_dropWhile (l := c :: cs)
          (p := fun c => !Text.isTagBlank c && c != '>')] at hWhole
        exact ⟨Nat.le_refl _, hWhole.standsAt.span?, Nat.le_refl _, _, hWhole.append⟩

/-- What is known of an attribute that begins at the offset `first`. -/
structure IsAttributeAt (text : List Char) (first : Nat) (given : UsageAttribute) (next : Nat) :
    Prop where
  written : given.IsWritten text
  start : given.nameStart = first
  stop : given.stop ≤ next
  behind : ∃ rest, RestAt text next rest

theorem attributeOf_offset (h : RestAt text pos cs) :
    IsAttributeAt text pos (attributeOf pos cs).1 (attributeOf pos cs).2 := by
  rw [← List.takeWhile_append_dropWhile (p := isAttributeNameChar) (l := cs)] at h
  have hName := h.standsAt.span?
  have hBehind := h.append
  have hBare {next : Nat} (hNext : pos + Text.byteLength (cs.takeWhile isAttributeNameChar) ≤ next)
      (hRest : ∃ rest, RestAt text next rest) :
      IsAttributeAt text pos
        { name := String.ofList (cs.takeWhile isAttributeNameChar), nameStart := pos
          nameEnd := pos + Text.byteLength (cs.takeWhile isAttributeNameChar) } next :=
    ⟨⟨by simpa using hName, .inl ⟨rfl, rfl, rfl⟩⟩, rfl, hNext, hRest⟩
  rw [attributeOf]
  split
  · rename_i rest hEquals
    rw [← List.takeWhile_append_dropWhile (p := Text.isTagBlank)
      (l := cs.dropWhile isAttributeNameChar), hEquals] at hBehind
    have hRest := hBehind.append.tail
    rw [← List.takeWhile_append_dropWhile (p := Text.isTagBlank) (l := rest)] at hRest
    have hValueAt := hRest.append
    dsimp only
    split
    · rename_i value hValue
      obtain ⟨hStart, hWritten, hNext, hFurther⟩ := attributeValue_offset hValueAt hValue
      refine ⟨⟨by simpa using hName, .inr ⟨_, _, _, rfl, rfl, rfl, ?_, by simpa using hWritten⟩⟩,
        rfl, hNext, hFurther⟩
      show pos + Text.byteLength (cs.takeWhile isAttributeNameChar) ≤ value.start
      omega
    · exact hBare (by omega) ⟨_, hValueAt⟩
  · exact hBare (Nat.le_refl _) ⟨_, hBehind⟩

/-- The attributes are written in the text at the offset `first` and behind it, one after the
other. -/
structure AreWritten (text : List Char) (first : Nat) (attributes : List UsageAttribute) : Prop where
  written : ∀ given ∈ attributes, given.IsWritten text ∧ first ≤ given.nameStart
  ordered : attributes.Pairwise fun given later => given.stop ≤ later.nameStart

theorem AreWritten.of_le {first start : Nat} {attributes : List UsageAttribute}
    (h : AreWritten text start attributes) (hLe : first ≤ start) :
    AreWritten text first attributes := by
  refine ⟨fun given hGiven => ?_, h.ordered⟩
  obtain ⟨hWritten, hStart⟩ := h.written given hGiven
  exact ⟨hWritten, Nat.le_trans hLe hStart⟩

theorem AreWritten.cons {first next : Nat} {given : UsageAttribute}
    {attributes : List UsageAttribute} (hGiven : IsAttributeAt text first given next)
    (h : AreWritten text next attributes) : AreWritten text first (given :: attributes) := by
  have hLe : first ≤ next := by
    have hName := Text.le_of_span? hGiven.written.name
    have hStop := hGiven.written.stop_le
    rw [hGiven.start] at hName
    exact Nat.le_trans (Nat.le_trans hName.1 hStop.1) hGiven.stop
  constructor
  · intro other hOther
    rcases List.mem_cons.mp hOther with rfl | hLater
    · exact ⟨hGiven.written, Nat.le_of_eq hGiven.start.symm⟩
    · obtain ⟨hWritten, hStart⟩ := h.written other hLater
      exact ⟨hWritten, Nat.le_trans hLe hStart⟩
  · refine List.pairwise_cons.mpr ⟨fun other hOther => ?_, h.ordered⟩
    exact Nat.le_trans hGiven.stop (h.written other hOther).2

theorem attributesOf_go_offset {resume : Nat} (h : RestAt text pos cs) :
    AreWritten text (max pos resume) (attributesOf.go resume pos cs) := by
  induction cs generalizing resume pos with
  | nil => exact ⟨nofun, .nil⟩
  | cons c cs ih =>
    rw [attributesOf.go]
    split
    · exact (ih h.tail).of_le (by omega)
    · rename_i hReached
      split
      · split
        · rename_i stop hEnd
          have hLt := (expressionEnd?_offset h hEnd).1
          exact (ih h.tail).of_le (by omega)
        · exact ⟨nofun, .nil⟩
      · split
        · have hGiven := attributeOf_offset h
          rw [Nat.max_eq_left (Nat.le_of_not_lt hReached)]
          exact .cons hGiven ((ih h.tail).of_le (Nat.le_max_right _ _))
        · exact (ih h.tail).of_le (by omega)

/-- The attributes of a tag stand behind one another in its text. -/
theorem attributesOf_offset (h : RestAt text pos cs) : AreWritten text pos (attributesOf pos cs) :=
  (attributesOf_go_offset h).of_le (Nat.le_max_left _ _)

/-! ### Open tags -/

theorem AreWritten.append_right {first : Nat} {attributes : List UsageAttribute}
    (h : AreWritten text first attributes) (more : List Char) :
    AreWritten (text ++ more) first attributes := by
  refine ⟨fun given hGiven => ?_, h.ordered⟩
  obtain ⟨hWritten, hStart⟩ := h.written given hGiven
  exact ⟨hWritten.append_right more, hStart⟩

/-- The tag is what stands in the text at its offsets. -/
structure IsOpenTagIn (text : List Char) (tag : OpenTag) : Prop where
  angle : ∃ rest, RestAt text tag.start ('<' :: rest)
  name : Text.span? text (tag.start + 1) tag.nameEnd = some tag.name
  nameEnd : tag.nameEnd < tag.stop
  behind : ∃ rest, RestAt text tag.stop rest
  attributes : AreWritten text tag.nameEnd tag.attributes
  inTag : ∀ given ∈ tag.attributes, given.stop < tag.stop

theorem readOpenTag?_offset {name : List Char} {tag : OpenTag}
    (h : RestAt text pos ('<' :: (name ++ rest)))
    (hTag : readOpenTag? pos name rest = some tag) :
    IsOpenTagIn text tag ∧ tag.start = pos ∧ tag.name = name := by
  have hName : RestAt text (pos + 1) (name ++ rest) := h.tail
  have hRest := hName.append
  rw [readOpenTag?, Option.map_eq_some_iff] at hTag
  obtain ⟨tagEnd, hEnd, rfl⟩ := hTag
  have hTagEnd := tagEnd?_offset hRest hEnd
  obtain ⟨hFirst, hLast, further, hFurther⟩ := hTagEnd.attributesEnd
  obtain ⟨hCut, hLength⟩ := hRest.takeBytes_sub hFurther hFirst
  refine ⟨⟨⟨_, h⟩, hName.standsAt.span?, hTagEnd.le, hTagEnd.behind, ?_, ?_⟩, rfl, rfl⟩
  all_goals
    obtain ⟨before, rfl, hBefore⟩ := hRest
    generalize Text.takeBytes _ rest = inner at hCut hLength ⊢
    subst hCut
    have hInner : RestAt (before ++ inner) (pos + 1 + Text.byteLength name) inner :=
      ⟨before, rfl, hBefore⟩
  · rw [← List.append_assoc]
    exact (attributesOf_offset hInner).append_right further
  · intro given hGiven
    have hStop := ((attributesOf_offset hInner).written given hGiven).1.stop_le.2
    rw [← hInner.add_byteLength, hLength] at hStop
    exact Nat.lt_of_le_of_lt hStop hLast

end PhoenixLens.Markup
