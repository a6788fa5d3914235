import PhoenixLens.Proofs.Markup.Spans

/-!
# Closing tags

The closing tag that is found for a tag is the one that it is written with. Between the two stands a
template, in which every tag of the same name is closed again, or is skipped with the component that
it stands in.
-/

namespace PhoenixLens.Markup

/-! ### Steps -/

section

variable {tag : List Char} {skip : List Span} {depth pos : Nat}

theorem matchingClose?_go_pass {resume : Nat} {c : Char} (h : pos < resume ∨ c ≠ '<')
    (cs : List Char) :
    matchingClose?.go tag skip depth resume pos (c :: cs) =
      matchingClose?.go tag skip depth resume (pos + c.utf8Size) cs := by
  have hPassed : (decide (pos < resume) || c != '<') = true := by simpa using h
  conv => lhs; unfold matchingClose?.go
  exact if_pos hPassed

theorem matchingClose?_go_tag {resume : Nat} (h : resume ≤ pos) (cs : List Char) :
    matchingClose?.go tag skip depth resume pos ('<' :: cs) =
      match spanAt? skip pos with
      | some (_, stop) => matchingClose?.go tag skip depth stop (pos + 1) cs
      | none =>
        match Text.stripPrefix? "/" cs with
        | some after =>
          match afterTagName? tag after with
          | some _ =>
            match Text.offsetOf? ['>'] (pos + 1) cs, depth with
            | none, _ => none
            | some close, 0 => some (pos, close + 1)
            | some close, depth + 1 => matchingClose?.go tag skip depth (close + 1) (pos + 1) cs
          | none => matchingClose?.go tag skip depth resume (pos + 1) cs
        | none =>
          match (afterTagName? tag cs).bind (tagEnd? (pos + 1 + Text.byteLength tag)) with
          | some e =>
            matchingClose?.go tag skip (if e.selfClosing then depth else depth + 1) e.stop (pos + 1)
              cs
          | none => matchingClose?.go tag skip depth resume (pos + 1) cs := by
  have hHere : (decide (pos < resume) || '<' != '<') = false := by
    simpa using h
  have hSize : ('<' : Char).utf8Size = 1 := rfl
  conv => lhs; unfold matchingClose?.go
  simp only [hHere, hSize]
  rfl

theorem matchingClose?_go_zero {resume : Nat} (h : resume ≤ pos) (cs : List Char) :
    matchingClose?.go tag skip depth resume pos cs = matchingClose?.go tag skip depth 0 pos cs := by
  induction cs generalizing depth pos with
  | nil => rfl
  | cons c cs ih =>
    have hNext : resume ≤ pos + c.utf8Size := by omega
    by_cases hAngle : c = '<'
    · subst hAngle
      have hBoth : matchingClose?.go tag skip depth resume (pos + 1) cs =
          matchingClose?.go tag skip depth 0 (pos + 1) cs := ih (by omega)
      rw [matchingClose?_go_tag h, matchingClose?_go_tag (Nat.zero_le _), hBoth]
    · rw [matchingClose?_go_pass (.inr hAngle), matchingClose?_go_pass (.inr hAngle), ih hNext]

theorem matchingClose?_go_skip {resume : Nat} {text : List Char}
    (h : pos + Text.byteLength text ≤ resume) (rest : List Char) :
    matchingClose?.go tag skip depth resume pos (text ++ rest) =
      matchingClose?.go tag skip depth resume (pos + Text.byteLength text) rest := by
  induction text generalizing pos with
  | nil => rfl
  | cons c text ih =>
    have hSize := c.utf8Size_pos
    rw [Text.byteLength_cons] at h
    rw [List.cons_append, matchingClose?_go_pass (.inl (by omega)), ih (by omega),
      Text.byteLength_cons, Nat.add_assoc]

/-- Looking for a closing tag goes on behind what has been skipped. -/
theorem matchingClose?_go_tail (c : Char) (text rest : List Char) :
    matchingClose?.go tag skip depth (pos + Text.byteLength (c :: text)) (pos + c.utf8Size)
        (text ++ rest) =
      matchingClose?.go tag skip depth 0 (pos + Text.byteLength (c :: text)) rest := by
  rw [Text.byteLength_cons, ← Nat.add_assoc, matchingClose?_go_skip (Nat.le_refl _),
    matchingClose?_go_zero (Nat.le_refl _)]

theorem afterTagName?_eq_none {c : Char} {cs : List Char} (hTag : startsTag c = true)
    (h : BeginsNoTag cs) (name : List Char) : afterTagName? (c :: name) cs = none := by
  cases cs with
  | nil => rfl
  | cons d cs =>
    have hDiffers : (c == d) = false := by
      rw [beq_eq_false_iff_ne]
      rintro rfl
      rw [h c rfl] at hTag
      cases hTag
    simp [afterTagName?, List.isPrefixOf?, hDiffers]

theorem stripPrefix?_slash_eq_none {cs : List Char} (h : ∀ c ∈ cs.head?, c ≠ '/') :
    Text.stripPrefix? "/" cs = none := by
  cases cs with
  | nil => rfl
  | cons c cs => exact Text.stripPrefix?_eq_none rfl (h c rfl).symm

theorem matchingClose?_go_text (hTag : IsTagName tag) {text rest : List Char}
    (hText : IsTaglessBefore rest text)
    (hSkip : SkipsNone skip pos (pos + Text.byteLength text)) :
    matchingClose?.go tag skip depth 0 pos (text ++ rest) =
      matchingClose?.go tag skip depth 0 (pos + Text.byteLength text) rest := by
  obtain ⟨⟨d, name, rfl, hStart, _⟩, _⟩ := hTag
  induction text generalizing pos with
  | nil => rfl
  | cons c text ih =>
    have hSize := c.utf8Size_pos
    rw [Text.byteLength_cons] at hSkip
    have hNext := ih hText.tail fun p (hp : pos + c.utf8Size ≤ p) hEnd =>
      hSkip p (by omega) (by omega)
    rw [List.cons_append, Text.byteLength_cons, ← Nat.add_assoc, ← hNext]
    by_cases hAngle : c = '<'
    · subst hAngle
      have hBegins := hText.beginsNoTag
      have hSlash : ∀ e ∈ (text ++ rest).head?, e ≠ '/' := by
        rintro e he rfl
        have hNot := hBegins _ he
        revert hNot
        decide
      rw [matchingClose?_go_tag (Nat.zero_le _), hSkip pos (Nat.le_refl _) (by omega),
        stripPrefix?_slash_eq_none hSlash, afterTagName?_eq_none hStart hBegins]
      rfl
    · exact matchingClose?_go_pass (.inr hAngle) _

/-! ### Tags -/

variable {name : List Char}

theorem stripPrefix?_slash_name (hName : IsTagName name) (rest : List Char) :
    Text.stripPrefix? "/" (name ++ rest) = none := by
  obtain ⟨⟨c, more, rfl, _, hSlash⟩, _⟩ := hName
  refine stripPrefix?_slash_eq_none ?_
  rintro d ⟨⟩
  exact hSlash

theorem matchingClose?_go_startTag_of_ne (hTag : IsTagName tag) (hName : IsTagName name)
    (hNe : tag ≠ name) (selfClosing : Bool) (written : TagAttributes) (rest : List Char)
    (hSkip : SkipsNone skip pos (pos + Text.byteLength (startTag selfClosing name written))) :
    matchingClose?.go tag skip depth 0 pos (startTag selfClosing name written ++ rest) =
      matchingClose?.go tag skip depth 0
        (pos + Text.byteLength (startTag selfClosing name written)) rest := by
  have hSize : ('<' : Char).utf8Size = 1 := rfl
  have hInner := IsTagless.inner hName.all selfClosing written
  have hOther : afterTagName? tag (name ++ (written.text ++ (tagEnding selfClosing ++ rest))) =
      none := by
    rw [afterTagName?_append hTag.2 hName.2 (endsName_attributes written selfClosing rest),
      if_neg hNe]
  have hForm : name ++ (written.text ++ tagEnding selfClosing) ++ rest =
      name ++ (written.text ++ (tagEnding selfClosing ++ rest)) := by simp
  rw [startTag, Text.byteLength_cons, hSize] at hSkip ⊢
  rw [List.cons_append, matchingClose?_go_tag (Nat.zero_le _),
    hSkip pos (Nat.le_refl _) (by omega), hForm, stripPrefix?_slash_name hName, hOther, ← hForm,
    ← Nat.add_assoc]
  exact matchingClose?_go_text hTag (hInner.before rest)
    fun p hp hEnd => hSkip p (by omega) (by omega)

theorem matchingClose?_go_startTag_self (hTag : IsTagName tag) (selfClosing : Bool)
    (written : TagAttributes) (rest : List Char) (hSkip : spanAt? skip pos = none) :
    matchingClose?.go tag skip depth 0 pos (startTag selfClosing tag written ++ rest) =
      matchingClose?.go tag skip (if selfClosing then depth else depth + 1) 0
        (pos + Text.byteLength (startTag selfClosing tag written)) rest := by
  have hSelf : (endOfTag selfClosing
      (nameEndAt pos tag + Text.byteLength written.text)).selfClosing = selfClosing := by
    cases selfClosing <;> rfl
  have hSame : (afterTagName? tag (tag ++ (written.text ++ (tagEnding selfClosing ++ rest)))).bind
      (tagEnd? (pos + 1 + Text.byteLength tag)) =
        some (endOfTag selfClosing (nameEndAt pos tag + Text.byteLength written.text)) := by
    rw [afterTagName?_append hTag.2 hTag.2 (endsName_attributes written selfClosing rest),
      if_pos rfl]
    exact tagEnd?_written written selfClosing _ rest
  have hForm : tag ++ (written.text ++ tagEnding selfClosing) ++ rest =
      tag ++ (written.text ++ (tagEnding selfClosing ++ rest)) := by simp
  have hStep : matchingClose?.go tag skip depth 0 pos (startTag selfClosing tag written ++ rest) =
      matchingClose?.go tag skip (if selfClosing then depth else depth + 1)
        (pos + Text.byteLength (startTag selfClosing tag written)) (pos + 1)
        (tag ++ (written.text ++ tagEnding selfClosing) ++ rest) := by
    rw [startTag, List.cons_append, matchingClose?_go_tag (Nat.zero_le _), hSkip, hForm,
      stripPrefix?_slash_name hTag, hSame]
    simp only [hSelf, endOfTag_stop]
    rfl
  exact hStep.trans (matchingClose?_go_tail '<' _ rest)

theorem endsName_close (rest : List Char) : EndsName ('>' :: rest) :=
  ⟨'>', rest, rfl, .inr (.inl rfl)⟩

theorem matchingClose?_go_closing (rest : List Char) (hSkip : spanAt? skip pos = none) :
    matchingClose?.go tag skip depth 0 pos (closeTag name ++ rest) =
      match afterTagName? tag (name ++ '>' :: rest) with
      | some _ =>
        match Text.offsetOf? ['>'] (pos + 1) ('/' :: name ++ '>' :: rest), depth with
        | none, _ => none
        | some close, 0 => some (pos, close + 1)
        | some close, depth + 1 =>
          matchingClose?.go tag skip depth (close + 1) (pos + 1) ('/' :: name ++ '>' :: rest)
      | none => matchingClose?.go tag skip depth 0 (pos + 1) ('/' :: name ++ '>' :: rest) := by
  have hForm : closeTag name ++ rest = '<' :: ('/' :: name ++ '>' :: rest) := by simp [closeTag]
  have hSlash : Text.stripPrefix? "/" ('/' :: name ++ '>' :: rest) = some (name ++ '>' :: rest) :=
    Text.stripPrefix?_append "/" (name ++ '>' :: rest)
  rw [hForm, matchingClose?_go_tag (Nat.zero_le _), hSkip]
  simp only [hSlash]

theorem matchingClose?_go_closeTag_of_ne (hTag : IsTagName tag) (hName : IsTagName name)
    (hNe : tag ≠ name) (rest : List Char)
    (hSkip : SkipsNone skip pos (pos + Text.byteLength (closeTag name))) :
    matchingClose?.go tag skip depth 0 pos (closeTag name ++ rest) =
      matchingClose?.go tag skip depth 0 (pos + Text.byteLength (closeTag name)) rest := by
  have hSize : ('<' : Char).utf8Size = 1 := rfl
  have hInner := IsTagless.closing hName.all
  have hForm : '/' :: name ++ '>' :: rest = '/' :: (name ++ ['>']) ++ rest := by simp
  rw [closeTag, Text.byteLength_cons, hSize] at hSkip
  rw [matchingClose?_go_closing rest (hSkip pos (Nat.le_refl _) (by omega)),
    afterTagName?_append hTag.all hName.all (endsName_close rest), if_neg hNe, hForm, closeTag,
    Text.byteLength_cons, hSize, ← Nat.add_assoc]
  exact matchingClose?_go_text hTag (hInner.before rest)
    fun p hp hEnd => hSkip p (by omega) (by omega)

theorem offsetOf?_closeTag (hName : IsTagName name) (pos : Nat) (rest : List Char) :
    (Text.offsetOf? ['>'] (pos + 1) ('/' :: name ++ '>' :: rest)).map (· + 1) =
      some (pos + Text.byteLength (closeTag name)) := by
  have hSizes : ('<' : Char).utf8Size = 1 ∧ ('>' : Char).utf8Size = 1 := ⟨rfl, rfl⟩
  have hAngle : '>' ∉ '/' :: name := by
    rw [List.mem_cons, not_or]
    exact ⟨by decide, fun hMem => ne_of_isNameChar (hName.all _ hMem) (by decide) rfl⟩
  rw [Text.offsetOf?_append _ _ hAngle, Option.map_some, closeTag]
  simp only [Text.byteLength_cons, Text.byteLength_append, Text.byteLength_nil, hSizes]
  congr 1
  omega

theorem matchingClose?_go_closeTag_succ (hTag : IsTagName tag) (rest : List Char)
    (hSkip : spanAt? skip pos = none) :
    matchingClose?.go tag skip (depth + 1) 0 pos (closeTag tag ++ rest) =
      matchingClose?.go tag skip depth 0 (pos + Text.byteLength (closeTag tag)) rest := by
  obtain ⟨close, hClose, hStop⟩ := Option.map_eq_some_iff.mp (offsetOf?_closeTag hTag pos rest)
  have hForm : '/' :: tag ++ '>' :: rest = '/' :: (tag ++ ['>']) ++ rest := by simp
  rw [matchingClose?_go_closing rest hSkip,
    afterTagName?_append hTag.all hTag.all (endsName_close rest), if_pos rfl]
  simp only [hClose, hStop]
  rw [hForm]
  exact matchingClose?_go_tail '<' ('/' :: (tag ++ ['>'])) rest

theorem matchingClose?_go_closeTag_zero (hTag : IsTagName tag) (rest : List Char)
    (hSkip : spanAt? skip pos = none) :
    matchingClose?.go tag skip 0 0 pos (closeTag tag ++ rest) =
      some (pos, pos + Text.byteLength (closeTag tag)) := by
  obtain ⟨close, hClose, hStop⟩ := Option.map_eq_some_iff.mp (offsetOf?_closeTag hTag pos rest)
  rw [matchingClose?_go_closing rest hSkip,
    afterTagName?_append hTag.all hTag.all (endsName_close rest), if_pos rfl]
  simp only [hClose, hStop]

end

/-! ### Templates -/

theorem matchingClose?_go_span {tag : List Char} {skip : List Span} {depth pos stop : Nat}
    {text : List Char} (hText : ∃ more, text = '<' :: more)
    (hStop : pos + Text.byteLength text = stop) (hSkip : spanAt? skip pos = some (pos, stop))
    (rest : List Char) :
    matchingClose?.go tag skip depth 0 pos (text ++ rest) =
      matchingClose?.go tag skip depth 0 stop rest := by
  obtain ⟨more, rfl⟩ := hText
  subst hStop
  rw [List.cons_append, matchingClose?_go_tag (Nat.zero_le _), hSkip]
  exact matchingClose?_go_tail '<' more rest

/-- What follows text in a template is a tag, or what stands behind the template. -/
theorem Template.beginsNoTag_source (template : Template false) {rest : List Char}
    (h : BeginsNoTag rest) : BeginsNoTag (template.source ++ rest) := by
  have hAngle : ∀ more, BeginsNoTag ('<' :: more) := by
    rintro more c ⟨⟩
    decide
  cases template with
  | done => exact h
  | block name attributes body next => exact hAngle _
  | selfClosing name attributes next => exact hAngle _
  | void name attributes next => exact hAngle _

theorem beginsNoTag_closeTag (name rest : List Char) : BeginsNoTag (closeTag name ++ rest) := by
  rintro c ⟨⟩
  decide

/-- The name of an element is never that of a component or a slot. -/
theorem WrittenName.text_ne_element {name : WrittenName} (h : ∀ other, name ≠ .element other)
    (element : ElementName) : name.text ≠ element.1 := by
  have hChars : ∀ c, isElementChar c = true → c ≠ '.' := by
    rintro c hc rfl
    revert hc
    decide
  intro hSame
  cases name with
  | element other => exact h other rfl
  | slot name =>
    obtain ⟨c, rest, hName, hLetter⟩ := element.2.first
    rw [hName] at hSame
    rw [← (List.cons.inj hSame).1] at hLetter
    revert hLetter
    decide
  | component name =>
    have hDot : '.' ∈ element.1 := by
      rw [← hSame, WrittenName.text, name.written_eq]
      simp
    exact hChars '.' (element.2.all '.' hDot) rfl

/-- A block between its tags is passed over if its body is. -/
theorem matchingClose?_go_block {tag : List Char} {skip : List Span} {name : WrittenName}
    {attributes : TagAttributes} {body rest : List Char} {pos inside behind stop : Nat}
    (hTag : IsTagName tag)
    (hInside : pos + Text.byteLength (startTag false name.text attributes) = inside)
    (hStop : behind + Text.byteLength (closeTag name.text) = stop)
    (hOpen : SkipsNone skip pos inside) (hClose : SkipsNone skip behind stop)
    (hBody : ∀ depth, matchingClose?.go tag skip depth 0 inside
        (body ++ (closeTag name.text ++ rest)) =
      matchingClose?.go tag skip depth 0 behind (closeTag name.text ++ rest)) (depth : Nat) :
    matchingClose?.go tag skip depth 0 pos
        (startTag false name.text attributes ++ (body ++ (closeTag name.text ++ rest))) =
      matchingClose?.go tag skip depth 0 stop rest := by
  subst hInside hStop
  have hAtOpen := hOpen pos (Nat.le_refl _)
    (Nat.lt_add_of_pos_right (byteLength_startTag_pos false name.text attributes))
  have hAtClose := hClose behind (Nat.le_refl _)
    (Nat.lt_add_of_pos_right (byteLength_closeTag_pos name.text))
  by_cases hSame : tag = name.text
  · subst hSame
    rw [matchingClose?_go_startTag_self hTag false attributes _ hAtOpen, if_neg (by decide), hBody,
      matchingClose?_go_closeTag_succ hTag rest hAtClose]
  · rw [matchingClose?_go_startTag_of_ne hTag name.isTagName hSame false attributes _ hOpen, hBody,
      matchingClose?_go_closeTag_of_ne hTag name.isTagName hSame rest hClose]

section

variable {tag : List Char} {skip : List Span} {skips : Bool} {name : WrittenName}
  {attributes : TagAttributes} {next : Template true} {texts : Bool} {pos stop : Nat}

theorem matchingClose?_go_written {body : Template true} {inside behind : Nat}
    (hTag : IsTagName tag)
    (hSkip : SkipsAs skip ((Template.block name attributes body next :
      Template texts).skipped skips pos) pos (stop + Text.byteLength next.source))
    (hInside : pos + Text.byteLength (startTag false name.text attributes) = inside)
    (hBehind : inside + Text.byteLength body.source = behind)
    (hStop : behind + Text.byteLength (closeTag name.text) = stop) (rest : List Char)
    (hBody : SkipsAs skip (body.skipped skips inside) inside behind → ∀ depth,
      matchingClose?.go tag skip depth 0 inside
          (body.source ++ (closeTag name.text ++ rest)) =
        matchingClose?.go tag skip depth 0 behind (closeTag name.text ++ rest)) (depth : Nat) :
    matchingClose?.go tag skip depth 0 pos
        (startTag false name.text attributes ++ (body.source ++ (closeTag name.text ++ rest))) =
      matchingClose?.go tag skip depth 0 stop rest := by
  cases hOwn : Template.isSkipped skips name with
  | true =>
    obtain ⟨hLt, hSpan⟩ := hSkip.block_own hInside hBehind hStop hOwn
    have hForm : startTag false name.text attributes ++
        (body.source ++ (closeTag name.text ++ rest)) =
          (startTag false name.text attributes ++ (body.source ++ closeTag name.text)) ++ rest := by
      simp
    have hLength := Template.byteLength_whole hInside hBehind hStop
    rw [hForm]
    exact matchingClose?_go_span ⟨_, rfl⟩ hLength (hSpan pos (Nat.le_refl _) hLt) _
  | false =>
    obtain ⟨hOpen, hInner, hClose⟩ := hSkip.block_inner hInside hBehind hStop hOwn
    exact matchingClose?_go_block hTag hInside hStop hOpen hClose (hBody hInner) depth

theorem matchingClose?_go_selfClosing (hTag : IsTagName tag)
    (hSkip : SkipsAs skip ((Template.selfClosing name attributes next :
      Template texts).skipped skips pos) pos (stop + Text.byteLength next.source))
    (hStop : pos + Text.byteLength (startTag true name.text attributes) = stop)
    (rest : List Char) (depth : Nat) :
    matchingClose?.go tag skip depth 0 pos (startTag true name.text attributes ++ rest) =
      matchingClose?.go tag skip depth 0 stop rest := by
  cases hOwn : Template.isSkipped skips name with
  | true =>
    obtain ⟨hLt, hSpan⟩ := hSkip.selfClosing_own hStop hOwn
    exact matchingClose?_go_span ⟨_, rfl⟩ hStop (hSpan pos (Nat.le_refl _) hLt) _
  | false =>
    have hNone := hSkip.selfClosing_inner hStop hOwn
    rw [← hStop] at hNone ⊢
    have hAtTag := hNone pos (Nat.le_refl _)
      (Nat.lt_add_of_pos_right (byteLength_startTag_pos true name.text attributes))
    by_cases hSame : tag = name.text
    · rw [← hSame]
      exact matchingClose?_go_startTag_self hTag true attributes _ hAtTag
    · exact matchingClose?_go_startTag_of_ne hTag name.isTagName hSame true attributes _ hNone

end

/-- In a template every tag is closed again, so that looking for a closing tag goes on behind it. -/
theorem matchingClose?_go_template {name : WrittenName} (hName : ∀ other, name ≠ .element other)
    (skip : List Span) (skips : Bool) {texts : Bool} (template : Template texts) :
    ∀ (depth pos : Nat) (rest : List Char), BeginsNoTag rest →
      SkipsAs skip (template.skipped skips pos) pos (pos + Text.byteLength template.source) →
      matchingClose?.go name.text skip depth 0 pos (template.source ++ rest) =
        matchingClose?.go name.text skip depth 0 (pos + Text.byteLength template.source) rest := by
  have hTag := name.isTagName
  -- the depth is general, as a block of the same name has one more open tag around its body
  induction template with
  | done => exact fun depth pos rest _ _ => rfl
  | text own next ih =>
    intro depth pos rest hRest hSkip
    obtain ⟨hOwn, hNext⟩ := hSkip.text
    have hText : IsTaglessBefore (next.source ++ rest) own.1 :=
      ⟨own.2, fun _ => next.beginsNoTag_source hRest⟩
    rw [Template.source, List.append_assoc, matchingClose?_go_text hTag hText hOwn,
      ih depth _ rest hRest hNext, Text.byteLength_append, Nat.add_assoc]
  | block other attributes body next ihBody ihNext =>
    intro depth pos rest hRest hSkip
    generalize hInside : pos + Text.byteLength (startTag false other.text attributes) = inside
    generalize hBehind : inside + Text.byteLength body.source = behind
    generalize hStop : behind + Text.byteLength (closeTag other.text) = stop
    rw [Template.byteLength_block hInside hBehind hStop] at hSkip ⊢
    have hNext := ihNext depth stop rest hRest (hSkip.block_next hInside hBehind hStop)
    rw [← hNext, Template.source, List.append_assoc, List.append_assoc, List.append_assoc]
    refine matchingClose?_go_written hTag hSkip hInside hBehind hStop _ (fun hInner depth => ?_)
      depth
    rw [← hBehind] at hInner
    rw [ihBody depth inside _ (beginsNoTag_closeTag _ _) hInner, hBehind]
  | selfClosing other attributes next ih =>
    intro depth pos rest hRest hSkip
    generalize hStop : pos + Text.byteLength (startTag true other.text attributes) = stop
    rw [Template.source, Text.byteLength_append, ← Nat.add_assoc, hStop] at hSkip
    rw [Template.source, Text.byteLength_append, ← Nat.add_assoc, hStop,
      ← ih depth stop rest hRest (hSkip.selfClosing_next hStop), List.append_assoc]
    exact matchingClose?_go_selfClosing hTag hSkip hStop _ depth
  | void other attributes next ih =>
    intro depth pos rest hRest hSkip
    generalize hStop : pos + Text.byteLength (startTag false other.1 attributes) = stop
    rw [Template.source, Text.byteLength_append, ← Nat.add_assoc, hStop] at hSkip
    obtain ⟨hNone, hNext⟩ := hSkip.void hStop
    rw [Template.source, Text.byteLength_append, ← Nat.add_assoc, hStop,
      ← ih depth stop rest hRest hNext, List.append_assoc]
    rw [← hStop] at hNone ⊢
    exact matchingClose?_go_startTag_of_ne hTag (WrittenName.element other).isTagName
      (WrittenName.text_ne_element hName other) false attributes _ hNone

/-- The closing tag that is found behind a body is its own. -/
theorem matchingClose?_closeTag {name : WrittenName} (hName : ∀ other, name ≠ .element other)
    {skip : List Span} {skips texts : Bool} {body : Template texts} {pos behind stop : Nat}
    (hBehind : pos + Text.byteLength body.source = behind)
    (hStop : behind + Text.byteLength (closeTag name.text) = stop)
    (hBody : SkipsAs skip (body.skipped skips pos) pos behind)
    (hClose : spanAt? skip behind = none) (rest : List Char) :
    matchingClose? name.text skip pos (body.source ++ (closeTag name.text ++ rest)) =
      some (behind, stop) := by
  subst hBehind hStop
  rw [matchingClose?, matchingClose?_go_zero (Nat.le_refl _),
    matchingClose?_go_template hName skip skips body 0 pos _ (beginsNoTag_closeTag _ _) hBody,
    matchingClose?_go_closeTag_zero name.isTagName rest hClose]

end PhoenixLens.Markup
