import PhoenixLens.Proofs.Markup.Closing

/-!
# Slots of components

The slots that are found in the body of a component are those of the template that it was written
with, without the slots of the components in it.
-/

namespace PhoenixLens.Markup

/-! ### Steps -/

section

variable {limit : Nat} {nested : List Span} {pos : Nat}

theorem slotsOf_go_end {resume : Nat} (h : limit ≤ pos) (cs : List Char) :
    slotsOf.go limit nested resume pos cs = [] := by
  cases cs with
  | nil => rfl
  | cons c cs => rw [slotsOf.go, if_pos h]

theorem slotsOf_go_pass {resume : Nat} {c : Char} (h : pos < resume ∨ c ≠ '<')
    (hLimit : pos < limit) (cs : List Char) :
    slotsOf.go limit nested resume pos (c :: cs) =
      slotsOf.go limit nested resume (pos + c.utf8Size) cs := by
  have hPassed : (decide (pos < resume) || c != '<') = true := by simpa using h
  rw [slotsOf.go, if_neg (Nat.not_le.mpr hLimit), if_pos hPassed]

theorem slotsOf_go_tag {resume : Nat} (h : resume ≤ pos) (hLimit : pos < limit)
    (cs : List Char) :
    slotsOf.go limit nested resume pos ('<' :: cs) =
      match slotsOf.slotName? cs with
      | none => slotsOf.go limit nested resume (pos + 1) cs
      | some name =>
        match spanAt? nested pos with
        | some (_, skipped) => slotsOf.go limit nested skipped (pos + 1) cs
        | none =>
          let written := ':' :: name
          match readOpenTag? pos written (cs.drop written.length) with
          | none => slotsOf.go limit nested resume (pos + 1) cs
          | some tag =>
            let behind := Text.dropBytes (tag.stop - (pos + 1)) cs
            let slotEnd := if tag.selfClosing then tag.stop else
              ((matchingClose? written nested tag.stop behind).map (·.2)).getD tag.stop
            { name := String.ofList name
              start := pos
              openTagEnd := tag.stop
              stop := slotEnd
              attributes := tag.attributes
              selfClosing := tag.selfClosing : UsageSlot } ::
                slotsOf.go limit nested slotEnd (pos + 1) cs := by
  have hHere : (decide (pos < resume) || '<' != '<') = false := by simpa using h
  have hSize : ('<' : Char).utf8Size = 1 := rfl
  conv => lhs; unfold slotsOf.go
  simp only [hHere, hSize, Nat.not_le.mpr hLimit, if_false]
  rfl

theorem slotsOf_go_zero {resume : Nat} (h : resume ≤ pos) (cs : List Char) :
    slotsOf.go limit nested resume pos cs = slotsOf.go limit nested 0 pos cs := by
  induction cs generalizing pos with
  | nil => rfl
  | cons c cs ih =>
    have hNext : resume ≤ pos + c.utf8Size := by omega
    by_cases hLimit : pos < limit
    · by_cases hAngle : c = '<'
      · subst hAngle
        have hBoth : slotsOf.go limit nested resume (pos + 1) cs =
            slotsOf.go limit nested 0 (pos + 1) cs := ih (by omega)
        rw [slotsOf_go_tag h hLimit, slotsOf_go_tag (Nat.zero_le _) hLimit, hBoth]
      · rw [slotsOf_go_pass (.inr hAngle) hLimit, slotsOf_go_pass (.inr hAngle) hLimit, ih hNext]
    · rw [slotsOf_go_end (Nat.not_lt.mp hLimit), slotsOf_go_end (Nat.not_lt.mp hLimit)]

theorem slotsOf_go_skip {resume : Nat} {text : List Char}
    (h : pos + Text.byteLength text ≤ resume) (hLimit : pos + Text.byteLength text ≤ limit)
    (rest : List Char) :
    slotsOf.go limit nested resume pos (text ++ rest) =
      slotsOf.go limit nested resume (pos + Text.byteLength text) rest := by
  induction text generalizing pos with
  | nil => rfl
  | cons c text ih =>
    have hSize := c.utf8Size_pos
    rw [Text.byteLength_cons] at h hLimit
    rw [List.cons_append, slotsOf_go_pass (.inl (by omega)) (by omega), ih (by omega) (by omega),
      Text.byteLength_cons, Nat.add_assoc]

/-- Looking for slots goes on behind a tag or a slot that has been read. -/
theorem slotsOf_go_tail {c : Char} {text : List Char}
    (hLimit : pos + Text.byteLength (c :: text) ≤ limit) (rest : List Char) :
    slotsOf.go limit nested (pos + Text.byteLength (c :: text)) (pos + c.utf8Size)
        (text ++ rest) =
      slotsOf.go limit nested 0 (pos + Text.byteLength (c :: text)) rest := by
  rw [Text.byteLength_cons, ← Nat.add_assoc] at hLimit ⊢
  rw [slotsOf_go_skip (Nat.le_refl _) hLimit, slotsOf_go_zero (Nat.le_refl _)]

theorem slotName?_of_beginsNoTag {cs : List Char} (h : BeginsNoTag cs) :
    slotsOf.slotName? cs = none := by
  cases cs with
  | nil => rfl
  | cons c cs =>
    refine slotName?_eq_none ?_ cs
    rintro rfl
    have hNot := h ':' rfl
    revert hNot
    decide

theorem slotsOf_go_text {text rest : List Char} (hText : IsTaglessBefore rest text)
    (hLimit : pos + Text.byteLength text ≤ limit) :
    slotsOf.go limit nested 0 pos (text ++ rest) =
      slotsOf.go limit nested 0 (pos + Text.byteLength text) rest := by
  induction text generalizing pos with
  | nil => rfl
  | cons c text ih =>
    have hSize := c.utf8Size_pos
    rw [Text.byteLength_cons] at hLimit
    have hNext := ih hText.tail (show pos + c.utf8Size + Text.byteLength text ≤ limit by omega)
    rw [List.cons_append, Text.byteLength_cons, ← Nat.add_assoc, ← hNext]
    by_cases hAngle : c = '<'
    · subst hAngle
      rw [slotsOf_go_tag (Nat.zero_le _) (by omega), slotName?_of_beginsNoTag hText.beginsNoTag]
      rfl
    · exact slotsOf_go_pass (.inr hAngle) (by omega) _

/-- In a component that is nested nothing is found. -/
theorem slotsOf_go_nested {start stop : Nat} (hLimit : stop ≤ limit) {text : List Char}
    (hStop : pos + Text.byteLength text = stop)
    (hSkip : ∀ p, pos ≤ p → p < stop → spanAt? nested p = some (start, stop)) (rest : List Char) :
    slotsOf.go limit nested 0 pos (text ++ rest) = slotsOf.go limit nested 0 stop rest := by
  induction text generalizing pos with
  | nil => rw [← hStop]; rfl
  | cons c text ih =>
    have hSize := c.utf8Size_pos
    have hNext : slotsOf.go limit nested 0 (pos + c.utf8Size) (text ++ rest) =
        slotsOf.go limit nested 0 stop rest := by
      rw [Text.byteLength_cons] at hStop
      exact ih (by omega) fun p hp hEnd => hSkip p (by omega) hEnd
    have hHere : pos < stop := by
      rw [Text.byteLength_cons] at hStop
      omega
    by_cases hAngle : c = '<'
    · subst hAngle
      rw [List.cons_append, slotsOf_go_tag (Nat.zero_le _) (by omega)]
      cases slotsOf.slotName? (text ++ rest) with
      | none => exact hNext
      | some name =>
        simp only [hSkip pos (Nat.le_refl _) hHere]
        rw [← hStop] at hLimit ⊢
        exact slotsOf_go_tail hLimit rest
    · rw [List.cons_append, slotsOf_go_pass (.inr hAngle) (by omega)]
      exact hNext

/-! ### Tags -/

theorem slotsOf_go_startTag (name : WrittenName) (hName : name.slot? = none) (selfClosing : Bool)
    (written : TagAttributes) (rest : List Char)
    (hLimit : pos + Text.byteLength (startTag selfClosing name.text written) ≤ limit) :
    slotsOf.go limit nested 0 pos (startTag selfClosing name.text written ++ rest) =
      slotsOf.go limit nested 0
        (pos + Text.byteLength (startTag selfClosing name.text written)) rest := by
  have hSize : ('<' : Char).utf8Size = 1 := rfl
  have hInner := IsTagless.inner name.isNameChar selfClosing written
  have hOther : ∀ more, slotsOf.slotName? (name.text ++ more) = none := by
    intro more
    obtain ⟨c, rest, hText, hColon⟩ := name.first_of_not_slot hName
    rw [hText, List.cons_append, slotName?_eq_none hColon]
  rw [startTag, Text.byteLength_cons, hSize] at hLimit ⊢
  rw [List.cons_append, slotsOf_go_tag (Nat.zero_le _) (by omega), List.append_assoc, hOther,
    ← List.append_assoc, ← Nat.add_assoc]
  exact slotsOf_go_text (hInner.before rest) (by omega)

theorem slotsOf_go_closeTag (name : WrittenName) (rest : List Char)
    (hLimit : pos + Text.byteLength (closeTag name.text) ≤ limit) :
    slotsOf.go limit nested 0 pos (closeTag name.text ++ rest) =
      slotsOf.go limit nested 0 (pos + Text.byteLength (closeTag name.text)) rest := by
  have hSize : ('<' : Char).utf8Size = 1 := rfl
  have hInner := IsTagless.closing name.isNameChar
  rw [closeTag, Text.byteLength_cons, hSize] at hLimit ⊢
  rw [List.cons_append, slotsOf_go_tag (Nat.zero_le _) (by omega), List.cons_append,
    slotName?_eq_none (by decide), ← List.cons_append, ← Nat.add_assoc]
  exact slotsOf_go_text (hInner.before rest) (by omega)

theorem slotsOf_go_slot (selfClosing : Bool) (name : Identifier) (written : TagAttributes)
    (rest : List Char) {inside stop : Nat} (hSkip : spanAt? nested pos = none)
    (hInside : pos + Text.byteLength (startTag selfClosing (':' :: name.1) written) = inside)
    (hLimit : inside ≤ limit) (hLe : inside ≤ stop)
    (hStop : (if selfClosing then inside else
      ((matchingClose? (':' :: name.1) nested inside rest).map (·.2)).getD inside) = stop) :
    slotsOf.go limit nested 0 pos (startTag selfClosing (':' :: name.1) written ++ rest) =
      slotAt pos name written inside stop selfClosing ::
        slotsOf.go limit nested stop inside rest := by
  have hSize : ('<' : Char).utf8Size = 1 := rfl
  have hName := slotName?_slot name (endsName_attributes written selfClosing rest)
  have hTag := readOpenTag?_written selfClosing pos (':' :: name.1) written rest
  have hForm : ':' :: name.1 ++ (written.text ++ tagEnding selfClosing) ++ rest =
      ':' :: name.1 ++ (written.text ++ (tagEnding selfClosing ++ rest)) := by simp
  have hLength : pos + 1 + Text.byteLength (':' :: name.1 ++ (written.text ++
      tagEnding selfClosing)) = inside := by
    rw [← hInside, startTag, Text.byteLength_cons, hSize, Nat.add_assoc]
  have hBehind := dropBytes_startTag selfClosing (':' :: name.1) written hInside rest
  have hGo : slotsOf.go limit nested stop (pos + 1) (':' :: name.1 ++ (written.text ++
      tagEnding selfClosing) ++ rest) = slotsOf.go limit nested stop inside rest := by
    rw [slotsOf_go_skip (by omega) (by omega), hLength]
  rw [hForm] at hGo
  rw [startTag, List.cons_append, slotsOf_go_tag (Nat.zero_le _) (by omega), hForm]
  simp only [List.cons_append] at hName hTag hBehind hGo ⊢
  have hDrop : List.drop (':' :: name.1).length
      (':' :: (name.1 ++ (written.text ++ (tagEnding selfClosing ++ rest)))) =
        written.text ++ (tagEnding selfClosing ++ rest) := List.drop_left
  simp only [hName, hSkip, hDrop, hTag, writtenTag, hInside, hBehind, hStop, hGo]
  rfl

end

/-! ### Templates -/

section

variable {limit : Nat} {nested : List Span} {name : WrittenName} {attributes : TagAttributes}
  {pos : Nat}

theorem slotsOf_go_selfClosing {next : Template true} {texts : Bool} {stop : Nat}
    (hSkip : SkipsAs nested ((Template.selfClosing name attributes next :
      Template texts).skipped true pos) pos (stop + Text.byteLength next.source))
    (hStop : pos + Text.byteLength (startTag true name.text attributes) = stop)
    (hLimit : stop ≤ limit) (rest : List Char) :
    slotsOf.go limit nested 0 pos (startTag true name.text attributes ++ rest) =
      (name.slot?.map fun name => slotAt pos name attributes stop stop true).toList ++
        slotsOf.go limit nested 0 stop rest := by
  cases hName : name with
  | element other =>
    subst hName hStop
    exact slotsOf_go_startTag (.element other) rfl true attributes rest hLimit
  | component other =>
    subst hName
    obtain ⟨_, hSpan⟩ := hSkip.selfClosing_own hStop rfl
    exact slotsOf_go_nested hLimit hStop hSpan rest
  | slot other =>
    subst hName
    have hNone := hSkip.selfClosing_inner hStop rfl
    have hTag := byteLength_startTag_pos true (WrittenName.slot other).text attributes
    have hRead := slotsOf_go_slot true other attributes rest
      (hNone pos (Nat.le_refl _) (by omega)) hStop hLimit (Nat.le_refl _) rfl
    rw [slotsOf_go_zero (Nat.le_refl _)] at hRead
    exact hRead

theorem slotsOf_go_slotBlock {other : Identifier} {body : Template true} {inside behind stop : Nat}
    (hOpen : spanAt? nested pos = none)
    (hInside : pos + Text.byteLength (startTag false (':' :: other.1) attributes) = inside)
    (hBehind : inside + Text.byteLength body.source = behind)
    (hStop : behind + Text.byteLength (closeTag (':' :: other.1)) = stop) (hLimit : stop ≤ limit)
    (hInner : SkipsAs nested (body.skipped true inside) inside behind)
    (hClose : spanAt? nested behind = none) (rest : List Char) :
    slotsOf.go limit nested 0 pos (startTag false (':' :: other.1) attributes ++
        (body.source ++ (closeTag (':' :: other.1) ++ rest))) =
      slotAt pos other attributes inside stop false :: slotsOf.go limit nested 0 stop rest := by
  have hLe : inside ≤ stop := by omega
  have hName : ∀ name, WrittenName.slot other ≠ .element name := fun _ => nofun
  have hFound : matchingClose? (':' :: other.1) nested inside
      (body.source ++ (closeTag (':' :: other.1) ++ rest)) = some (behind, stop) :=
    matchingClose?_closeTag hName hBehind hStop hInner hClose rest
  have hStopAt := congrArg (fun close => (close.map Prod.snd).getD inside) hFound
  have hRead := slotsOf_go_slot false other attributes
    (body.source ++ (closeTag (':' :: other.1) ++ rest)) hOpen hInside (Nat.le_trans hLe hLimit)
    hLe hStopAt
  -- what is found in the slot belongs to it, so its body is passed over with its closing tag
  have hLength : inside + Text.byteLength (body.source ++ closeTag (':' :: other.1)) = stop := by
    rw [Text.byteLength_append]
    omega
  have hGo : slotsOf.go limit nested stop inside
      (body.source ++ (closeTag (':' :: other.1) ++ rest)) =
        slotsOf.go limit nested 0 stop rest := by
    rw [← List.append_assoc, slotsOf_go_skip (Nat.le_of_eq hLength) (by omega), hLength,
      slotsOf_go_zero (Nat.le_refl _)]
  rw [hGo] at hRead
  exact hRead

theorem slotsOf_go_block {body next : Template true} {texts : Bool} {inside behind stop : Nat}
    (hSkip : SkipsAs nested ((Template.block name attributes body next :
      Template texts).skipped true pos) pos (stop + Text.byteLength next.source))
    (hInside : pos + Text.byteLength (startTag false name.text attributes) = inside)
    (hBehind : inside + Text.byteLength body.source = behind)
    (hStop : behind + Text.byteLength (closeTag name.text) = stop) (hLimit : stop ≤ limit)
    (rest : List Char)
    (hBody : SkipsAs nested (body.skipped true inside) inside behind →
      slotsOf.go limit nested 0 inside (body.source ++ (closeTag name.text ++ rest)) =
        body.slots inside ++ slotsOf.go limit nested 0 behind (closeTag name.text ++ rest)) :
    slotsOf.go limit nested 0 pos
        (startTag false name.text attributes ++ (body.source ++ (closeTag name.text ++ rest))) =
      name.ownSlots pos attributes inside stop (body.slots inside) ++
        slotsOf.go limit nested 0 stop rest := by
  have hTag := byteLength_startTag_pos false name.text attributes
  cases name with
  | element other =>
    obtain ⟨_, hInner, _⟩ := hSkip.block_inner hInside hBehind hStop rfl
    have hOpen : slotsOf.go limit nested 0 pos (startTag false (WrittenName.element other).text
        attributes ++ (body.source ++ (closeTag (WrittenName.element other).text ++ rest))) =
          slotsOf.go limit nested 0 inside
            (body.source ++ (closeTag (WrittenName.element other).text ++ rest)) := by
      rw [slotsOf_go_startTag (.element other) rfl false attributes _ (by omega), hInside]
    have hClose : slotsOf.go limit nested 0 behind
        (closeTag (WrittenName.element other).text ++ rest) =
          slotsOf.go limit nested 0 stop rest := by
      rw [slotsOf_go_closeTag (.element other) rest (by omega), hStop]
    rw [hOpen, hBody hInner, hClose]
    rfl
  | component other =>
    obtain ⟨_, hSpan⟩ := hSkip.block_own hInside hBehind hStop rfl
    have hForm : startTag false (WrittenName.component other).text attributes ++
        (body.source ++ (closeTag (WrittenName.component other).text ++ rest)) =
          (startTag false (WrittenName.component other).text attributes ++
            (body.source ++ closeTag (WrittenName.component other).text)) ++ rest := by simp
    have hLength := Template.byteLength_whole hInside hBehind hStop
    rw [hForm]
    exact slotsOf_go_nested hLimit hLength hSpan rest
  | slot other =>
    obtain ⟨hOpen, hInner, hClose⟩ := hSkip.block_inner hInside hBehind hStop rfl
    have hEnd := byteLength_closeTag_pos (WrittenName.slot other).text
    exact slotsOf_go_slotBlock (hOpen pos (Nat.le_refl _) (by omega)) hInside hBehind hStop hLimit
      hInner (hClose behind (Nat.le_refl _) (by omega)) rest

end

/-- The slots of a template are found, and looking for slots goes on behind it. -/
theorem slotsOf_go_template {limit : Nat} {nested : List Span} {texts : Bool}
    (template : Template texts) :
    ∀ (pos : Nat) (rest : List Char), BeginsNoTag rest →
      SkipsAs nested (template.skipped true pos) pos (pos + Text.byteLength template.source) →
      pos + Text.byteLength template.source ≤ limit →
      slotsOf.go limit nested 0 pos (template.source ++ rest) =
        template.slots pos ++
          slotsOf.go limit nested 0 (pos + Text.byteLength template.source) rest := by
  induction template with
  | done => exact fun pos rest _ _ _ => rfl
  | text own next ih =>
    intro pos rest hRest hSkip hLimit
    obtain ⟨_, hNext⟩ := hSkip.text
    rw [Template.source, Text.byteLength_append, ← Nat.add_assoc] at hLimit ⊢
    have hText : IsTaglessBefore (next.source ++ rest) own.1 :=
      ⟨own.2, fun _ => next.beginsNoTag_source hRest⟩
    rw [List.append_assoc, slotsOf_go_text hText (by omega), ih _ rest hRest hNext hLimit]
    rfl
  | block name attributes body next ihBody ihNext =>
    intro pos rest hRest hSkip hLimit
    generalize hInside : pos + Text.byteLength (startTag false name.text attributes) = inside
    generalize hBehind : inside + Text.byteLength body.source = behind
    generalize hStop : behind + Text.byteLength (closeTag name.text) = stop
    rw [Template.byteLength_block hInside hBehind hStop] at hSkip hLimit ⊢
    have hNext := ihNext stop rest hRest (hSkip.block_next hInside hBehind hStop) hLimit
    have hStopLimit : stop ≤ limit := Nat.le_trans (Nat.le_add_right _ _) hLimit
    have hBlock := slotsOf_go_block hSkip hInside hBehind hStop hStopLimit
      (next.source ++ rest) fun hInner => by
        have hBody := ihBody inside (closeTag name.text ++ (next.source ++ rest))
          (beginsNoTag_closeTag _ _) (hBehind ▸ hInner) (by omega)
        rwa [hBehind] at hBody
    rw [Template.slots, hInside, hBehind, hStop, List.append_assoc, ← hNext, ← hBlock,
      Template.source]
    simp
  | selfClosing name attributes next ih =>
    intro pos rest hRest hSkip hLimit
    generalize hStop : pos + Text.byteLength (startTag true name.text attributes) = stop
    rw [Template.source, Text.byteLength_append, ← Nat.add_assoc, hStop] at hSkip hLimit
    have hNext := ih stop rest hRest (hSkip.selfClosing_next hStop) hLimit
    rw [Template.source, Text.byteLength_append, ← Nat.add_assoc, hStop, Template.slots, hStop,
      List.append_assoc, List.append_assoc, ← hNext]
    exact slotsOf_go_selfClosing hSkip hStop (by omega) _
  | void name attributes next ih =>
    intro pos rest hRest hSkip hLimit
    generalize hStop : pos + Text.byteLength (startTag false name.1 attributes) = stop
    rw [Template.source, Text.byteLength_append, ← Nat.add_assoc, hStop] at hSkip hLimit
    obtain ⟨_, hNext⟩ := hSkip.void hStop
    rw [Template.source, Text.byteLength_append, ← Nat.add_assoc, hStop, Template.slots, hStop,
      List.append_assoc, ← ih stop rest hRest hNext hLimit, ← hStop]
    refine slotsOf_go_startTag (.element name) rfl false attributes _ ?_
    exact Nat.le_trans (Nat.le_of_eq hStop) (Nat.le_trans (Nat.le_add_right _ _) hLimit)

/-- The slots in the body of a component are those of its template. -/
theorem slotsOf_source {body : Template true} {nested : List Span} {start stop : Nat}
    (hStop : start + Text.byteLength body.source = stop)
    (hSkip : SkipsAs nested (body.skipped true start) start stop) {rest : List Char}
    (hRest : BeginsNoTag rest) :
    slotsOf stop nested start (body.source ++ rest) = body.slots start := by
  subst hStop
  rw [slotsOf, slotsOf_go_zero (Nat.le_refl _),
    slotsOf_go_template body start rest hRest hSkip (Nat.le_refl _),
    slotsOf_go_end (Nat.le_refl _), List.append_nil]

end PhoenixLens.Markup
