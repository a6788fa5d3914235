import PhoenixLens.Proofs.Markup.Rewriting

/-!
# The mask over bytes

A second account of the mask, in terms of the UTF-8 form of a template. It keeps a copy of the bytes
and writes over them while it goes through the template byte by byte; `none` says that it writes
behind the end, or cuts the template where no character ends. Whenever both accounts stand at a
character, the copy holds what the reader of characters has put out and the rest of the template.
-/

namespace PhoenixLens.Markup.ByteMask

open ByteScanner (IsWide charOf from? from?_eq isQuote_of_isWide ne_of_isWide
  toBytes_append toBytes_cons toBytes_cons_cases length_toBytes)
open Elixir (isQuote)
open Text (RestAt byteLength toBytes)

/-! ### Writing over bytes -/

/-- The byte that takes the place of a byte in a text that is blanked. -/
def blankByte (byte : UInt8) : UInt8 := if charOf byte == '\n' then byte else ' '.toUInt8

/-- Blanks the bytes between two offsets. -/
def blank (out : List UInt8) (start stop : Nat) : Option (List UInt8) :=
  if start ≤ stop ∧ stop ≤ out.length then
    some (out.take start ++ (((out.take stop).drop start).map blankByte ++ out.drop stop))
  else none

/-- Writes an ASCII character over the byte at an offset. -/
def put (out : List UInt8) (pos : Nat) (c : Char) : Option (List UInt8) :=
  if pos < out.length then some (out.set pos c.toUInt8) else none

/-- The last byte that is not white space is an equals sign. -/
def endsInEquals (bytes : List UInt8) : Bool :=
  (bytes.reverse.find? fun byte => !Text.isTagBlank (charOf byte)).any (charOf · == '=')

/-- Blanks an expression inside a tag; behind an equals sign it keeps a quote at each end. -/
def blankInTag (out : List UInt8) (start stop : Nat) : Option (List UInt8) := do
  let blanked ← blank out start stop
  if endsInEquals (out.take start) && 2 ≤ stop - start then
    put (← put blanked start '"') (stop - 1) '"'
  else return blanked

/-- A character of the name of a tag, dots included. -/
def isNameChar (c : Char) : Bool := c == '.' || Text.isAsciiWord c || c == '-'

/-- Writes dashes over the dots of the name that the bytes from `pos` on begin with. -/
def putDashes (out : List UInt8) (pos : Nat) : List UInt8 → Option (List UInt8)
  | [] => some out
  | byte :: bytes =>
    if charOf byte == '.' then (put out pos '-').bind fun out => putDashes out (pos + 1) bytes
    else if isNameChar (charOf byte) then putDashes out (pos + 1) bytes
    else some out

/-! ### The loop -/

/-- What the loop has made of the bytes, where it stands, and the offset to resume at. -/
structure State where
  out : List UInt8
  inTag : Bool := false
  quote : Option Char := none
  resume : Nat := 0

def tagStep (text : List Char) (s : State) (pos : Nat) (byte : UInt8) (bytes : List UInt8) :
    Option State :=
  let c := charOf byte
  if isQuote c then some { s with quote := some c }
  else if c == '>' then some { s with inTag := false }
  else if c == '{' then
    let stop := (ByteScanner.expressionEnd? pos (byte :: bytes)).getD (byteLength text)
    (blankInTag s.out pos stop).map fun out => { s with out, resume := stop }
  else some s

/-- A step at the offset `start`, where the name of a tag may begin. -/
def nameStep (s : State) (start : Nat) : List UInt8 → Option State
  | [] => some { s with resume := start }
  | byte :: bytes =>
    let c := charOf byte
    if c == '.' || c == ':' then
      (put s.out start 'x').map fun out => { s with out, inTag := true, resume := start }
    else if Text.isAsciiLetter c then
      (putDashes s.out start (byte :: bytes)).map fun out =>
        { s with out, inTag := true, resume := start }
    else some { s with resume := start }

def angleStep (text : List Char) (s : State) (pos : Nat) (bytes : List UInt8) : Option State :=
  (from? text pos).bind fun rest =>
    if Text.startsWith "<%" rest then
      let stop := ((Text.offsetOf? ['%', '>'] pos rest).map (· + 2)).getD (byteLength text)
      (blank s.out pos stop).map fun out => { s with out, resume := stop }
    else if Text.startsWith "<!--" rest then
      let stop := ((Text.offsetOf? ['-', '-', '>'] pos rest).map (· + 3)).getD (byteLength text)
      some { s with resume := stop }
    else if bytes.head?.any (charOf · == '/') then nameStep s (pos + 2) bytes.tail
    else nameStep s (pos + 1) bytes

def contentStep (text : List Char) (s : State) (pos : Nat) (byte : UInt8) (bytes : List UInt8) :
    Option State :=
  if charOf byte == '<' then angleStep text s pos bytes
  else if charOf byte == '{' then
    let stop := (ByteScanner.expressionEnd? pos (byte :: bytes)).getD (byteLength text)
    (blank s.out pos stop).map fun out => { s with out, resume := stop }
  else some s

def step (text : List Char) (s : State) (pos : Nat) (byte : UInt8) (bytes : List UInt8) :
    Option State :=
  match s.quote with
  | some quote => some (if charOf byte == quote then { s with quote := none } else s)
  | none => if s.inTag then tagStep text s pos byte bytes else contentStep text s pos byte bytes

/-- Continues with the bytes from `pos` on. -/
def go (text : List Char) (s : State) (pos : Nat) : List UInt8 → Option (List UInt8)
  | [] => some s.out
  | byte :: bytes =>
    if pos < s.resume then go text s (pos + 1) bytes
    else (step text s pos byte bytes).bind fun next => go text next (pos + 1) bytes

/-- The bytes of the HTML that stands for a template. -/
def mask (text : List Char) : Option (List UInt8) :=
  go text { out := toBytes text } 0 (toBytes text)

/-! ### Bytes of white space -/

theorem utf8EncodeChar_cases (c : Char) :
    (c.utf8Size = 1 ∧ String.utf8EncodeChar c = [c.toUInt8] ∧ charOf c.toUInt8 = c) ∨
      (IsWide c ∧ String.utf8EncodeChar c ≠ [] ∧
        ∀ byte ∈ String.utf8EncodeChar c, IsWide (charOf byte)) := by
  by_cases hSize : c.utf8Size = 1
  · exact .inl ⟨hSize, String.utf8EncodeChar_eq_singleton hSize,
      ByteScanner.charOf_of_utf8Size hSize⟩
  · obtain ⟨hWide, hBytes⟩ := ByteScanner.isWide_of_utf8Size hSize
    refine .inr ⟨hWide, ?_, hBytes⟩
    rw [Ne, ← List.length_eq_zero_iff, String.length_utf8EncodeChar]
    exact Nat.ne_of_gt c.utf8Size_pos

theorem blankByte_of_ne {byte : UInt8} (h : charOf byte ≠ '\n') :
    blankByte byte = ' '.toUInt8 := by
  rw [blankByte, if_neg]
  simpa using h

theorem toBytes_blank (cs : List Char) :
    toBytes (Markup.blank cs) = (toBytes cs).map blankByte := by
  induction cs with
  | nil => rfl
  | cons c cs ih =>
    rw [blank_cons, toBytes_append, ih, toBytes_cons, List.map_append]
    congr 1
    rw [Markup.blank, List.flatMap_singleton]
    split
    · rename_i hFeed
      rw [beq_iff_eq.mp hFeed]
      decide
    · rename_i hOther
      have hBlank : ∀ byte ∈ String.utf8EncodeChar c, blankByte byte = ' '.toUInt8 := by
        intro byte hByte
        apply blankByte_of_ne
        rcases utf8EncodeChar_cases c with ⟨-, hOwn, hChar⟩ | ⟨-, -, hWide⟩
        · rw [hOwn, List.mem_singleton] at hByte
          rw [hByte, hChar]
          simpa using hOther
        · exact ne_of_isWide (hWide byte hByte) (by decide)
      rw [toBytes_of_utf8Size fun d hMem => by rw [List.eq_of_mem_replicate hMem]; rfl,
        List.map_replicate, List.map_congr_left hBlank, List.map_const',
        String.length_utf8EncodeChar]

theorem toBytes_blankValue (cs : List Char) :
    toBytes (blankValue cs) = if 2 ≤ byteLength cs then
      (((toBytes cs).map blankByte).set 0 '"'.toUInt8).set (byteLength cs - 1) '"'.toUInt8
    else (toBytes cs).map blankByte := by
  rw [blankValue_eq, ← toBytes_blank]
  split
  · rw [toBytes_of_utf8Size utf8Size_of_mem_blank, toBytes_of_utf8Size, List.map_set, List.map_set]
    intro d hMem
    rcases List.mem_or_eq_of_mem_set hMem with hOld | rfl
    · rcases List.mem_or_eq_of_mem_set hOld with hBlank | rfl
      · exact utf8Size_of_mem_blank d hBlank
      · rfl
    · rfl
  · rfl

theorem blank_append (front middle back : List UInt8) :
    blank (front ++ (middle ++ back)) front.length (front.length + middle.length) =
      some (front ++ (middle.map blankByte ++ back)) := by
  have hTake : (front ++ (middle ++ back)).take (front.length + middle.length) =
      front ++ middle := by
    rw [← List.append_assoc, ← List.length_append, List.take_left]
  have hDrop : (front ++ (middle ++ back)).drop (front.length + middle.length) = back := by
    rw [← List.append_assoc, ← List.length_append, List.drop_left]
  rw [blank, if_pos ⟨Nat.le_add_right _ _, by simp⟩, hTake, hDrop, List.take_left, List.drop_left]

theorem put_append (front : List UInt8) {middle : List UInt8} (back : List UInt8) {i : Nat}
    (h : i < middle.length) (c : Char) :
    put (front ++ (middle ++ back)) (front.length + i) c =
      some (front ++ (middle.set i c.toUInt8 ++ back)) := by
  have hInside : front.length + i < (front ++ (middle ++ back)).length := by
    simp only [List.length_append]
    omega
  rw [put, if_pos hInside, List.set_append_right _ _ (Nat.le_add_right _ _),
    Nat.add_sub_cancel_left, List.set_append_left _ _ h]

/-! ### White space and equals signs -/

theorem maskEndsInEquals_concat (isValue : Bool) (cs : List Char) (c : Char) :
    Markup.endsInEquals isValue (cs ++ [c]) =
      if Text.isTagBlank c then Markup.endsInEquals isValue cs else c == '=' := by
  rw [Markup.endsInEquals, List.reverse_concat, List.dropWhile_cons]
  cases Text.isTagBlank c with
  | true => rfl
  | false => rfl

theorem maskEndsInEquals_append (isValue : Bool) (cs ds : List Char) :
    Markup.endsInEquals (Markup.endsInEquals isValue cs) ds =
      Markup.endsInEquals isValue (cs ++ ds) := by
  induction ds using List.reverseRecOn with
  | nil => rw [List.append_nil]; rfl
  | append_singleton ds c ih =>
    rw [← List.append_assoc, maskEndsInEquals_concat, maskEndsInEquals_concat, ih]

theorem endsInEquals_concat (bytes : List UInt8) (byte : UInt8) :
    endsInEquals (bytes ++ [byte]) =
      if Text.isTagBlank (charOf byte) then endsInEquals bytes else charOf byte == '=' := by
  rw [endsInEquals, List.reverse_concat, List.find?_cons]
  cases Text.isTagBlank (charOf byte) with
  | true => rfl
  | false => rfl

/-- Whether an equals sign comes before is seen in the bytes. -/
theorem endsInEquals_toBytes (cs : List Char) :
    endsInEquals (toBytes cs) = Markup.endsInEquals false cs := by
  induction cs using List.reverseRecOn with
  | nil => rfl
  | append_singleton cs c ih =>
    have hOwn : toBytes [c] = String.utf8EncodeChar c := List.append_nil _
    rw [toBytes_append, hOwn, maskEndsInEquals_concat]
    rcases utf8EncodeChar_cases c with ⟨-, hBytes, hChar⟩ | ⟨hWide, hNe, hBytes⟩
    · rw [hBytes, endsInEquals_concat, hChar, ih]
    · -- Only the last byte counts, and no byte of such a character is white space.
      have hLast := hBytes _ (List.getLast_mem hNe)
      rw [← List.dropLast_append_getLast hNe, ← List.append_assoc, endsInEquals_concat,
        ByteScanner.isTagBlank_of_isWide hWide, ByteScanner.isTagBlank_of_isWide hLast]
      simp [ne_of_isWide hWide, ne_of_isWide hLast]

/-! ### Both accounts at a character -/

variable {text written cs rest piece : List Char} {c : Char} {pos n : Nat} {byte : UInt8}
  {place : Place} {s next : State}

/-- The loop and the reader of characters stand in the same place. -/
def State.StandsIn (s : State) : Place → Prop
  | .content => s.inTag = false ∧ s.quote = none
  | .tag => s.inTag = true ∧ s.quote = none
  | .quoted quote => s.inTag = true ∧ s.quote = some quote ∧ isQuote quote = true
  | _ => False

/-- Before the rest `cs` of the template the copy holds what is `written` and that rest. -/
structure Follows (written cs : List Char) (pos : Nat) (place : Place) (s : State) : Prop where
  stands : s.StandsIn place
  out : s.out = toBytes (written ++ cs)
  length : byteLength written = pos
  resume : s.resume ≤ pos

/-- The loop ends with what the reader of characters puts out. -/
def Agrees (text written cs : List Char) (pos : Nat) (place : Place) (s : State) : Prop :=
  go text s pos (toBytes cs) =
    some (toBytes (written ++ mask.go place (Markup.endsInEquals false written) 0 pos cs))

def AgreesBelow (text : List Char) (n : Nat) : Prop :=
  ∀ ⦃written cs : List Char⦄ ⦃pos : Nat⦄ ⦃place : Place⦄ ⦃s : State⦄, cs.length < n →
    RestAt text pos cs → Follows written cs pos place s → Agrees text written cs pos place s

theorem go_skip {bytes : List UInt8} (h : pos + bytes.length ≤ s.resume) (later : List UInt8) :
    go text s pos (bytes ++ later) = go text s (pos + bytes.length) later := by
  induction bytes generalizing pos with
  | nil => rfl
  | cons byte bytes ih =>
    rw [List.length_cons] at h
    rw [List.cons_append, go, if_pos (by omega), ih (by omega), List.length_cons, Nat.add_assoc,
      Nat.add_comm 1]

/-- Bytes that change nothing are passed over. -/
theorem go_still {bytes : List UInt8} (hResume : s.resume ≤ pos)
    (h : ∀ byte ∈ bytes, ∀ pos later, step text s pos byte later = some s) (later : List UInt8) :
    go text s pos (bytes ++ later) = go text s (pos + bytes.length) later := by
  induction bytes generalizing pos with
  | nil => rfl
  | cons byte bytes ih =>
    obtain ⟨hOwn, hLater⟩ := List.forall_mem_cons.mp h
    rw [List.cons_append, go, if_neg (Nat.not_lt.mpr hResume), hOwn, Option.bind_some,
      ih (Nat.le_add_right_of_le hResume) hLater, List.length_cons, Nat.add_assoc, Nat.add_comm 1]

/-! ### Steps -/

theorem go_wide {bytes : List UInt8} (hs : s.StandsIn place) (hResume : s.resume ≤ pos)
    (hBytes : ∀ byte ∈ bytes, IsWide (charOf byte)) (later : List UInt8) :
    go text s pos (bytes ++ later) = go text s (pos + bytes.length) later := by
  apply go_still hResume
  intro byte hMem pos later
  have hWide := hBytes byte hMem
  have hNe {d : Char} (hd : d.toNat < 128) : (charOf byte == d) = false := by
    simp [ne_of_isWide hWide hd]
  cases place with
  | content => simp [step, hs.1, hs.2, contentStep, hNe]
  | tag => simp [step, hs.1, hs.2, tagStep, isQuote_of_isWide hWide, hNe]
  | quoted quote =>
    have hQuote : quote.toNat < 128 := by
      obtain ⟨-, -, hQuote⟩ := hs
      rw [isQuote, Bool.or_eq_true, beq_iff_eq, beq_iff_eq] at hQuote
      rcases hQuote with rfl | rfl
      · decide
      · decide
    simp [step, hs.2.1, hNe hQuote]
  | opened => cases hs
  | slashed => cases hs
  | name => cases hs

theorem maskContent_of_ne_angle (hAngle : c ≠ '<') (pos : Nat) (cs : List Char) :
    maskContent pos c cs = if c == '{' then
      ⟨Markup.blank (upTo (expressionEnd? pos (c :: cs)) pos (c :: cs)).1,
        (upTo (expressionEnd? pos (c :: cs)) pos (c :: cs)).2, .content⟩
    else ⟨[c], 0, .content⟩ := by
  have hStart (more : List Char) : ('<' :: more).isPrefixOf (c :: cs) = false := by
    simp [List.isPrefixOf, hAngle.symm]
  have hCode : Text.startsWith "<%" (c :: cs) = false := hStart ['%']
  have hComment : Text.startsWith "<!--" (c :: cs) = false := hStart ['!', '-', '-']
  simp [maskContent, hCode, hComment, hAngle]

theorem maskContent_of_ne (hAngle : c ≠ '<') (hBrace : c ≠ '{') (pos : Nat) (cs : List Char) :
    maskContent pos c cs = ⟨[c], 0, .content⟩ := by
  rw [maskContent_of_ne_angle hAngle, if_neg (by simpa using hBrace)]

theorem maskStep_of_isWide (hWide : IsWide c) (hs : s.StandsIn place) (isValue : Bool) (pos : Nat)
    (cs : List Char) : maskStep place isValue pos c cs = ⟨[c], 0, place⟩ := by
  cases place with
  | content =>
    exact maskContent_of_ne (ne_of_isWide hWide (by decide)) (ne_of_isWide hWide (by decide)) pos cs
  | tag => simp [maskStep, maskTag, isQuote_of_isWide hWide, ne_of_isWide hWide]
  | quoted quote =>
    have hOther : c ≠ quote := by
      rintro rfl
      have hQuote := hs.2.2
      rw [isQuote_of_isWide hWide] at hQuote
      cases hQuote
    simp [maskStep, hOther]
  | opened => cases hs
  | slashed => cases hs
  | name => cases hs

theorem agrees_of_isWide (ih : AgreesBelow text n) (hShort : cs.length < n)
    (h : RestAt text pos (c :: cs)) (hs : Follows written (c :: cs) pos place s) (hWide : IsWide c)
    (hBytes : ∀ byte ∈ String.utf8EncodeChar c, IsWide (charOf byte)) :
    Agrees text written (c :: cs) pos place s := by
  have hLength : byteLength (written ++ [c]) = pos + c.utf8Size := by
    rw [Text.byteLength_append, hs.length]
    rfl
  have hNext : Follows (written ++ [c]) cs (pos + c.utf8Size) place s := by
    refine ⟨hs.stands, ?_, hLength, Nat.le_add_right_of_le hs.resume⟩
    rw [hs.out, List.append_assoc, List.singleton_append]
  have hLater : Agrees text _ cs _ _ s := ih hShort h.tail hNext
  have hMask := maskStep_of_isWide hWide hs.stands (Markup.endsInEquals false written) pos cs
  rw [Agrees, ← maskEndsInEquals_append] at hLater
  rw [Agrees, toBytes_cons, go_wide hs.stands hs.resume hBytes, String.length_utf8EncodeChar,
    hLater, mask_go_single hMask, List.append_assoc, List.singleton_append]

theorem blank_piece (hs : Follows written (piece ++ rest) pos place s) :
    blank s.out pos (pos + byteLength piece) =
      some (toBytes (written ++ Markup.blank piece ++ rest)) := by
  rw [hs.out, ← hs.length, ← length_toBytes, ← length_toBytes, toBytes_append, toBytes_append,
    blank_append, List.append_assoc, toBytes_append, toBytes_append, toBytes_blank]

theorem blankInTag_piece (hs : Follows written (piece ++ rest) pos place s) :
    blankInTag s.out pos (pos + byteLength piece) = some (toBytes (written ++
      (if Markup.endsInEquals false written then blankValue piece else Markup.blank piece) ++
      rest)) := by
  have hBefore : s.out.take pos = toBytes written := by
    rw [hs.out, toBytes_append, ← hs.length, ← length_toBytes, List.take_left]
  rw [blankInTag, blank_piece hs, hBefore, endsInEquals_toBytes, Nat.add_sub_cancel_left]
  cases hValue : Markup.endsInEquals false written with
  | false => rfl
  | true =>
    by_cases hLong : 2 ≤ byteLength piece
    · have hLength : ((toBytes piece).map blankByte).length = byteLength piece := by
        rw [List.length_map, length_toBytes]
      have hFirst := put_append (toBytes written) (toBytes rest)
        (show 0 < ((toBytes piece).map blankByte).length by omega) '"'
      have hLast := put_append (toBytes written) (toBytes rest)
        (show byteLength piece - 1 < (((toBytes piece).map blankByte).set 0 '"'.toUInt8).length by
          rw [List.length_set]
          omega) '"'
      rw [length_toBytes, hs.length] at hFirst hLast
      rw [Nat.add_zero] at hFirst
      rw [← Nat.add_sub_assoc (by omega)] at hLast
      simp only [List.append_assoc, toBytes_append, toBytes_blank, toBytes_blankValue, hLong,
        if_true, Bool.true_and, decide_true, Option.bind_eq_bind, Option.bind_some, hFirst, hLast]
    · simp only [List.append_assoc, toBytes_append, toBytes_blank, toBytes_blankValue, hLong,
        if_true, if_false, Bool.true_and, decide_false, Option.bind_eq_bind, Option.bind_some]
      rfl

/-- An offset that is looked for, or the end of the template, is where `upTo` stops. -/
theorem getD_of_upTo {stop : Option Nat} {behind : Nat} (h : RestAt text pos cs)
    (hUpTo : upTo stop pos cs = (piece, behind)) : stop.getD (byteLength text) = behind := by
  rw [← h.add_byteLength]
  exact congrArg Prod.snd hUpTo

theorem getD_expressionEnd? (h : RestAt text pos (c :: cs))
    (hBytes : toBytes (c :: cs) = byte :: toBytes cs) {behind : Nat}
    (hUpTo : upTo (expressionEnd? pos (c :: cs)) pos (c :: cs) = (piece, behind)) :
    (ByteScanner.expressionEnd? pos (byte :: toBytes cs)).getD (byteLength text) = behind := by
  rw [← hBytes, ByteScanner.expressionEnd?_bytes]
  exact getD_of_upTo h hUpTo

/-! ### Steps at an ASCII character -/

section

variable (ih : AgreesBelow text n) (hShort : cs.length < n) (h : RestAt text pos (c :: cs))
  (hs : Follows written (c :: cs) pos place s) (hSize : c.utf8Size = 1)
  (hBytes : toBytes (c :: cs) = byte :: toBytes cs) (hChar : charOf byte = c)

include ih hShort h hs hSize hBytes

/-- Both accounts agree when one step of each leads to where they agree. -/
theorem agrees_of_step {masked : Masked} (hCut : cs = piece ++ rest)
    (hStep : step text s pos byte (toBytes cs) = some next)
    (hMask : maskStep place (Markup.endsInEquals false written) pos c cs = masked)
    (hCovers : masked.Covers pos c piece) (hStands : next.StandsIn masked.place)
    (hOut : next.out = toBytes (written ++ masked.written ++ rest))
    (hResume : piece = [] ∧ next.resume ≤ pos ∨ next.resume = pos + byteLength (c :: piece)) :
    Agrees text written (c :: cs) pos place s := by
  subst hCut
  have hRest : RestAt text pos (c :: piece ++ rest) := h
  have hWritten := hCovers.1.byteLength_eq (by decide)
  have hBehind : next.resume ≤ pos + byteLength (c :: piece) := by
    rcases hResume with ⟨-, hLe⟩ | hEq
    · omega
    · exact Nat.le_of_eq hEq
  have hNext : Follows (written ++ masked.written) rest (pos + byteLength (c :: piece))
      masked.place next :=
    ⟨hStands, hOut, by rw [Text.byteLength_append, hWritten, hs.length], hBehind⟩
  have hPass : go text next (pos + 1) (toBytes (piece ++ rest)) =
      go text next (pos + byteLength (c :: piece)) (toBytes rest) := by
    rw [Text.byteLength_cons, hSize] at hResume ⊢
    rw [toBytes_append]
    rcases hResume with ⟨rfl, -⟩ | hEq
    · rfl
    · rw [go_skip (by rw [length_toBytes]; omega), length_toBytes, Nat.add_assoc]
  rw [List.length_append] at hShort
  have hLater : Agrees text _ rest _ _ next := ih (by omega) hRest.append hNext
  rw [Agrees, ← maskEndsInEquals_append] at hLater
  rw [Agrees, hBytes, go, if_neg (Nat.not_lt.mpr hs.resume), hStep, Option.bind_some, hPass, hLater,
    mask_go_step hMask hCovers, List.append_assoc]

/-- A step that keeps the character. -/
theorem agrees_of_keep (later : Place) (hStep : step text s pos byte (toBytes cs) = some next)
    (hMask : maskStep place (Markup.endsInEquals false written) pos c cs = ⟨[c], 0, later⟩)
    (hStands : next.StandsIn later) (hOut : next.out = s.out) (hResume : next.resume = s.resume) :
    Agrees text written (c :: cs) pos place s := by
  apply agrees_of_step ih hShort h hs hSize hBytes (List.nil_append cs).symm hStep hMask
    (covers_single pos c later) hStands
  · rw [hOut, hs.out, List.append_assoc, List.singleton_append]
  · exact .inl ⟨rfl, by rw [hResume]; exact hs.resume⟩

include hChar

theorem agrees_quoted {quote : Char} (hPlace : place = .quoted quote) :
    Agrees text written (c :: cs) pos place s := by
  subst hPlace
  obtain ⟨hTag, hQuote, hOwn⟩ := hs.stands
  by_cases hClose : c = quote
  · have hStep : step text s pos byte (toBytes cs) = some { s with quote := none } := by
      simp [step, hQuote, hChar, hClose]
    apply agrees_of_keep ih hShort h hs hSize hBytes .tag hStep
    · simp [maskStep, hClose]
    · exact ⟨hTag, rfl⟩
    · rfl
    · rfl
  · have hStep : step text s pos byte (toBytes cs) = some s := by
      simp [step, hQuote, hChar, hClose]
    apply agrees_of_keep ih hShort h hs hSize hBytes (.quoted quote) hStep
    · simp [maskStep, hClose]
    · exact hs.stands
    · rfl
    · rfl

theorem agrees_tag (hPlace : place = .tag) : Agrees text written (c :: cs) pos place s := by
  subst hPlace
  obtain ⟨hTag, hQuote⟩ := hs.stands
  have hStep : step text s pos byte (toBytes cs) = tagStep text s pos byte (toBytes cs) := by
    rw [step, hQuote, hTag]
    rfl
  rw [tagStep, hChar] at hStep
  by_cases hQuoted : isQuote c = true
  · rw [if_pos hQuoted] at hStep
    apply agrees_of_keep ih hShort h hs hSize hBytes (.quoted c) hStep
    · rw [maskStep, maskTag, if_pos hQuoted]
    · exact ⟨hTag, rfl, hQuoted⟩
    · rfl
    · rfl
  · rw [if_neg hQuoted] at hStep
    by_cases hClose : (c == '>') = true
    · rw [if_pos hClose] at hStep
      apply agrees_of_keep ih hShort h hs hSize hBytes .content hStep
      · rw [maskStep, maskTag, if_neg hQuoted, if_pos hClose]
      · exact ⟨rfl, hQuote⟩
      · rfl
      · rfl
    · rw [if_neg hClose] at hStep
      by_cases hBrace : (c == '{') = true
      · obtain ⟨front, rest, hCut, hUpTo⟩ := exists_upTo_expression h
        have hWhole : Follows written (c :: front ++ rest) pos .tag s := by
          rw [List.cons_append, ← hCut]
          exact hs
        have hStop := getD_expressionEnd? h hBytes hUpTo
        have hBlank := blankInTag_piece hWhole
        simp only [if_pos hBrace, hStop, hBlank, Option.map_some] at hStep
        apply agrees_of_step ih hShort h hs hSize hBytes hCut hStep ?_
          (covers_expression _ pos c front .tag)
        · exact ⟨hTag, hQuote⟩
        · rfl
        · exact .inr rfl
        · simp only [maskStep, maskTag, if_neg hQuoted, if_neg hClose, if_pos hBrace, hUpTo]
      · rw [if_neg hBrace] at hStep
        apply agrees_of_keep ih hShort h hs hSize hBytes .tag hStep
        · rw [maskStep, maskTag, if_neg hQuoted, if_neg hClose, if_neg hBrace]
        · exact hs.stands
        · rfl
        · rfl

end

/-! ### Names -/

/-- What the mask writes for a character of a name. -/
def dashed (c : Char) : Char := if c == '.' then '-' else c

theorem toNat_of_isNameChar (h : isNameChar c = true) : c.toNat < 128 := by
  simp only [isNameChar, Text.isAsciiWord, Bool.or_eq_true, beq_iff_eq] at h
  rcases h with (rfl | hLetter | rfl) | rfl
  · decide
  · exact Text.toNat_of_isAsciiAlphanumeric hLetter
  · decide
  · decide

theorem utf8Size_of_isNameChar (h : isNameChar c = true) : c.utf8Size = 1 := by
  have hCode := toNat_of_isNameChar h
  rw [Char.utf8Size_eq_one_iff, UInt32.le_iff_toNat_le]
  exact Nat.le_of_lt_succ hCode

theorem utf8Size_dashed (h : isNameChar c = true) : (dashed c).utf8Size = 1 := by
  rw [dashed]
  split
  · rfl
  · exact utf8Size_of_isNameChar h

theorem mask_go_name {run : List Char} (hRun : ∀ c ∈ run, isNameChar c = true)
    (hStop : ∀ c ∈ rest.head?, isNameChar c = false) (isValue : Bool) (pos : Nat) :
    mask.go .name isValue 0 pos (run ++ rest) =
      run.map dashed ++ mask.go .tag (Markup.endsInEquals isValue (run.map dashed)) 0
        (pos + byteLength run) rest := by
  induction run generalizing pos isValue with
  | nil =>
    cases rest with
    | nil => rfl
    | cons d rest =>
      have hOther := hStop d rfl
      simp only [isNameChar, Bool.or_eq_false_iff] at hOther
      have hMask : maskStep .name isValue pos d rest = maskStep .tag isValue pos d rest := by
        simp [maskStep, hOther]
      exact mask_go_congr hMask
  | cons c run ih =>
    obtain ⟨hOwn, hLater⟩ := List.forall_mem_cons.mp hRun
    have hMask : maskStep .name isValue pos c (run ++ rest) = ⟨[dashed c], 0, .name⟩ := by
      by_cases hDot : c = '.'
      · rw [hDot]
        rfl
      · have hRest : (Text.isAsciiWord c || c == '-') = true := by
          simpa [isNameChar, hDot] using hOwn
        have hOther : ¬(c == '.') = true := by simpa using hDot
        rw [maskStep, if_neg hOther, if_pos hRest, dashed, if_neg hOther]
    rw [List.cons_append, mask_go_single hMask, ih hLater, maskEndsInEquals_append,
      Text.byteLength_cons, Nat.add_assoc]
    rfl

theorem put_char {mark : Char} (hSize : c.utf8Size = 1) (hMark : mark.utf8Size = 1)
    (hLength : byteLength written = pos) (cs : List Char) :
    put (toBytes (written ++ c :: cs)) pos mark = some (toBytes (written ++ mark :: cs)) := by
  have hPut := put_append (toBytes written) (toBytes cs)
    (show 0 < [c.toUInt8].length from Nat.zero_lt_one) mark
  rw [length_toBytes, hLength, Nat.add_zero] at hPut
  rw [toBytes_append, toBytes_append, toBytes_cons_of_utf8Size hSize,
    toBytes_cons_of_utf8Size hMark, ← List.singleton_append, hPut]
  rfl

theorem putDashes_eq {run : List Char} (hRun : ∀ c ∈ run, isNameChar c = true)
    (hStop : ∀ c ∈ rest.head?, isNameChar c = false) (hLength : byteLength written = pos) :
    putDashes (toBytes (written ++ (run ++ rest))) pos (toBytes (run ++ rest)) =
      some (toBytes (written ++ (run.map dashed ++ rest))) := by
  induction run generalizing written pos with
  | nil =>
    cases rest with
    | nil => rfl
    | cons d rest =>
      have hOther := hStop d rfl
      have hByte : ∀ byte, isNameChar (charOf byte) = false → ∀ bytes,
          putDashes (toBytes (written ++ d :: rest)) pos (byte :: bytes) =
            some (toBytes (written ++ d :: rest)) := by
        intro byte hByte bytes
        have hDot : charOf byte ≠ '.' := by
          intro hDot
          rw [hDot] at hByte
          cases hByte
        simp [putDashes, hDot, hByte]
      rw [List.nil_append]
      rcases toBytes_cons_cases d rest with ⟨-, byte, hBytes, rfl⟩ |
        ⟨-, byte, bytes, hBytes, -, hWide, -⟩
      · rw [hBytes]
        exact hByte byte hOther _
      · rw [hBytes]
        apply hByte byte
        rw [← Bool.not_eq_true]
        exact fun hName => absurd (toNat_of_isNameChar hName) (Nat.not_lt.mpr hWide)
  | cons c run ih =>
    obtain ⟨hOwn, hLater⟩ := List.forall_mem_cons.mp hRun
    have hSize := utf8Size_of_isNameChar hOwn
    have hChar : charOf c.toUInt8 = c := ByteScanner.charOf_of_utf8Size hSize
    have hDashed : byteLength (written ++ [dashed c]) = pos + 1 := by
      rw [Text.byteLength_append, hLength, Text.byteLength_cons, utf8Size_dashed hOwn]
      rfl
    have hNext := ih hLater hDashed
    rw [List.append_assoc, List.append_assoc] at hNext
    rw [List.cons_append, toBytes_cons_of_utf8Size hSize, putDashes, hChar, List.map_cons]
    by_cases hDot : (c == '.') = true
    · rw [dashed, if_pos hDot] at hNext ⊢
      rw [if_pos hDot, put_char hSize rfl hLength, Option.bind_some]
      exact hNext
    · rw [dashed, if_neg hDot] at hNext ⊢
      rw [if_neg hDot, if_pos hOwn]
      exact hNext

/-- What is passed over inside a tag, since nothing in a name ends it. -/
theorem go_name {run : List Char} (hRun : ∀ c ∈ run, isNameChar c = true)
    (hTag : s.inTag = true) (hQuote : s.quote = none) (hResume : s.resume ≤ pos)
    (rest : List Char) :
    go text s pos (toBytes (run ++ rest)) = go text s (pos + byteLength run) (toBytes rest) := by
  rw [toBytes_append, ← length_toBytes]
  apply go_still hResume
  intro byte hByte pos later
  rw [toBytes_of_utf8Size fun c hMem => utf8Size_of_isNameChar (hRun c hMem)] at hByte
  obtain ⟨c, hMem, rfl⟩ := List.mem_map.mp hByte
  have hName := hRun c hMem
  have hChar : charOf c.toUInt8 = c := ByteScanner.charOf_of_utf8Size (utf8Size_of_isNameChar hName)
  have hNe (d : Char) (hd : isNameChar d = false) : c ≠ d := by
    rintro rfl
    rw [hName] at hd
    cases hd
  simp [step, hQuote, hTag, tagStep, hChar, isQuote, hNe '"' rfl, hNe '\'' rfl, hNe '>' rfl,
    hNe '{' rfl]

/-- Behind the beginning of a tag the loop is led to where the reader of characters is. -/
def AgreesOnName (text written cs : List Char) (pos : Nat) (s : State) : Prop :=
  ∃ next, nameStep s pos (toBytes cs) = some next ∧ next.resume = pos ∧
    go text next pos (toBytes cs) = some (toBytes (written ++
      mask.go .slashed (Markup.endsInEquals false written) 0 pos cs))

section

variable (ih : AgreesBelow text n) (h : RestAt text pos (c :: cs))
  (hs : Follows written (c :: cs) pos .content s)

include ih h hs

theorem agreesOnName_mark (hShort : cs.length < n) (hMark : (c == '.' || c == ':') = true) :
    AgreesOnName text written (c :: cs) pos s := by
  have hSize : c.utf8Size = 1 := by
    rw [Bool.or_eq_true, beq_iff_eq, beq_iff_eq] at hMark
    rcases hMark with rfl | rfl
    · rfl
    · rfl
  have hChar : charOf c.toUInt8 = c := ByteScanner.charOf_of_utf8Size hSize
  have hMask : maskStep .slashed (Markup.endsInEquals false written) pos c cs =
      ⟨['x'], 0, .tag⟩ := by
    rw [maskStep, maskName, if_pos hMark]
  have hLength : byteLength (written ++ ['x']) = pos + c.utf8Size := by
    rw [Text.byteLength_append, hs.length, hSize]
    rfl
  -- The mark is written before the loop reads it, but the loop reads the template: the step on it
  -- is one inside a tag that changes nothing.
  let next : State :=
    { s with out := toBytes (written ++ 'x' :: cs), inTag := true, resume := pos }
  have hNext : Follows (written ++ ['x']) cs (pos + c.utf8Size) .tag next :=
    ⟨⟨rfl, hs.stands.2⟩, by rw [List.append_assoc]; rfl, hLength, Nat.le_add_right _ _⟩
  have hLater : Agrees text _ _ _ _ next := ih hShort h.tail hNext
  have hStep : step text next pos c.toUInt8 (toBytes cs) = some next := by
    have hQuote : next.quote = none := hs.stands.2
    have hTag : next.inTag = true := rfl
    rw [Bool.or_eq_true, beq_iff_eq, beq_iff_eq] at hMark
    rcases hMark with rfl | rfl
    · simp [step, hQuote, hTag, tagStep, hChar, isQuote]
    · simp [step, hQuote, hTag, tagStep, hChar, isQuote]
  refine ⟨next, ?_, rfl, ?_⟩
  · rw [toBytes_cons_of_utf8Size hSize, nameStep, hChar, if_pos hMark, hs.out,
      put_char hSize rfl hs.length]
    rfl
  · rw [Agrees, ← maskEndsInEquals_append, List.append_assoc, hSize] at hLater
    rw [toBytes_cons_of_utf8Size hSize, go, if_neg (Nat.lt_irrefl pos), hStep, Option.bind_some,
      hLater, mask_go_single hMask, hSize]
    rfl

theorem agreesOnName_letter (hShort : (c :: cs).length < n)
    (hMark : ¬(c == '.' || c == ':') = true) (hLetter : Text.isAsciiLetter c = true) :
    AgreesOnName text written (c :: cs) pos s := by
  have hWord : Text.isAsciiWord c = true := by
    rw [Text.isAsciiWord, Text.isAsciiAlphanumeric, hLetter]
    rfl
  have hName : isNameChar c = true := by simp [isNameChar, hWord]
  have hSize := utf8Size_of_isNameChar hName
  have hChar : charOf c.toUInt8 = c := ByteScanner.charOf_of_utf8Size hSize
  have hMask : maskStep .slashed (Markup.endsInEquals false written) pos c cs =
      maskStep .name (Markup.endsInEquals false written) pos c cs := by
    rw [Bool.or_eq_true, not_or] at hMark
    simp [maskStep, maskName, hMark, hLetter, hWord]
  obtain ⟨run, rest, hCut, hRun, hStop⟩ : ∃ run rest, cs = run ++ rest ∧
      (∀ c ∈ run, isNameChar c = true) ∧ ∀ c ∈ rest.head?, isNameChar c = false := by
    refine ⟨_, _, List.takeWhile_append_dropWhile.symm, fun c => List.mem_takeWhile_imp, ?_⟩
    intro d hMem
    have hNot := List.head?_dropWhile_not isNameChar cs
    rw [hMem] at hNot
    exact hNot
  subst hCut
  -- All dots of the name are replaced at once, and the loop goes over the name afterwards.
  have hWhole : ∀ d ∈ c :: run, isNameChar d = true := List.forall_mem_cons.mpr ⟨hName, hRun⟩
  have hDashed : byteLength ((c :: run).map dashed) = byteLength (c :: run) := by
    rw [byteLength_of_utf8Size, byteLength_of_utf8Size, List.length_map]
    · exact fun d hMem => utf8Size_of_isNameChar (hWhole d hMem)
    · intro d hMem
      obtain ⟨e, hOwn, rfl⟩ := List.mem_map.mp hMem
      exact utf8Size_dashed (hWhole e hOwn)
  let next : State :=
    { s with
      out := toBytes (written ++ ((c :: run).map dashed ++ rest)), inTag := true, resume := pos }
  have hRest : RestAt text pos ((c :: run) ++ rest) := h
  have hNext : Follows (written ++ (c :: run).map dashed) rest (pos + byteLength (c :: run)) .tag
      next := by
    refine ⟨⟨rfl, hs.stands.2⟩, by rw [List.append_assoc], ?_, Nat.le_add_right _ _⟩
    rw [Text.byteLength_append, hs.length, hDashed]
  rw [List.length_cons, List.length_append] at hShort
  have hLater : Agrees text _ _ _ _ next := ih (by omega) hRest.append hNext
  refine ⟨next, ?_, rfl, ?_⟩
  · have hPut := putDashes_eq hWhole hStop hs.length
    rw [List.cons_append, toBytes_cons_of_utf8Size hSize] at hPut
    rw [toBytes_cons_of_utf8Size hSize, nameStep, hChar, if_neg hMark, if_pos hLetter, hs.out, hPut]
    rfl
  · have hTag : next.inTag = true := rfl
    have hQuote : next.quote = none := hs.stands.2
    have hPass : go text next pos (toBytes (c :: run ++ rest)) =
        go text next (pos + byteLength (c :: run)) (toBytes rest) :=
      go_name hWhole hTag hQuote (Nat.le_refl pos) rest
    have hMasked := mask_go_name hWhole hStop (Markup.endsInEquals false written) pos
    rw [List.cons_append] at hPass hMasked
    rw [Agrees, ← maskEndsInEquals_append, List.append_assoc] at hLater
    rw [mask_go_congr hMask, hMasked, hPass, hLater]

theorem agreesOnName_content (hShort : (c :: cs).length < n)
    (hName : maskName pos c cs = maskContent pos c cs)
    (hStep : nameStep s pos (toBytes (c :: cs)) = some { s with resume := pos }) :
    AgreesOnName text written (c :: cs) pos s := by
  refine ⟨_, hStep, rfl, ?_⟩
  have hHere : Follows written (c :: cs) pos .content { s with resume := pos } :=
    ⟨hs.stands, hs.out, hs.length, Nat.le_refl pos⟩
  have hAgrees : Agrees text _ _ _ _ _ := ih hShort h hHere
  have hMask : maskStep .slashed (Markup.endsInEquals false written) pos c cs =
      maskStep .content (Markup.endsInEquals false written) pos c cs := hName
  rw [mask_go_congr hMask]
  exact hAgrees

end

theorem agreesOnName (ih : AgreesBelow text n) (hShort : cs.length < n) (h : RestAt text pos cs)
    (hs : Follows written cs pos .content s) : AgreesOnName text written cs pos s := by
  cases cs with
  | nil => exact ⟨{ s with resume := pos }, rfl, rfl, congrArg some hs.out⟩
  | cons c cs =>
    by_cases hMark : (c == '.' || c == ':') = true
    · exact agreesOnName_mark ih h hs (Nat.lt_of_succ_lt hShort) hMark
    · by_cases hLetter : Text.isAsciiLetter c = true
      · exact agreesOnName_letter ih h hs hShort hMark hLetter
      · apply agreesOnName_content ih h hs hShort
        · rw [maskName, if_neg hMark, if_neg hLetter]
        · rcases toBytes_cons_cases c cs with ⟨-, byte, hBytes, rfl⟩ |
            ⟨-, byte, bytes, hBytes, -, hWide, -⟩
          · rw [hBytes, nameStep, if_neg hMark, if_neg hLetter]
          · have hOther : Text.isAsciiLetter (charOf byte) = false := by
              rw [← Bool.not_eq_true]
              intro hLetter
              apply absurd (toNat_of_isNameChar _) (Nat.not_lt.mpr hWide)
              simp [isNameChar, Text.isAsciiWord, Text.isAsciiAlphanumeric, hLetter]
            simp [hBytes, nameStep, hOther, ne_of_isWide hWide]

/-! ### Content -/

theorem mask_go_slash {isValue : Bool}
    (hMask : maskStep .content isValue pos '<' ('/' :: cs) = ⟨['<'], 0, .opened⟩) :
    mask.go .content isValue 0 pos ('<' :: '/' :: cs) =
      ['<', '/'] ++ mask.go .slashed (Markup.endsInEquals isValue ['<', '/']) 0 (pos + 2) cs := by
  have hSlash : maskStep .opened (Markup.endsInEquals isValue ['<']) (pos + 1) '/' cs =
      ⟨['/'], 0, .slashed⟩ := rfl
  have hBoth := maskEndsInEquals_append isValue ['<'] ['/']
  have hFirst := mask_go_single hMask
  have hSecond := mask_go_single hSlash
  rw [hBoth] at hSecond
  exact hFirst.trans (congrArg (List.cons '<') hSecond)

theorem mask_go_angle {isValue : Bool}
    (hMask : maskStep .content isValue pos '<' cs = ⟨['<'], 0, .opened⟩)
    (hSlash : ∀ d ∈ cs.head?, d ≠ '/') :
    mask.go .content isValue 0 pos ('<' :: cs) =
      ['<'] ++ mask.go .slashed (Markup.endsInEquals isValue ['<']) 0 (pos + 1) cs := by
  have hFirst := mask_go_single hMask
  cases cs with
  | nil => exact hFirst
  | cons d cs =>
    have hOther : (d == '/') = false := by simpa using hSlash d rfl
    have hStep : maskStep .opened (Markup.endsInEquals isValue ['<']) (pos + 1) d cs =
        maskStep .slashed (Markup.endsInEquals isValue ['<']) (pos + 1) d cs := by
      simp [maskStep, hOther]
    exact hFirst.trans (congrArg (List.cons '<') (mask_go_congr hStep))

section

variable (ih : AgreesBelow text n) (h : RestAt text pos ('<' :: cs))
  (hs : Follows written ('<' :: cs) pos .content s) (hShort : cs.length < n)

include ih h hs hShort

/-- The name of a tag is looked for behind the `<`, or behind a slash that follows. -/
theorem agrees_angle (front : List Char) {rest : List Char} (hCut : cs = front ++ rest)
    (hStep : step text s pos '<'.toUInt8 (toBytes cs) =
      nameStep s (pos + byteLength ('<' :: front)) (toBytes rest))
    (hMask : mask.go .content (Markup.endsInEquals false written) 0 pos ('<' :: cs) =
      '<' :: front ++ mask.go .slashed
        (Markup.endsInEquals (Markup.endsInEquals false written) ('<' :: front)) 0
        (pos + byteLength ('<' :: front)) rest) :
    Agrees text written ('<' :: cs) pos .content s := by
  subst hCut
  have hRest : RestAt text pos ('<' :: front ++ rest) := h
  have hNext : Follows (written ++ '<' :: front) rest (pos + byteLength ('<' :: front)) .content
      s := by
    refine ⟨hs.stands, ?_, ?_, Nat.le_add_right_of_le hs.resume⟩
    · rw [hs.out, List.append_assoc]
      rfl
    · rw [Text.byteLength_append, hs.length]
  rw [List.length_append] at hShort
  obtain ⟨next, hName, hResume, hGo⟩ := agreesOnName ih (by omega) hRest.append hNext
  have hPass : go text next (pos + 1) (toBytes (front ++ rest)) =
      go text next (pos + byteLength ('<' :: front)) (toBytes rest) := by
    have hSize : '<'.utf8Size = 1 := rfl
    rw [Text.byteLength_cons, hSize] at hResume ⊢
    rw [toBytes_append, go_skip (by rw [length_toBytes]; omega), length_toBytes, Nat.add_assoc]
  rw [Agrees, toBytes_cons_of_utf8Size rfl, go, if_neg (Nat.not_lt.mpr hs.resume), hStep, hName,
    Option.bind_some, hPass, hGo, hMask, maskEndsInEquals_append, List.append_assoc]

theorem agrees_opening : Agrees text written ('<' :: cs) pos .content s := by
  obtain ⟨hContent, hQuote⟩ := hs.stands
  have hBytes := toBytes_cons_of_utf8Size (c := '<') rfl cs
  have hStep : step text s pos '<'.toUInt8 (toBytes cs) = angleStep text s pos (toBytes cs) := by
    rw [step, hQuote, hContent]
    rfl
  rw [angleStep, from?_eq h, Option.bind_some] at hStep
  by_cases hCode : Text.startsWith "<%" ('<' :: cs) = true
  · obtain ⟨front, rest, hCut, hUpTo⟩ := exists_upTo_piece h '%' ['>']
    have hLength : byteLength ['%', '>'] = 2 := rfl
    rw [hLength] at hUpTo
    have hWhole : Follows written ('<' :: front ++ rest) pos .content s := by
      rw [List.cons_append, ← hCut]
      exact hs
    have hBlank := blank_piece hWhole
    simp only [if_pos hCode, getD_of_upTo h hUpTo, hBlank, Option.map_some] at hStep
    apply agrees_of_step ih hShort h hs rfl hBytes hCut hStep ?_
      (covers_blank pos '<' front .content)
    · exact ⟨hContent, hQuote⟩
    · rfl
    · exact .inr rfl
    · simp only [maskStep, maskContent, if_pos hCode, hUpTo]
  · rw [if_neg hCode] at hStep
    by_cases hComment : Text.startsWith "<!--" ('<' :: cs) = true
    · obtain ⟨front, rest, hCut, hUpTo⟩ := exists_upTo_piece h '-' ['-', '>']
      have hLength : byteLength ['-', '-', '>'] = 3 := rfl
      rw [hLength] at hUpTo
      simp only [if_pos hComment, getD_of_upTo h hUpTo] at hStep
      have hCovers : Masked.Covers ⟨'<' :: front, pos + byteLength ('<' :: front), .content⟩ pos '<'
          front := ⟨.refl _ _, .inr rfl⟩
      apply agrees_of_step ih hShort h hs rfl hBytes hCut hStep ?_ hCovers
      · exact ⟨hContent, hQuote⟩
      · rw [hs.out, hCut, List.append_assoc, List.cons_append]
      · exact .inr rfl
      · simp only [maskStep, maskContent, if_neg hCode, if_pos hComment, hUpTo]
    · rw [if_neg hComment] at hStep
      have hMask : maskContent pos '<' cs = ⟨['<'], 0, .opened⟩ := by
        rw [maskContent, if_neg hCode, if_neg hComment]
        rfl
      by_cases hSlash : ∃ rest, cs = '/' :: rest
      · obtain ⟨rest, rfl⟩ := hSlash
        have hBehind := toBytes_cons_of_utf8Size (c := '/') rfl rest
        have hHead : charOf '/'.toUInt8 = '/' := ByteScanner.charOf_of_utf8Size rfl
        simp only [hBehind, List.head?_cons, Option.any_some, hHead, beq_self_eq_true, if_true,
          List.tail_cons] at hStep
        rw [← hBehind] at hStep
        exact agrees_angle ih h hs hShort ['/'] rfl hStep (mask_go_slash hMask)
      · have hOther : ∀ d ∈ cs.head?, d ≠ '/' := by
          rintro d hMem rfl
          exact hSlash ⟨_, List.eq_cons_of_mem_head? hMem⟩
        have hHead : (toBytes cs).head?.any (charOf · == '/') = false := by
          cases cs with
          | nil => rfl
          | cons d cs =>
            have hNe := hOther d rfl
            rcases toBytes_cons_cases d cs with ⟨-, byte, hOwn, rfl⟩ |
              ⟨-, byte, bytes, hOwn, -, hWide, -⟩
            · simp [hOwn, hNe]
            · simp [hOwn, ne_of_isWide hWide]
        rw [hHead] at hStep
        exact agrees_angle ih h hs hShort [] rfl hStep (mask_go_angle hMask hOther)

end

theorem agrees_content (ih : AgreesBelow text n) (hShort : cs.length < n)
    (h : RestAt text pos (c :: cs)) (hs : Follows written (c :: cs) pos .content s)
    (hSize : c.utf8Size = 1) : Agrees text written (c :: cs) pos .content s := by
  by_cases hAngle : c = '<'
  · subst hAngle
    exact agrees_opening ih h hs hShort
  · obtain ⟨hContent, hQuote⟩ := hs.stands
    have hBytes := toBytes_cons_of_utf8Size hSize cs
    have hChar : charOf c.toUInt8 = c := ByteScanner.charOf_of_utf8Size hSize
    have hStep : step text s pos c.toUInt8 (toBytes cs) =
        contentStep text s pos c.toUInt8 (toBytes cs) := by
      rw [step, hQuote, hContent]
      rfl
    rw [contentStep, hChar, if_neg (by simpa using hAngle)] at hStep
    by_cases hBrace : c = '{'
    · subst hBrace
      obtain ⟨front, rest, hCut, hUpTo⟩ := exists_upTo_expression h
      have hWhole : Follows written ('{' :: front ++ rest) pos .content s := by
        rw [List.cons_append, ← hCut]
        exact hs
      have hStop := getD_expressionEnd? h hBytes hUpTo
      have hBlank := blank_piece hWhole
      simp only [beq_self_eq_true, if_true, hStop, hBlank, Option.map_some] at hStep
      apply agrees_of_step ih hShort h hs rfl hBytes hCut hStep ?_
        (covers_blank pos '{' front .content)
      · exact ⟨hContent, hQuote⟩
      · rfl
      · exact .inr rfl
      · rw [maskStep, maskContent_of_ne_angle hAngle, hUpTo]
        rfl
    · rw [if_neg (by simpa using hBrace)] at hStep
      apply agrees_of_keep ih hShort h hs hSize hBytes .content hStep
        (maskContent_of_ne hAngle hBrace pos cs)
      · exact ⟨hContent, hQuote⟩
      · rfl
      · rfl

/-! ### The whole template -/

theorem agreesBelow (text : List Char) (n : Nat) : AgreesBelow text n := by
  -- On the length of the rest, since a step may pass over more than one character.
  induction n with
  | zero => intro written cs pos place s hShort; exact absurd hShort (Nat.not_lt_zero _)
  | succ n ih =>
    intro written cs pos place s hShort h hs
    cases cs with
    | nil => exact congrArg some hs.out
    | cons c cs =>
      have hLater : cs.length < n := Nat.lt_of_succ_lt_succ hShort
      rcases utf8EncodeChar_cases c with ⟨hSize, -, hChar⟩ | ⟨hWide, -, hBytes⟩
      · have hOwn := toBytes_cons_of_utf8Size hSize cs
        cases place with
        | content => exact agrees_content ih hLater h hs hSize
        | tag => exact agrees_tag ih hLater h hs hSize hOwn hChar rfl
        | quoted quote => exact agrees_quoted ih hLater h hs hSize hOwn hChar rfl
        | opened => cases hs.stands
        | slashed => cases hs.stands
        | name => cases hs.stands
      · exact agrees_of_isWide ih hLater h hs hWide hBytes

/-- The loop never fails, and the bytes that it leaves are those of the mask. -/
theorem mask_eq (text : List Char) : mask text = some (toBytes (Markup.mask text)) := by
  have hStart : Follows [] text 0 .content { out := toBytes text } :=
    ⟨⟨rfl, rfl⟩, rfl, rfl, Nat.le_refl 0⟩
  exact agreesBelow text (text.length + 1) (Nat.lt_succ_self _) (.self text) hStart

end PhoenixLens.Markup.ByteMask
