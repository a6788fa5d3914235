import PhoenixLens.Exact.Shell.Commands

/-!
# Expanded words

The characters of a word whose parts have been expanded, with what is to be known to cut it into
fields and to find the paths that it stands for.
-/

namespace PhoenixLens.Shell

/-- Where a character of an expanded word comes from. -/
inductive Origin where
  | quoted
  | written
  /-- It comes from a variable or a command, so that blanks cut the word. -/
  | expanded
deriving DecidableEq, Repr

/-- An expanded word: its characters, and `none` where it is cut in any case. -/
abbrev Pieces := List (Option (Char × Origin))

def pieces (origin : Origin) (cs : List Char) : Pieces := cs.map fun c => some (c, origin)

/-- The text of an expanded word that is not cut. -/
def Pieces.text (ps : Pieces) : List Char :=
  ps.map fun
    | some (c, _) => c
    | none => ' '

def Pieces.pattern (ps : Pieces) : List PatternItem :=
  patternOf (ps.length + 1) (ps.map fun
    | some (c, origin) => (c, origin == .quoted)
    | none => (' ', true))

/-- What is wrong with an expression that has no value. -/
def misreckoned (text : List Char) : List Char :=
  let last := text.reverse.dropWhile fun c => " \t\n".toList.contains c
  let token := (last.takeWhile Text.isAsciiWord).reverse
  let (problem, token) :=
    if token.isEmpty then ("syntax error: operand expected", last.take 1)
    else if (last.drop token.length).any fun c => c == '/' || c == '%' then
      ("division by 0", token)
    else ("syntax error in expression", token)
  text ++ (": " ++ problem ++ " (error token is \"").toList ++ token ++ "\")".toList

/-- Cuts an expanded word; `current` is the text since the last cut, if there is one to come. -/
def Pieces.fields (separators : List Char) (current : Option (List (Char × Origin))) :
    Pieces → List (List (Char × Origin))
  | [] => current.toList.map List.reverse
  | none :: ps => (current.getD []).reverse :: Pieces.fields separators (some []) ps
  | some (c, origin) :: ps =>
    if origin == .expanded && separators.contains c then
      current.toList.map List.reverse ++ Pieces.fields separators none ps
    else Pieces.fields separators (some ((c, origin) :: current.getD [])) ps

/-- The paths that a field with a pattern stands for, in order; if there are none it stands for
itself. -/
def pathsOf (state : State) (field : List (Char × Origin)) : List (List Char) :=
  let text := field.map (·.1)
  let isPattern := fun (cs : List (Char × Origin)) =>
    cs.any fun (c, origin) => origin != .quoted && "*?[".toList.contains c
  if !isPattern field then [text]
  else
    let name := (field.reverse.takeWhile (·.1 != '/')).reverse
    let before := field.take (field.length - name.length)
    let items := patternOf (name.length + 1) (name.map fun (c, origin) => (c, origin == .quoted))
    let names := ((state.disk.names? (state.path (before.map (·.1) ++ ['.']))).getD []).map byteText
    let found := names.filter fun n => fitsPattern items n && n.head? != some '.'
    if isPattern before || found.isEmpty then [text]
    else (found.mergeSort fun a b => !decide (b < a)).map (before.map (·.1) ++ ·)

/-- The numbers or letters that a word such as `\{1..5}` stands for. -/
def countedWords (cs : List Char) : Option (List (List Char)) := do
  if cs.head? != some '\x7b' || cs.getLast? != some '\x7d' then failure
  let (low, high) ← Text.cutAt? ['.', '.'] cs.tail.dropLast
  match integer? low, integer? high with
  | some low, some high =>
    let count := (high - low).natAbs + 1
    return (List.range count).map fun (i : Nat) =>
      digitsOf (if low ≤ high then low + i else low - i)
  | _, _ => failure

/-- The first part of a word assigns. -/
def assigned? (word : Word) : Option (String × Bool × Word) :=
  match word with
  | .literal text false :: parts =>
    (assignment? text).map fun (name, appends, value) =>
      (name, appends, .literal value false :: parts)
  | _ => none

/-- A part of a list from a place on, which counts from the end if it is negative; so does a
negative number of items, which says where the part ends. -/
def cutPart {α : Type} (first : Int) (count : Option Int) (items : List α) : List α :=
  let kept := items.drop (if first < 0 then items.length - first.natAbs else first.toNat)
  match count with
  | none => kept
  | some n => kept.take (if n < 0 then kept.length - n.natAbs else n.toNat)

end PhoenixLens.Shell
