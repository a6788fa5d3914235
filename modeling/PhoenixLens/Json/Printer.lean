import PhoenixLens.Json.Basic

/-!
# JSON as text

The compact form: no white space, members ordered by name with the last of several members of one
name kept, and only quotes, backslashes and control characters escaped.
-/

namespace PhoenixLens.Json

/-- The lower-case hexadecimal digit of a number below sixteen. -/
def hexDigit (n : Nat) : Char := if n < 10 then Char.ofNat (48 + n) else Char.ofNat (87 + n)

/-- A character as it stands inside a quoted string. -/
def escape (c : Char) : List Char :=
  match c with
  | '"' => ['\\', '"']
  | '\\' => ['\\', '\\']
  | '\n' => ['\\', 'n']
  | '\r' => ['\\', 'r']
  | '\t' => ['\\', 't']
  | '\x08' => ['\\', 'b']
  | '\x0c' => ['\\', 'f']
  | c =>
    if c.toNat < 0x20 then
      ['\\', 'u', '0', '0', hexDigit (c.toNat / 16), hexDigit (c.toNat % 16)]
    else [c]

def quote (s : String) : List Char := '"' :: s.toList.flatMap escape ++ ['"']

/-- Inserts a rendered member into members ordered by name, in place of one with its name. -/
def insertMember (name : String) (rendered : List Char) :
    List (String × List Char) → List (String × List Char)
  | [] => [(name, rendered)]
  | (key, value) :: rest =>
    if name < key then (name, rendered) :: (key, value) :: rest
    else if name == key then (name, rendered) :: rest
    else (key, value) :: insertMember name rendered rest

mutual

def render : Json → List Char
  | null | unreadable => "null".toList
  | bool true => "true".toList
  | bool false => "false".toList
  | int n => (toString n).toList
  | decimal literal => literal.toList
  | str s => quote s
  | arr items => '[' :: Text.join [','] (renderItems items) ++ [']']
  | obj members =>
    let ordered := (renderMembers members).foldl (fun l (k, v) => insertMember k v l) []
    '{' :: Text.join [','] (ordered.map fun (k, v) => quote k ++ ':' :: v) ++ ['}']

/-- The compact forms of the items of an array. -/
def renderItems : List Json → List (List Char)
  | [] => []
  | item :: items => render item :: renderItems items

/-- The compact forms of the values of members, with their names. -/
def renderMembers : List (String × Json) → List (String × List Char)
  | [] => []
  | (name, value) :: members => (name, render value) :: renderMembers members

end

def compact (value : Json) : String := String.ofList value.render

end PhoenixLens.Json
