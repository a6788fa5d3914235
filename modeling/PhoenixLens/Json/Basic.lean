import PhoenixLens.Text.Basic

/-!
# JSON values

A value keeps the members of an object in written order, repetitions included; `field?` looks a
member up as a reader of the finished value sees it, where the last of several members with one
name counts. Numbers are integers of 64 bits; any other number is kept as it was written. A text may
hold parts that are well formed but stand for no value, such as a number too great for a double;
they do no harm where a reader passes over them.
-/

namespace PhoenixLens

inductive Json where
  | null
  | bool (b : Bool)
  /-- An integer between the least signed and the greatest unsigned one of 64 bits. -/
  | int (n : Int)
  /-- Any other number, as written. -/
  | decimal (literal : String)
  | str (s : String)
  | arr (items : List Json)
  | obj (members : List (String × Json))
  /-- What is well formed but stands for no value. -/
  | unreadable

namespace Json

mutual

/-- No part of the value is unreadable. -/
def isReadable : Json → Bool
  | arr items => areReadable items
  | obj members => haveReadable members
  | unreadable => false
  | _ => true

/-- No part of the items is unreadable. -/
def areReadable : List Json → Bool
  | [] => true
  | item :: items => isReadable item && areReadable items

/-- No part of the values of the members is unreadable. -/
def haveReadable : List (String × Json) → Bool
  | [] => true
  | (_, value) :: members => isReadable value && haveReadable members

end

/-- The value of the last member with the given name. -/
def lookup (name : String) (members : List (String × Json)) : Option Json :=
  members.foldl (fun found (key, value) => if key == name then some value else found) none

/-- The value of a member, if the value is an object that has it. -/
def field? (name : String) : Json → Option Json
  | obj members => lookup name members
  | _ => none

mutual

/-- The value with the last of several members of one name only, at every depth. -/
def distinct : Json → Json
  | arr items => arr (distinctItems items)
  | obj members => obj (distinctMembers members)
  | value => value

/-- The items of an array, each without repeated members. -/
def distinctItems : List Json → List Json
  | [] => []
  | item :: items => distinct item :: distinctItems items

/-- The members that no later one repeats. -/
def distinctMembers : List (String × Json) → List (String × Json)
  | [] => []
  | (name, value) :: members =>
    let rest := distinctMembers members
    if rest.any fun m => m.1 == name then rest else (name, distinct value) :: rest

end

def nat (n : Nat) : Json := int n

def text (cs : List Char) : Json := str (String.ofList cs)

/-- The encoding of an optional value, `null` when there is none. -/
def option {α : Type} (encode : α → Json) : Option α → Json
  | some a => encode a
  | none => null

def list {α : Type} (encode : α → Json) (items : List α) : Json := arr (items.map encode)

def asString? : Json → Option String
  | str s => some s
  | _ => none

/-- The number of an integer value that is not negative. -/
def asNat? : Json → Option Nat
  | int (.ofNat n) => some n
  | _ => none

def asArray? : Json → Option (List Json)
  | arr items => some items
  | _ => none

end Json

end PhoenixLens
