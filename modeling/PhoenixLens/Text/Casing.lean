import PhoenixLens.Text.Basic

/-!
# Word forms

Singulars of English plurals, and names written with capitals or with underscores, as the
conventions of web projects relate them to each other.
-/

namespace PhoenixLens.Text

/-- The singular of an English plural, by its ending alone: `-ies` becomes `-y`, the `-es` after
`s`, `x` and `z` goes, `-ss` stays, and a final `-s` goes. -/
def singular (word : List Char) : List Char :=
  match (stripSuffix? "ies" word).filter (!·.isEmpty) with
  | some stem => stem ++ ['y']
  | none =>
    if ["ses", "xes", "zes"].any (fun e => endsWith e word && word.length > 3) then
      word.take (word.length - 2)
    else if endsWith "ss" word then word
    else ((stripSuffix? "s" word).filter (!·.isEmpty)).getD word

/-- A capitalised name in lower case, with an underscore before each new word. A run of capitals
is one word; its last capital begins the next word if a lower-case letter follows. -/
def snakeCase (cs : List Char) : List Char :=
  go none cs
where
  /-- Continues after the character `previous`, if there is one. -/
  go (previous : Option Char) : List Char → List Char
    | [] => []
    | c :: cs =>
      if isUppercase c then
        let beginsWord := previous.any fun p =>
          isLowercase p || isAsciiDigit p || (isUppercase p && cs.head?.any isLowercase)
        (if beginsWord then ['_'] else []) ++ lowercase c ++ go (some c) cs
      else c :: go (some c) cs

/-- A name with underscores in capitalised form: `user_token` becomes `UserToken`. -/
def camelCase (cs : List Char) : List Char :=
  (splitAt '_' cs).flatMap fun
    | [] => []
    | first :: rest => uppercase first ++ rest

/-- A module is meant by a name if it has that name or ends in a dot and that name. -/
def hasModuleSuffix (module suffix : List Char) : Bool :=
  match suffix.isSuffixOf? module with
  | some head => head.isEmpty || head.getLast? == some '.'
  | none => false

/-- The last part of a dotted module name. -/
def lastSegment (module : List Char) : List Char :=
  (module.reverse.takeWhile (· != '.')).reverse

example : singular "categories".toList = "category".toList := by decide
example : singular "boxes".toList = "box".toList := by decide
example : singular "glass".toList = "glass".toList := by decide
example : snakeCase "HTMLParser2Go".toList = "html_parser2_go".toList := by decide
example : camelCase "user__token_id".toList = "UserTokenId".toList := by decide

end PhoenixLens.Text
