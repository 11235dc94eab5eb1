import SinosLang.Text.Quoted
import SinosLang.Decimal.Shortest

/-!
# JSON documents

A document value, and its text with one member or item to a line. Integers have any size; members
keep their order.
-/

set_option autoImplicit false

namespace SinosLang

/-- A value of a JSON document. -/
inductive Json where
  | null
  | boolean (value : Bool)
  | integer (value : Int)
  | float (value : Binary64)
  | string (value : Text)
  | array (items : List Json)
  | object (members : List (Text × Json))

namespace Json

/-- A double in a document. The three values that are no JSON numbers are written as words. -/
def number : Binary64 → Text
  | .finite negative rank => Binary64.compact (.finite negative rank)
  | .infinite negative => Binary64.signed negative "Infinity".toList
  | .nan => "NaN".toList

/-- A new line, indented to a depth. -/
def newline (depth : Nat) : Text :=
  '\n' :: List.replicate (2 * depth) ' '

/-- Parts between brackets, one to a line and indented; nothing stands between the brackets if there
are no parts. -/
def enclose (opening closing : Char) (depth : Nat) (parts : List Text) : Text :=
  if parts.isEmpty then
    [opening, closing]
  else
    opening :: newline (depth + 1) ++ Text.join (',' :: newline (depth + 1)) parts ++
      newline depth ++ [closing]

mutual

/-- The text of a value that stands at a depth. -/
def textAt (depth : Nat) : Json → Text
  | null => "null".toList
  | boolean value => if value then "true".toList else "false".toList
  | integer value => Text.ofInt value
  | float value => number value
  | string value => Text.json value
  | array items => enclose '[' ']' depth (itemsAt (depth + 1) items)
  | object members => enclose '\x7b' '\x7d' depth (membersAt (depth + 1) members)

/-- The texts of the items of an array. -/
def itemsAt (depth : Nat) : List Json → List Text
  | [] => []
  | item :: items => textAt depth item :: itemsAt depth items

/-- The texts of the members of an object. -/
def membersAt (depth : Nat) : List (Text × Json) → List Text
  | [] => []
  | (key, value) :: members =>
    (Text.json key ++ ':' :: ' ' :: textAt depth value) :: membersAt depth members

end

/-- The text of a document, indented by two spaces per level. -/
def text (document : Json) : Text :=
  textAt 0 document

end Json

end SinosLang
