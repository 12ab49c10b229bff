import StagePipeline.Decimal.Shortest
import StagePipeline.Entries
import StagePipeline.Json
import StagePipeline.Text.Blank
import StagePipeline.Toml
import StagePipeline.Toml.Moment

/-!
# Values of layered settings

Files and variables give values of many kinds.  A value is converted to the type of
a field wherever that makes sense.
-/

namespace StagePipeline
namespace Settings

/-- A value that a file or a variable gives. -/
inductive Value where
  | null
  | boolean (value : Bool)
  | integer (value : Int)
  | float (value : Float)
  | text (value : String)
  | list (items : List Value)
  | table (members : List (String × Value))
  deriving Inhabited

namespace Value

/-! ## Conversions -/

/-- A number as decimal digits, possibly after a plus sign. -/
def decimalWord? (text : List Char) : Option Nat :=
  let digits := match text with
    | '+' :: rest => rest
    | _ => text
  match Decimal.natural? digits with
  | some value => if value < Word.limit then some value else none
  | none => none

/-- A text as a number: the words of agreement are one and those of refusal zero,
in any case. -/
def wordOfText? (text : String) : Option Nat :=
  let lower := Text.lowerCase text
  if lower = "true" ∨ lower = "on" ∨ lower = "yes" then some 1
  else if lower = "false" ∨ lower = "off" ∨ lower = "no" then some 0
  else decimalWord? text.toList

/-- A value as a natural number. -/
def word? : Value → Option Nat
  | null => none
  | boolean value => some value.toNat
  | integer value => if 0 ≤ value then some value.toNat else none
  | float value => some (Binary64.toWord value)
  | text value => wordOfText? value
  | list _ => none
  | table _ => none

/-- A value as a natural number that may be missing. -/
def optionalWord? : Value → Option (Option Nat)
  | null => some none
  | value => value.word?.map some

/-- A value as a text. -/
def text? : Value → Option String
  | null => none
  | boolean value => some (if value then "true" else "false")
  | integer value => some (toString value)
  | float value => some (Decimal.text value)
  | text value => some value
  | list _ => none
  | table _ => none

/-! ## Values of variables -/

/-- A text as an integer, which must fit a word with a sign. -/
def integerOfText? (text : List Char) : Option Int :=
  match Decimal.integer? text with
  | some value => if Word.fitsSigned value then some value else none
  | none => none

/-- What a variable says: a boolean in any case, else an integer, else a float, else
a text. -/
def ofVariable (value : String) : Value :=
  let lower := Text.lowerCase value
  if lower = "true" then boolean true
  else if lower = "false" then boolean false
  else
    match integerOfText? value.toList with
    | some number => integer number
    | none =>
        match Decimal.Numeral.parse? value.toList with
        | some numeral => float numeral.toFloat
        | none => text value

/-! ## Values of TOML documents -/

/-- A table that begins with this key stands for a moment. -/
def momentMark : String := "$__toml_private_datetime"

/-- The value under the mark of moments, if a table begins with it. -/
def marked? : Toml.Table → Option Toml.Value
  | [] => none
  | (key, value) :: _ => if key = momentMark then some value else none

/-- The moment that a marked value must be a text of. -/
def markedMoment? : Toml.Value → Option Value
  | .string value => (Toml.wholeMoment? value.toList).map text
  | _ => none

mutual

/-- A value of a document, unless there is a mark without a moment. -/
def ofToml? : Toml.Value → Option Value
  | .string value => some (text value)
  | .integer value => some (integer value)
  | .float value => some (float value)
  | .boolean value => some (boolean value)
  | .moment value => some (text value)
  | .array items => (itemsOfToml? items).map list
  | .table members =>
      match marked? members with
      | some value => markedMoment? value
      | none => (membersOfToml? members).map table

/-- The items of an array. -/
def itemsOfToml? : List Toml.Value → Option (List Value)
  | [] => some []
  | item :: rest =>
      match ofToml? item, itemsOfToml? rest with
      | some item, some rest => some (item :: rest)
      | _, _ => none

/-- The members of a table. -/
def membersOfToml? : List (String × Toml.Value) → Option (List (String × Value))
  | [] => some []
  | (key, value) :: rest =>
      match ofToml? value, membersOfToml? rest with
      | some value, some rest => some ((key, value) :: rest)
      | _, _ => none

end

/-! ## Values of JSON documents -/

mutual

/-- A value of a document.  Integers that are too large become floats, and of equal
names in an object the last one counts. -/
def ofJson : Json → Value
  | .null => null
  | .bool value => boolean value
  | .integer value => if Word.fitsSigned value then integer value else float (Float.ofInt value)
  | .float value => float value
  | .string value => text value
  | .array items => list (itemsOfJson items)
  | .object members => table (Entries.keepLast (membersOfJson members))

/-- The items of an array. -/
def itemsOfJson : List Json → List Value
  | [] => []
  | item :: rest => ofJson item :: itemsOfJson rest

/-- The members of an object. -/
def membersOfJson : List (String × Json) → List (String × Value)
  | [] => []
  | (name, value) :: rest => (name, ofJson value) :: membersOfJson rest

end

/-! ## Parts of values -/

/-- The items of a list; other values have none. -/
def items : Value → List Value
  | list items => items
  | _ => []

/-- The members of a table; other values have none. -/
def members : Value → List (String × Value)
  | table members => members
  | _ => []

mutual

/-- Lay a value over another one.  A table is laid over it member by member, with its
keys in small letters; every other value hides what was there. -/
def overlay : Value → Value → Value
  | table members, below => overlayMembers members below
  | value, _ => value

/-- Lay members, one after the other, over those of another value. -/
def overlayMembers : List (String × Value) → Value → Value
  | [], below => below
  | (name, value) :: rest, below =>
      let key := Text.lowerCase name
      let old := (Entries.find? key below.members).getD (table [])
      overlayMembers rest (table (Entries.put key (value.overlay old) below.members))

end

end Value
end Settings
end StagePipeline
