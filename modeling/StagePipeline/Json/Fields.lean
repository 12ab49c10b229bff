import StagePipeline.Json
import StagePipeline.Word

/-!
# Fields of JSON values

Readers for plain values and for values with fields.  A value with fields is
written as an object, or as the array of its fields in their order.
-/

namespace StagePipeline
namespace Json

/-! ## Plain values -/

/-- A natural number that fits a word. -/
def word? : Json → Option Nat
  | integer value =>
      if 0 ≤ value ∧ value.toNat < Word.limit then some value.toNat else none
  | _ => none

/-- A number, which may be written as an integer. -/
def number? : Json → Option Float
  | integer value => some (Float.ofInt value)
  | float value => some value
  | _ => none

/-- A text. -/
def text? : Json → Option String
  | string value => some value
  | _ => none

/-- The items of an array. -/
def items? : Json → Option (List Json)
  | array items => some items
  | _ => none

/-- A value that may be null. -/
def nullable? (read? : Json → Option α) : Json → Option (Option α)
  | null => some none
  | value => (read? value).map some

/-- The name of a variant without content: the name alone, or an object in which
the name has a null member. -/
def variant? : Json → Option String
  | string name => some name
  | object [(name, null)] => some name
  | _ => none

/-- A natural number as a JSON value. -/
def ofNat (value : Nat) : Json :=
  integer value

/-- A float as a JSON value: what is not finite has no number and is null. -/
def ofFloat (value : Float) : Json :=
  if value.isFinite then float value else null

/-- A value that may be missing, which is null then. -/
def ofOption (write : α → Json) : Option α → Json
  | none => null
  | some value => write value

/-! ## Fields -/

/-- The fields with the given names: those of an object, in which any of them may
be missing, or those of an array, which must have them all and no more. -/
def fields? (names : List String) : Json → Option (List (Option Json))
  | object members => some (names.map fun name => lookup? name members)
  | array items => if items.length = names.length then some (items.map some) else none
  | _ => none

/-- The fields with the given names, of which an array may leave out the last
ones. -/
def leadingFields? (names : List String) : Json → Option (List (Option Json))
  | object members => some (names.map fun name => lookup? name members)
  | array items =>
      if items.length ≤ names.length then
        some (items.map some ++ List.replicate (names.length - items.length) none)
      else none
  | _ => none

/-- Whether an object has no members but those with the given names. -/
def hasOnly (names : List String) : Json → Bool
  | object members => members.all fun member => names.contains member.1
  | _ => true

/-- A field that must be there. -/
def required? (read? : Json → Option α) (field : Option Json) : Option α :=
  field.bind read?

/-- A field that may be missing or null. -/
def optional? (read? : Json → Option α) : Option Json → Option (Option α)
  | none => some none
  | some value => nullable? read? value

/-- A field that has a standard value. -/
def standard? (standard : α) (read? : Json → Option α) : Option Json → Option α
  | none => some standard
  | some value => read? value

end Json
end StagePipeline
