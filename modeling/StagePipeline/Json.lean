/-!
# JSON values

Numbers are integers or floats.  A float in a JSON value stands for itself,
whatever digits it was read from.
-/

namespace StagePipeline

/-- A JSON value.  The members of an object keep their order, and a later member
hides an earlier one of the same name. -/
inductive Json where
  | null
  | bool (value : Bool)
  | integer (value : Int)
  | float (value : Float)
  | string (value : String)
  | array (items : List Json)
  | object (members : List (String × Json))
  deriving Inhabited

namespace Json

/-- The last value that a list of members gives to a name. -/
def lookup? (name : String) : List (String × Json) → Option Json
  | [] => none
  | (key, value) :: rest =>
      match lookup? name rest with
      | some found => some found
      | none => if key = name then some value else none

/-- The member of an object. -/
def member? (name : String) : Json → Option Json
  | object members => lookup? name members
  | _ => none

@[simp] theorem lookup?_nil (name : String) : lookup? name [] = none :=
  rfl

end Json
end StagePipeline
