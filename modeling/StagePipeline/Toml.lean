/-!
# TOML values
-/

namespace StagePipeline
namespace Toml

/-- A TOML value.  The keys of a table differ. -/
inductive Value where
  | string (value : String)
  | integer (value : Int)
  | float (value : Float)
  | boolean (value : Bool)
  /-- A date, a time of day or both, in its normal form. -/
  | moment (text : String)
  | array (items : List Value)
  | table (members : List (String × Value))
  deriving Inhabited

/-- A table by itself. -/
abbrev Table := List (String × Value)

end Toml
end StagePipeline
