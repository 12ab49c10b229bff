import StagePipeline.Decimal.Literal

/-!
# Shortest decimal texts

The text of a float has the fewest digits that read back as the same float, and
of those the digits nearest to it.  It is written positionally, never with an
exponent.
-/

namespace StagePipeline
namespace Decimal

/-- The decimal number `coefficient * 10 ^ exponent`. -/
structure Scaled where
  coefficient : Nat
  exponent : Int
  deriving DecidableEq, Repr

namespace Scaled

/-- The nearest float to a scaled number. -/
def toFloat (number : Scaled) : Float :=
  Binary64.ofRatio false
    (number.coefficient * Nat.pow 10 number.exponent.toNat)
    (Nat.pow 10 (-number.exponent).toNat)

/-- The digits with zeros and a point where the exponent asks for them. -/
def positional (number : Scaled) : String :=
  let digits := toString number.coefficient
  if 0 ≤ number.exponent then
    digits ++ String.ofList (List.replicate number.exponent.toNat '0')
  else
    let places := (-number.exponent).toNat
    let padded := String.ofList (List.replicate (places + 1 - digits.length) '0') ++ digits
    let cut := padded.length - places
    String.ofList (padded.toList.take cut) ++ "." ++ String.ofList (padded.toList.drop cut)

end Scaled

/-- A positive quotient of natural numbers. -/
structure Quotient where
  numerator : Nat
  denominator : Nat

namespace Quotient

/-- The exact value of a finite magnitude. -/
def ofDyadic (number : Binary64.Dyadic) : Quotient :=
  ⟨Binary64.scaleUp number.significand number.exponent,
    Binary64.scaleUp 1 (-number.exponent)⟩

/-- The exponent of the leading decimal digit.  A positive float is at least
`10 ^ (-324)`, which bounds the search. -/
def leadingPower (value : Quotient) : Int :=
  let whole := value.numerator / value.denominator
  if 0 < whole then (toString whole).length - 1
  else
    let places := (List.range 330).find? fun places =>
      decide (value.denominator ≤ value.numerator * Nat.pow 10 places)
    Int.negOfNat (places.getD 330)

/-- The two neighbours of the value on the grid of multiples of `10 ^ exponent`
that read back as `target`, nearest first; a tie puts the upper one first. -/
def neighbours (value : Quotient) (target : Float) (exponent : Int) : List Scaled :=
  let numerator := value.numerator * Nat.pow 10 (-exponent).toNat
  let denominator := value.denominator * Nat.pow 10 exponent.toNat
  let below := numerator / denominator
  let remainder := numerator % denominator
  let lower : Scaled := ⟨below, exponent⟩
  let upper : Scaled := ⟨below + 1, exponent⟩
  let ordered := if 2 * remainder < denominator then [lower, upper] else [upper, lower]
  ordered.filter fun candidate => candidate.toFloat == target

end Quotient

/-- The shortest digits of a positive finite float: the first grid on which a
neighbour reads back.  The search starts one place above the leading digit, for
a float just below a power of ten, and ends at seventeen digits. -/
def shortest (target : Float) (number : Binary64.Dyadic) : Scaled :=
  let value := Quotient.ofDyadic number
  let power := value.leadingPower
  let candidates := (List.range 18).findSome? fun extra =>
    (value.neighbours target (power + 1 - (extra : Nat))).head?
  candidates.getD ⟨0, 0⟩

/-- The text of a float: shortest digits, written positionally. -/
def text (value : Float) : String :=
  match Binary64.decode? value with
  | none =>
      if value.isNaN then "NaN"
      else if Binary64.isNegative value then "-inf"
      else "inf"
  | some number =>
      let sign := if number.negative then "-" else ""
      if number.significand = 0 then sign ++ "0"
      else sign ++ (shortest (Binary64.ofMagnitude false (Binary64.magnitude value)) number).positional

end Decimal
end StagePipeline
