import StagePipeline.Word

/-!
# Binary64 numbers as integers times powers of two

A finite `Float` is `± significand * 2 ^ exponent`.  This module reads that form
off the bits of a float, rounds an exact quotient of natural numbers to the
nearest float (a tie goes to the even neighbour), and picks the smaller or
larger of two floats, where a value that is not a number loses.
-/

namespace StagePipeline
namespace Binary64

/-- The number `± significand * 2 ^ exponent`. -/
structure Dyadic where
  negative : Bool
  significand : Nat
  exponent : Int
  deriving DecidableEq, Repr

/-- The magnitude bits of an infinity: every smaller magnitude is finite. -/
def infinityBits : Nat :=
  2047 * Nat.pow 2 52

/-- The float with the given sign and magnitude bits. -/
def ofMagnitude (negative : Bool) (magnitude : Nat) : Float :=
  Float.ofBits (UInt64.ofNat (if negative then Nat.pow 2 63 + magnitude else magnitude))

/-- All bits but the sign.  Non-negative floats are ordered like these. -/
def magnitude (value : Float) : Nat :=
  value.toBits.toNat % Nat.pow 2 63

/-- The sign bit, which negative zero carries too. -/
def isNegative (value : Float) : Bool :=
  decide (Nat.pow 2 63 ≤ value.toBits.toNat)

/-- The exact value of a finite float, `none` for an infinity or no number. -/
def decode? (value : Float) : Option Dyadic :=
  let bits := magnitude value
  if infinityBits ≤ bits then none
  else if bits < Nat.pow 2 52 then some ⟨isNegative value, bits, -1074⟩
  else some ⟨isNegative value, Nat.pow 2 52 + bits % Nat.pow 2 52, ((bits / Nat.pow 2 52 : Nat) : Int) - 1075⟩

/-- Positive infinity, the identity of `lesser`. -/
def positiveInfinity : Float :=
  ofMagnitude false infinityBits

/-- Negative infinity, the identity of `greater`. -/
def negativeInfinity : Float :=
  ofMagnitude true infinityBits

/-- The one value that is not a number. -/
def notANumber : Float :=
  ofMagnitude false (infinityBits + Nat.pow 2 51)

/-! ## Rounding a quotient -/

/-- The quotient rounded to the nearest natural number, ties to even. -/
def roundedQuotient (numerator denominator : Nat) : Nat :=
  let quotient := numerator / denominator
  let remainder := numerator % denominator
  if 2 * remainder < denominator then quotient
  else if 2 * remainder = denominator then quotient + quotient % 2
  else quotient + 1

/-- Multiply by `2 ^ exponent`; a negative exponent leaves the number alone. -/
def scaleUp (number : Nat) (exponent : Int) : Nat :=
  number * Nat.pow 2 exponent.toNat

/-- The exponent of the leading binary digit of a positive quotient. -/
def leadingExponent (numerator denominator : Nat) : Int :=
  let estimate := (numerator.log2 : Int) - denominator.log2
  if scaleUp denominator estimate ≤ scaleUp numerator (-estimate) then estimate
  else estimate - 1

/-- The exponent of the last place that a float near the quotient has. -/
def lastPlace (numerator denominator : Nat) : Int :=
  max (leadingExponent numerator denominator - 52) (-1074)

/-- The float nearest to `± numerator / denominator`, ties to even.  Counting
bits up from the smallest exponent carries a full significand into the next
exponent, and past the largest one into infinity. -/
def ofRatio (negative : Bool) (numerator denominator : Nat) : Float :=
  if numerator = 0 then ofMagnitude negative 0
  else
    let place := lastPlace numerator denominator
    let significand :=
      roundedQuotient (scaleUp numerator (-place)) (scaleUp denominator place)
    ofMagnitude negative
      (min infinityBits ((place + 1074).toNat * Nat.pow 2 52 + significand))

/-! ## Whole numbers -/

/-- The nearest whole number that fits a word, halves away from zero.  Negative
numbers and no number give zero, numbers that are too large the largest. -/
def toWord (value : Float) : Nat :=
  match decode? value with
  | some ⟨false, significand, exponent⟩ =>
      let doubled := scaleUp (2 * significand) exponent
      let unit := Nat.pow 2 (-exponent).toNat
      min (Word.limit - 1) ((doubled + unit) / (2 * unit))
  | some ⟨true, _, _⟩ => 0
  | none => if value == positiveInfinity then Word.limit - 1 else 0

/-! ## The smaller and the larger of two floats -/

/-- The smaller of two floats; a value that is not a number loses. -/
def lesser (left right : Float) : Float :=
  if left.isNaN || decide (right < left) then right else left

/-- The larger of two floats; a value that is not a number loses. -/
def greater (left right : Float) : Float :=
  if left.isNaN || decide (left < right) then right else left

end Binary64
end StagePipeline
