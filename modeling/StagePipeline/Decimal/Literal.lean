import StagePipeline.Binary64

/-!
# Decimal literals

A literal is an optional sign, digits with an optional point (at least one
digit in all), and an optional exponent.  It stands for an exact rational
number, and is read as the nearest binary64 number.
-/

namespace StagePipeline
namespace Decimal

/-- The value of one digit. -/
def digitValue (digit : Char) : Nat :=
  digit.toNat - '0'.toNat

/-- The value of a run of digits. -/
def digitsValue (digits : List Char) : Nat :=
  digits.foldl (fun value digit => 10 * value + digitValue digit) 0

/-- The leading digits of a text. -/
def leadingDigits (text : List Char) : List Char :=
  text.takeWhile Char.isDigit

/-- The text after its leading digits. -/
def afterDigits (text : List Char) : List Char :=
  text.dropWhile Char.isDigit

/-- Whether a text starts with a minus sign, and the text after its sign. -/
def splitSign : List Char → Bool × List Char
  | '-' :: rest => (true, rest)
  | '+' :: rest => (false, rest)
  | text => (false, text)

/-- The decimal number `± digits * 10 ^ exponent`. -/
structure Literal where
  negative : Bool
  digits : List Char
  exponent : Int
  deriving DecidableEq, Repr

/-- The fraction digits and the rest of a text that may start with a point. -/
def splitFraction : List Char → List Char × List Char
  | '.' :: rest => (leadingDigits rest, afterDigits rest)
  | text => ([], text)

/-- The exponent that makes up a whole text: nothing, or a letter e, an optional
sign and at least one digit. -/
def exponent? : List Char → Option Int
  | [] => some 0
  | letter :: rest =>
      if letter = 'e' ∨ letter = 'E' then
        let (negative, digits) := splitSign rest
        if digits.isEmpty || !digits.all Char.isDigit then none
        else if negative then some (-(digitsValue digits : Int))
        else some (digitsValue digits)
      else none

namespace Literal

/-- Read a whole text as a literal. -/
def parse? (text : List Char) : Option Literal :=
  let (negative, unsigned) := splitSign text
  let whole := leadingDigits unsigned
  let (fraction, rest) := splitFraction (afterDigits unsigned)
  if whole.isEmpty && fraction.isEmpty then none
  else
    (exponent? rest).map fun exponent =>
      ⟨negative, whole ++ fraction, exponent - fraction.length⟩

/-- The value of the digits, without sign and power of ten. -/
def coefficient (literal : Literal) : Nat :=
  digitsValue literal.digits

/-- The nearest float.  Literals of `10 ^ 311` and more are beyond every finite
float, and those below `10 ^ (-330)` are nearer to zero than to any other, so
that no huge power of ten is ever formed. -/
def toFloat (literal : Literal) : Float :=
  let coefficient := literal.coefficient
  if coefficient = 0 then Binary64.ofMagnitude literal.negative 0
  else if 310 < literal.exponent then
    Binary64.ofMagnitude literal.negative Binary64.infinityBits
  else if literal.exponent + literal.digits.length < -330 then
    Binary64.ofMagnitude literal.negative 0
  else
    Binary64.ofRatio literal.negative
      (coefficient * Nat.pow 10 literal.exponent.toNat)
      (Nat.pow 10 (-literal.exponent).toNat)

end Literal

/-- What a numeric text can stand for. -/
inductive Numeral where
  | literal (number : Literal)
  | infinity (negative : Bool)
  | notANumber
  deriving DecidableEq, Repr

namespace Numeral

/-- The numeral that a word stands for, in any case and after an optional sign. -/
def ofWord? (text : List Char) : Option Numeral :=
  let (negative, word) := splitSign text
  let spelled := String.ofList (word.map Char.toLower)
  if spelled = "inf" ∨ spelled = "infinity" then some (infinity negative)
  else if spelled = "nan" then some notANumber
  else none

/-- Read a whole text as a literal or as one of the words. -/
def parse? (text : List Char) : Option Numeral :=
  match Literal.parse? text with
  | some number => some (literal number)
  | none => ofWord? text

/-- The float of a numeral. -/
def toFloat : Numeral → Float
  | literal number => number.toFloat
  | infinity negative => Binary64.ofMagnitude negative Binary64.infinityBits
  | notANumber => Binary64.notANumber

end Numeral

/-- Read a whole text as a natural number: digits only, at least one. -/
def natural? (text : List Char) : Option Nat :=
  if text.isEmpty || !text.all Char.isDigit then none
  else some (digitsValue text)

/-- Read a whole text as an integer: digits after an optional sign. -/
def integer? (text : List Char) : Option Int :=
  let (negative, digits) := splitSign text
  (natural? digits).map fun value => if negative then -(value : Int) else value

end Decimal
end StagePipeline
