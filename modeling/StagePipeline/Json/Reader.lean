import StagePipeline.Decimal.Literal
import StagePipeline.Json
import StagePipeline.Text.Hexadecimal
import StagePipeline.Word

/-!
# Reading JSON texts

A reader for whole JSON texts.  Integers that fit 64 bits stay integers, all
other numbers become floats: as many leading digits as fit a word, scaled by a
power of ten.  Values may be nested less than 128 deep.
-/

namespace StagePipeline
namespace Json
namespace Reader

open Decimal

/-- Skip the blanks that may stand between tokens. -/
def skipBlanks (text : List Char) : List Char :=
  text.dropWhile fun c => c == ' ' || c == '\n' || c == '\t' || c == '\r'

/-! ## Numbers -/

/-- Digits collected as a word: as soon as another digit would not fit, it and
all later ones are dropped, and counted if they are digits of whole numbers. -/
structure Significand where
  value : Nat
  dropped : Nat
  isFull : Bool

namespace Significand

/-- Append a digit that stands before the point. -/
def pushWhole (significand : Significand) (digit : Char) : Significand :=
  let extended := 10 * significand.value + digitValue digit
  if significand.isFull || decide (Word.limit ≤ extended) then
    ⟨significand.value, significand.dropped + 1, true⟩
  else ⟨extended, significand.dropped, false⟩

/-- Append a digit that stands behind the point, and count it if it fits.  Only
digits behind the point decide whether there is room. -/
def pushFraction (state : Significand × Nat) (digit : Char) : Significand × Nat :=
  let (significand, places) := state
  let extended := 10 * significand.value + digitValue digit
  if significand.isFull || decide (Word.limit ≤ extended) then
    (⟨significand.value, significand.dropped, true⟩, places)
  else (⟨extended, significand.dropped, false⟩, places + 1)

end Significand

/-- The float nearest to a power of ten. -/
def tenToThe (exponent : Nat) : Float :=
  Binary64.ofRatio false (Nat.pow 10 exponent) 1

/-- Scale a significand down by a power of ten, at most `10 ^ 308` at a time. -/
def scaleDown (value : Float) (exponent : Nat) : Float :=
  if value == 0 then value
  else if exponent ≤ 308 then value / tenToThe exponent
  else scaleDown (value / tenToThe 308) (exponent - 308)
termination_by exponent
decreasing_by omega

/-- Scale a significand by a power of ten, unless the result is infinite.  Two
steps of `10 ^ 308` take every significand to zero, so that longer ways down are
cut short. -/
def scale? (significand : Nat) (exponent : Int) : Option Float :=
  let value := significand.toUInt64.toFloat
  if 0 ≤ exponent then
    if 308 < exponent then (if significand = 0 then some value else none)
    else
      let scaled := value * tenToThe exponent.toNat
      if scaled.isFinite then some scaled else none
  else some (scaleDown value (min (-exponent).toNat 1000))

/-- A sign in front of a float. -/
def signed (negative : Bool) (value : Float) : Float :=
  if negative then -value else value

/-- Read the fraction digits after a point, of which there must be one. -/
def fraction? : List Char → Option (List Char × List Char)
  | '.' :: rest =>
      let digits := leadingDigits rest
      if digits.isEmpty then none else some (digits, afterDigits rest)
  | text => some ([], text)

/-- Read an exponent: a letter e, an optional sign and digits. -/
def exponentPart? : List Char → Option (Option (Bool × Nat) × List Char)
  | [] => some (none, [])
  | letter :: rest =>
      if letter = 'e' ∨ letter = 'E' then
        let (negative, unsigned) := splitSign rest
        let digits := leadingDigits unsigned
        if digits.isEmpty then none
        else some (some (negative, digitsValue digits), afterDigits unsigned)
      else some (none, letter :: rest)

/-- The number made of whole digits, fraction digits and an exponent. -/
def number?
    (negative : Bool)
    (whole fraction : List Char)
    (power : Option (Bool × Nat)) :
    Option Json :=
  if fraction.isEmpty && power.isNone &&
      decide (digitsValue whole < if negative then Word.signedLimit + 1 else Word.limit) &&
      !(negative && digitsValue whole == 0) then
    let value : Int := digitsValue whole
    some (integer (if negative then -value else value))
  else
    let collected := whole.foldl Significand.pushWhole ⟨0, 0, false⟩
    let (significand, places) :=
      fraction.foldl Significand.pushFraction (⟨collected.value, collected.dropped, false⟩, 0)
    let start : Int := (collected.dropped : Int) - places
    match power with
    | some (down, exponent) =>
        if Nat.pow 2 31 ≤ exponent then
          if down || significand.value == 0 then some (float (signed negative 0)) else none
        else
          (scale? significand.value (if down then start - exponent else start + exponent)).map
            fun value => float (signed negative value)
    | none => (scale? significand.value start).map fun value => float (signed negative value)

/-- Read a number. -/
def readNumber? (text : List Char) : Option (Json × List Char) := do
  let (negative, unsigned) := match text with
    | '-' :: rest => (true, rest)
    | _ => (false, text)
  let whole := leadingDigits unsigned
  if whole.isEmpty || (whole.head? == some '0' && decide (1 < whole.length)) then none
  else
    let (fraction, rest) ← fraction? (afterDigits unsigned)
    let (power, rest) ← exponentPart? rest
    let value ← number? negative whole fraction power
    some (value, rest)

/-! ## Strings -/

/-- The character of a one-letter escape. -/
def shortEscape? (letter : Char) : Option Char :=
  if letter = '"' ∨ letter = '\\' ∨ letter = '/' then some letter
  else if letter = 'b' then some '\x08'
  else if letter = 'f' then some '\x0c'
  else if letter = 'n' then some '\n'
  else if letter = 'r' then some '\r'
  else if letter = 't' then some '\t'
  else none

/-- Read the rest of a string whose opening quote has been read.  An escaped
code unit of the upper half of the surrogates is the first of a pair. -/
def readString? : List Char → List Char → Option (String × List Char)
  | _, [] => none
  | read, '"' :: rest => some (String.ofList read.reverse, rest)
  | read, '\\' :: 'u' :: a :: b :: c :: d :: rest =>
      match Text.hexNumber? [a, b, c, d] with
      | none => none
      | some unit =>
          if 0xD800 ≤ unit ∧ unit < 0xDC00 then
            match rest with
            | '\\' :: 'u' :: e :: f :: g :: h :: after =>
                match Text.hexNumber? [e, f, g, h] with
                | none => none
                | some second =>
                    if 0xDC00 ≤ second ∧ second < 0xE000 then
                      let code := 0x10000 + (unit - 0xD800) * 0x400 + (second - 0xDC00)
                      readString? (Char.ofNat code :: read) after
                    else none
            | _ => none
          else if 0xDC00 ≤ unit ∧ unit < 0xE000 then none
          else readString? (Char.ofNat unit :: read) rest
  | read, '\\' :: letter :: rest =>
      match shortEscape? letter with
      | some character => readString? (character :: read) rest
      | none => none
  | read, character :: rest =>
      if character = '\\' ∨ character.toNat < 0x20 then none
      else readString? (character :: read) rest
termination_by _ text => text.length

/-! ## Values -/

/-- Values that are nested this deep are refused. -/
def depthLimit : Nat := 128

mutual

/-- Read one value after blanks. -/
def readValue? (fuel depth : Nat) (text : List Char) : Option (Json × List Char) :=
  match fuel with
  | 0 => none
  | fuel + 1 =>
      match skipBlanks text with
      | 'n' :: 'u' :: 'l' :: 'l' :: rest => some (null, rest)
      | 't' :: 'r' :: 'u' :: 'e' :: rest => some (bool true, rest)
      | 'f' :: 'a' :: 'l' :: 's' :: 'e' :: rest => some (bool false, rest)
      | '"' :: rest => (readString? [] rest).map fun (value, rest) => (string value, rest)
      | '[' :: rest =>
          match depth with
          | 0 | 1 => none
          | depth + 1 =>
              match skipBlanks rest with
              | ']' :: rest => some (array [], rest)
              | rest =>
                  (readItems? fuel depth rest).map fun (items, rest) => (array items, rest)
      | '\x7b' :: rest =>
          match depth with
          | 0 | 1 => none
          | depth + 1 =>
              match skipBlanks rest with
              | '\x7d' :: rest => some (object [], rest)
              | rest =>
                  (readMembers? fuel depth rest).map fun (members, rest) =>
                    (object members, rest)
      | rest => readNumber? rest

/-- Read the items of an array up to its closing bracket. -/
def readItems? (fuel depth : Nat) (text : List Char) : Option (List Json × List Char) :=
  match fuel with
  | 0 => none
  | fuel + 1 => do
      let (item, rest) ← readValue? fuel depth text
      match skipBlanks rest with
      | ',' :: rest =>
          let (items, rest) ← readItems? fuel depth rest
          some (item :: items, rest)
      | ']' :: rest => some ([item], rest)
      | _ => none

/-- Read the members of an object up to its closing brace. -/
def readMembers? (fuel depth : Nat) (text : List Char) :
    Option (List (String × Json) × List Char) :=
  match fuel with
  | 0 => none
  | fuel + 1 =>
      match skipBlanks text with
      | '"' :: rest => do
          let (name, rest) ← readString? [] rest
          match skipBlanks rest with
          | ':' :: rest =>
              let (value, rest) ← readValue? fuel depth rest
              match skipBlanks rest with
              | ',' :: rest =>
                  let (members, rest) ← readMembers? fuel depth rest
                  some ((name, value) :: members, rest)
              | '\x7d' :: rest => some ([(name, value)], rest)
              | _ => none
          | _ => none
      | _ => none

end

end Reader

open Reader

/-- Read a whole text as one value.  Every step of the reader consumes a
character or opens a value, which bounds their number. -/
def parse? (text : String) : Option Json :=
  match readValue? (2 * text.length + 2) depthLimit text.toList with
  | some (value, rest) => if (skipBlanks rest).isEmpty then some value else none
  | none => none

end Json
end StagePipeline
