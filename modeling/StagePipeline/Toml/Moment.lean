import StagePipeline.Decimal.Literal
import StagePipeline.Time.Timestamp

/-!
# Moments of TOML documents

A moment is a date, a time of day or both, in which case there may be an offset from
universal time.  Every reader returns the normal form of what it has read together
with the rest of the text.
-/

namespace StagePipeline
namespace Toml

open Decimal

/-- Read two digits of a number in a range, and keep them as they are. -/
def twoDigits? (least greatest : Nat) : List Char → Option (List Char × List Char)
  | tens :: ones :: rest =>
      let value := digitsValue [tens, ones]
      if tens.isDigit && ones.isDigit && decide (least ≤ value) && decide (value ≤ greatest) then
        some ([tens, ones], rest)
      else none
  | _ => none

/-- Read one given character. -/
def expect? (character : Char) : List Char → Option (List Char)
  | first :: rest => if first = character then some rest else none
  | [] => none

/-! ## Parts of moments -/

/-- Read a date. -/
def date? (text : List Char) : Option (List Char × List Char) := do
  let (century, rest) ← twoDigits? 0 99 text
  let (year, rest) ← twoDigits? 0 99 rest
  let rest ← expect? '-' rest
  let (month, rest) ← twoDigits? 1 12 rest
  let rest ← expect? '-' rest
  let (day, rest) ← twoDigits? 1 31 rest
  let date : Timestamp.Date :=
    ⟨digitsValue (century ++ year), digitsValue month, digitsValue day⟩
  if date.isValid then some (century ++ year ++ '-' :: month ++ '-' :: day, rest) else none

/-- The fraction of a second in its normal form: nine digits at most, and no zeros
at the end. -/
def normalFraction (digits : List Char) : List Char :=
  match ((digits.take 9).reverse.dropWhile (· == '0')).reverse with
  | [] => []
  | kept => '.' :: kept

/-- Read the fraction of a second. -/
def secondFraction? : List Char → Option (List Char × List Char)
  | '.' :: rest =>
      let digits := leadingDigits rest
      if digits.isEmpty then none else some (normalFraction digits, afterDigits rest)
  | text => some ([], text)

/-- Read a time of day. -/
def time? (text : List Char) : Option (List Char × List Char) := do
  let (hour, rest) ← twoDigits? 0 23 text
  let rest ← expect? ':' rest
  let (minute, rest) ← twoDigits? 0 59 rest
  let rest ← expect? ':' rest
  let (second, rest) ← twoDigits? 0 60 rest
  let (fraction, rest) ← secondFraction? rest
  return (hour ++ ':' :: minute ++ ':' :: second ++ fraction, rest)

/-- Read an offset from universal time.  An offset of nothing counts as positive. -/
def offset? : List Char → Option (List Char × List Char)
  | [] => none
  | mark :: rest =>
      if mark = 'Z' ∨ mark = 'z' then some (['Z'], rest)
      else if mark = '+' ∨ mark = '-' then do
        let (hour, rest) ← twoDigits? 0 23 rest
        let rest ← expect? ':' rest
        let (minute, rest) ← twoDigits? 0 59 rest
        let sign := if digitsValue (hour ++ minute) = 0 then '+' else mark
        return (sign :: hour ++ ':' :: minute, rest)
      else none

/-- Read the time of day that may follow a date, and the offset that may follow
both. -/
def timeAfterDate : List Char → List Char × List Char
  | [] => ([], [])
  | mark :: rest =>
      if mark = 'T' ∨ mark = 't' ∨ mark = ' ' then
        match time? rest with
        | none => ([], mark :: rest)
        | some (time, rest) =>
            match offset? rest with
            | none => ('T' :: time, rest)
            | some (offset, rest) => ('T' :: time ++ offset, rest)
      else ([], mark :: rest)

/-! ## Moments -/

/-- Read a date, a time of day or both. -/
def moment? (text : List Char) : Option (String × List Char) :=
  match date? text with
  | some (date, rest) =>
      let (time, rest) := timeAfterDate rest
      some (String.ofList (date ++ time), rest)
  | none => (time? text).map fun (time, rest) => (String.ofList time, rest)

/-- The normal form of a whole text that is a moment. -/
def wholeMoment? (text : List Char) : Option String :=
  match moment? text with
  | some (moment, []) => some moment
  | _ => none

end Toml
end StagePipeline
