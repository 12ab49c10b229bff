import StagePipeline.Decimal.Literal
import StagePipeline.Text.Blank
import StagePipeline.Time.Duration

/-!
# Timestamps

An instant in universal time, its text `YYYY-MM-DDTHH:MM:SS[.fff]Z`, and a
reader that also takes other offsets, single digits and blanks between the
parts.  Calendar years are those of the proleptic Gregorian calendar.
-/

namespace StagePipeline

/-- An instant in universal time.  Nanoseconds from `10 ^ 9` on lie in the leap
second that follows the counted second. -/
structure Timestamp where
  seconds : Int
  nanoseconds : Nat
  deriving DecidableEq, Repr, Inhabited

namespace Timestamp

/-! ## The calendar -/

/-- A day of the calendar. -/
structure Date where
  year : Int
  month : Nat
  day : Nat
  deriving DecidableEq, Repr

namespace Date

/-- Whether a year has a 29th of February. -/
def isLeapYear (year : Int) : Bool :=
  year % 4 == 0 && (year % 100 != 0 || year % 400 == 0)

/-- The number of days of a month. -/
def daysInMonth (year : Int) (month : Nat) : Nat :=
  if month = 2 then (if isLeapYear year then 29 else 28)
  else if month = 4 ∨ month = 6 ∨ month = 9 ∨ month = 11 then 30
  else 31

/-- Whether month and day exist in that year. -/
def isValid (date : Date) : Bool :=
  decide (1 ≤ date.month) && decide (date.month ≤ 12) && decide (1 ≤ date.day) &&
    decide (date.day ≤ daysInMonth date.year date.month)

/-- Days since 1970-01-01.  Years are counted from March, so that the leap day
is the last day of a year. -/
def toDays (date : Date) : Int :=
  let year := if date.month ≤ 2 then date.year - 1 else date.year
  let cycle := year.fdiv 400
  let yearOfCycle := year - cycle * 400
  let month : Int := if date.month ≤ 2 then date.month + 9 else date.month - 3
  let dayOfYear := (153 * month + 2) / 5 + date.day - 1
  let dayOfCycle := yearOfCycle * 365 + yearOfCycle / 4 - yearOfCycle / 100 + dayOfYear
  cycle * 146097 + dayOfCycle - 719468

/-- The day that lies that many days after 1970-01-01. -/
def ofDays (days : Int) : Date :=
  let shifted := days + 719468
  let cycle := shifted.fdiv 146097
  let dayOfCycle := shifted - cycle * 146097
  let yearOfCycle :=
    (dayOfCycle - dayOfCycle / 1460 + dayOfCycle / 36524 - dayOfCycle / 146096) / 365
  let dayOfYear := dayOfCycle - (365 * yearOfCycle + yearOfCycle / 4 - yearOfCycle / 100)
  let month := (5 * dayOfYear + 2) / 153
  let day := dayOfYear - (153 * month + 2) / 5 + 1
  let year := yearOfCycle + cycle * 400
  if month < 10 then ⟨year, (month + 3).toNat, day.toNat⟩
  else ⟨year + 1, (month - 9).toNat, day.toNat⟩

end Date

/-! ## Writing -/

/-- A number with leading zeros up to a width. -/
def padded (width number : Nat) : String :=
  let digits := toString number
  String.ofList (List.replicate (width - digits.length) '0') ++ digits

/-- Years of four digits stand alone, all others carry a sign. -/
def yearText (year : Int) : String :=
  if 0 ≤ year ∧ year ≤ 9999 then padded 4 year.toNat
  else if year < 0 then "-" ++ padded 4 (-year).toNat
  else "+" ++ padded 4 year.toNat

/-- The fraction of a second: none, or milliseconds, microseconds or nanoseconds,
whichever is the first to be exact. -/
def fractionText (nanoseconds : Nat) : String :=
  if nanoseconds = 0 then ""
  else if nanoseconds % 1000000 = 0 then "." ++ padded 3 (nanoseconds / 1000000)
  else if nanoseconds % 1000 = 0 then "." ++ padded 6 (nanoseconds / 1000)
  else "." ++ padded 9 nanoseconds

/-- The text of a timestamp in universal time. -/
def text (timestamp : Timestamp) : String :=
  let days := timestamp.seconds.fdiv 86400
  let secondOfDay := (timestamp.seconds - days * 86400).toNat
  let date := Date.ofDays days
  let leap := timestamp.nanoseconds / Duration.perSecond
  yearText date.year ++ "-" ++ padded 2 date.month ++ "-" ++ padded 2 date.day ++ "T" ++
    padded 2 (secondOfDay / 3600) ++ ":" ++ padded 2 (secondOfDay / 60 % 60) ++ ":" ++
    padded 2 (secondOfDay % 60 + leap) ++
    fractionText (timestamp.nanoseconds % Duration.perSecond) ++ "Z"

/-! ## Reading -/

open Decimal Text

/-- Read one number of at most `width` digits after blanks. -/
def number? (width : Nat) (text : List Char) : Option (Nat × List Char) :=
  let text := trimStart text
  let digits := (leadingDigits text).take width
  if digits.isEmpty then none
  else some (digitsValue digits, text.drop digits.length)

/-- Read a year: four digits at most, or any number of digits after a sign. -/
def year? (text : List Char) : Option (Int × List Char) :=
  match trimStart text with
  | '-' :: rest =>
      let digits := leadingDigits rest
      if digits.isEmpty then none else some (-(digitsValue digits : Int), afterDigits rest)
  | '+' :: rest =>
      let digits := leadingDigits rest
      if digits.isEmpty then none else some ((digitsValue digits : Int), afterDigits rest)
  | unsigned => (number? 4 unsigned).map fun (year, rest) => ((year : Int), rest)

/-- Skip blanks and one given character. -/
def skip? (character : Char) (text : List Char) : Option (List Char) :=
  match trimStart text with
  | [] => none
  | first :: rest => if first = character then some rest else none

/-- Read an optional fraction of a second.  Digits after the ninth are dropped. -/
def fraction? : List Char → Option (Nat × List Char)
  | '.' :: rest =>
      let digits := (leadingDigits rest).take 9
      if digits.isEmpty then none
      else some (digitsValue digits * Nat.pow 10 (9 - digits.length), afterDigits rest)
  | text => some (0, text)

/-- Read two digits. -/
def twoDigits? : List Char → Option (Nat × List Char)
  | tens :: ones :: rest =>
      if tens.isDigit && ones.isDigit then some (digitsValue [tens, ones], rest) else none
  | _ => none

/-- Read an offset from universal time in seconds. -/
def offset? (text : List Char) : Option (Int × List Char) :=
  match text with
  | 'Z' :: rest => some (0, rest)
  | 'z' :: rest => some (0, rest)
  | first :: rest =>
      if ((first :: rest).take 3).map Char.toUpper = ['U', 'T', 'C'] then some (0, rest.drop 2)
      else if first = '+' ∨ first = '-' ∨ first = '\u2212' then do
        let (hours, rest) ← twoDigits? rest
        let (minutes, rest) ← twoDigits? (rest.dropWhile fun c => c == ':' || isBlank c)
        if 59 < minutes then none
        else
          let seconds : Int := hours * 3600 + minutes * 60
          some (if first = '+' then seconds else -seconds, rest)
      else none
  | [] => none

/-- The range of years that a timestamp may have. -/
def isRepresentable (year : Int) : Bool :=
  decide (-262143 ≤ year) && decide (year ≤ 262142)

/-- Read a date. -/
def date? (text : List Char) : Option (Date × List Char) := do
  let (year, text) ← year? text
  let text ← skip? '-' text
  let (month, text) ← number? 2 text
  let text ← skip? '-' text
  let (day, text) ← number? 2 text
  let date : Date := ⟨year, month, day⟩
  if date.isValid && isRepresentable year then some (date, text) else none

/-- Read a time of day: seconds since midnight and nanoseconds, where a 60th
second is a leap second. -/
def timeOfDay? (text : List Char) : Option ((Nat × Nat) × List Char) := do
  let (hour, text) ← number? 2 text
  let text ← skip? ':' text
  let (minute, text) ← number? 2 text
  let text ← skip? ':' text
  let (second, text) ← number? 2 text
  let (nanoseconds, text) ← fraction? text
  if 23 < hour ∨ 59 < minute ∨ 60 < second then none
  else if second = 60 then
    some ((hour * 3600 + minute * 60 + 59, Duration.perSecond + nanoseconds), text)
  else some ((hour * 3600 + minute * 60 + second, nanoseconds), text)

/-- The day on which an instant falls in universal time. -/
def date (timestamp : Timestamp) : Date :=
  Date.ofDays (timestamp.seconds.fdiv 86400)

/-- Read a whole text as a timestamp.  It must be representable both as it is
written and in universal time. -/
def parse? (text : List Char) : Option Timestamp := do
  let (date, text) ← date? text
  let text ← match text with
    | 'T' :: rest => some rest
    | 't' :: rest => some rest
    | ' ' :: rest => some rest
    | _ => none
  let ((secondOfDay, nanoseconds), text) ← timeOfDay? text
  let (offset, text) ← offset? (trimStart text)
  let timestamp : Timestamp := ⟨date.toDays * 86400 + secondOfDay - offset, nanoseconds⟩
  if (trimStart text).isEmpty && decide (offset.natAbs < 86400) &&
      isRepresentable timestamp.date.year then
    some timestamp
  else none

end Timestamp
end StagePipeline
