import StagePipeline.Word

/-!
# Durations

A length of time in whole nanoseconds, its split into seconds and a rest, and
its text in the largest unit of which it holds at least one.
-/

namespace StagePipeline

/-- A length of time. -/
structure Duration where
  nanoseconds : Nat
  deriving DecidableEq, Repr, Inhabited

namespace Duration

/-- Nanoseconds in a second. -/
def perSecond : Nat :=
  1000000000

/-- Seconds and further nanoseconds, which may be a second or more. -/
def ofParts (seconds nanoseconds : Nat) : Duration :=
  ⟨seconds * perSecond + nanoseconds⟩

/-- A duration of that many seconds and further nanoseconds, if its whole seconds fit a
word. -/
def ofParts? (seconds nanoseconds : Nat) : Option Duration :=
  if seconds + nanoseconds / perSecond < Word.limit then some (ofParts seconds nanoseconds)
  else none

/-- A whole number of milliseconds. -/
def ofMilliseconds (milliseconds : Nat) : Duration :=
  ⟨milliseconds * 1000000⟩

/-- The whole seconds. -/
def seconds (duration : Duration) : Nat :=
  duration.nanoseconds / perSecond

/-- The nanoseconds beyond the whole seconds. -/
def subsecond (duration : Duration) : Nat :=
  duration.nanoseconds % perSecond

/-- The whole microseconds. -/
def microseconds (duration : Duration) : Nat :=
  duration.nanoseconds / 1000

theorem ofParts_seconds_subsecond (duration : Duration) :
    ofParts duration.seconds duration.subsecond = duration := by
  cases duration
  simp [ofParts, seconds, subsecond, Nat.div_add_mod']

/-! ## Text -/

/-- The digits of a fraction with the given number of places, without trailing
zeros. -/
def fractionDigits (places fraction : Nat) : List Char :=
  let digits := (toString fraction).toList
  let padded := List.replicate (places - digits.length) '0' ++ digits
  (padded.reverse.dropWhile (· == '0')).reverse

/-- Write a number of nanoseconds in a unit of `10 ^ places` nanoseconds. -/
def inUnit (places nanoseconds : Nat) (unit : String) : String :=
  let whole := nanoseconds / Nat.pow 10 places
  let fraction := nanoseconds % Nat.pow 10 places
  let point := if fraction = 0 then "" else "." ++ String.ofList (fractionDigits places fraction)
  toString whole ++ point ++ unit

/-- The text of a duration: seconds if there is at least one, else milliseconds,
else microseconds, else nanoseconds. -/
def text (duration : Duration) : String :=
  let total := duration.nanoseconds
  if perSecond ≤ total then inUnit 9 total "s"
  else if 1000000 ≤ total then inUnit 6 total "ms"
  else if 1000 ≤ total then inUnit 3 total "µs"
  else inUnit 0 total "ns"

end Duration
end StagePipeline
