import StagePipeline.Binary64

/-!
# Summaries and totals

The summary of a batch holds the count, sum, average and bounds of its values.
A tally folds summaries, in order, into the totals over all batches.
-/

namespace StagePipeline

/-- The average of a sum over that many values, zero over none. -/
def average (sum : Float) (count : Nat) : Float :=
  if count = 0 then 0 else sum / Float.ofNat count

/-- What a batch comes to.  Over no values the bounds are plus and minus
infinity. -/
structure Summary where
  count : Nat
  sum : Float
  average : Float
  least : Float
  greatest : Float
  deriving DecidableEq

namespace Summary

/-- The summary over no values. -/
def empty : Summary :=
  ⟨0, 0, 0, Binary64.positiveInfinity, Binary64.negativeInfinity⟩

instance : Inhabited Summary := ⟨empty⟩

/-- The summary over some values, in order. -/
def ofValues (values : List Float) : Summary :=
  let sum := values.foldl (· + ·) 0
  { count := values.length
    sum := sum
    average := StagePipeline.average sum values.length
    least := values.foldl Binary64.lesser Binary64.positiveInfinity
    greatest := values.foldl Binary64.greater Binary64.negativeInfinity }

/-- Whether the summary is over no values. -/
def isEmpty (summary : Summary) : Bool :=
  summary.count == 0

/-- The least and the greatest value, if there is a value. -/
def bounds? (summary : Summary) : Option (Float × Float) :=
  if summary.isEmpty then none else some (summary.least, summary.greatest)

@[simp] theorem ofValues_count (values : List Float) :
    (ofValues values).count = values.length :=
  rfl

end Summary

/-- What several batches come to together. -/
structure Totals where
  count : Nat
  sum : Float
  average : Float
  least : Option Float
  greatest : Option Float
  batchCount : Nat
  deriving DecidableEq

/-- The running state from which totals are made. -/
structure Tally where
  count : Nat
  sum : Float
  least : Option Float
  greatest : Option Float
  batchCount : Nat
  deriving DecidableEq

namespace Tally

/-- The tally of no summaries. -/
def empty : Tally :=
  ⟨0, 0, none, none, 0⟩

/-- Choose between a bound that may be missing and a new one. -/
def mergeBound (choose : Float → Float → Float) (bound : Option Float) (value : Float) :
    Option Float :=
  match bound with
  | none => some value
  | some current => some (choose current value)

/-- Add one summary.  An empty summary adds its sum but no bounds. -/
def push (tally : Tally) (summary : Summary) : Tally :=
  { count := tally.count + summary.count
    sum := tally.sum + summary.sum
    least :=
      if summary.isEmpty then tally.least
      else mergeBound Binary64.lesser tally.least summary.least
    greatest :=
      if summary.isEmpty then tally.greatest
      else mergeBound Binary64.greater tally.greatest summary.greatest
    batchCount := tally.batchCount + 1 }

@[simp] theorem push_count (tally : Tally) (summary : Summary) :
    (tally.push summary).count = tally.count + summary.count :=
  rfl

@[simp] theorem push_batchCount (tally : Tally) (summary : Summary) :
    (tally.push summary).batchCount = tally.batchCount + 1 :=
  rfl

/-- Add one summary, if the counts together fit a word.  If they do not, the
addition stops after the batch has been counted, and leaves that as the error. -/
def pushChecked (tally : Tally) (summary : Summary) : Except Tally Tally :=
  if tally.count + summary.count < Word.limit then .ok (tally.push summary)
  else .error { tally with batchCount := tally.batchCount + 1 }

/-- The totals so far. -/
def finish (tally : Tally) : Totals :=
  { count := tally.count
    sum := tally.sum
    average := average tally.sum tally.count
    least := tally.least
    greatest := tally.greatest
    batchCount := tally.batchCount }

/-- The tally of a list of summaries. -/
def ofList (summaries : List Summary) : Tally :=
  summaries.foldl push empty

@[simp] theorem ofList_nil : ofList [] = empty :=
  rfl

theorem ofList_append_singleton (summaries : List Summary) (summary : Summary) :
    ofList (summaries ++ [summary]) = (ofList summaries).push summary := by
  simp [ofList]

end Tally

namespace Totals

/-- The totals of a list of summaries. -/
def combine (summaries : List Summary) : Totals :=
  (Tally.ofList summaries).finish

/-- The totals of a list of summaries, if all counts on the way fit a word. -/
def combineChecked? (summaries : List Summary) : Option Totals :=
  (summaries.foldlM (fun tally summary => (Tally.pushChecked tally summary).toOption)
    Tally.empty).map Tally.finish

instance : Inhabited Totals := ⟨combine []⟩

end Totals
end StagePipeline
