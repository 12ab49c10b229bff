import StagePipeline.RunId
import StagePipeline.Summary
import StagePipeline.Time.Duration
import StagePipeline.Word

/-!
# Metrics and reports

The metrics of a stage count what went into it and what came out of it.  The
report of a run holds the summary of every batch, the totals over them and the
metrics of every stage.
-/

namespace StagePipeline

/-- The counters of one stage. -/
structure StageMetrics where
  stageName : String
  batches : Nat
  recordsIn : Nat
  recordsOut : Nat
  totalMicroseconds : Nat
  averageMicroseconds : Nat
  deriving DecidableEq, Repr, Inhabited

namespace StageMetrics

/-- A stage that has not processed a batch yet. -/
def new (stageName : String) : StageMetrics :=
  ⟨stageName, 0, 0, 0, 0, 0⟩

/-- Count one hop: the records that went in, those that came out, and the time
it took, which counts as the longest time in a word if it is longer. -/
def record
    (metrics : StageMetrics)
    (recordsIn recordsOut : Nat)
    (elapsed : Duration) :
    StageMetrics :=
  let total := metrics.totalMicroseconds + min elapsed.microseconds (Word.limit - 1)
  { metrics with
    batches := metrics.batches + 1
    recordsIn := metrics.recordsIn + recordsIn
    recordsOut := metrics.recordsOut + recordsOut
    totalMicroseconds := total
    averageMicroseconds := total / (metrics.batches + 1) }

/-- Count one hop, if all counters fit a word.  If one does not, the counters in
front of it have been set already, and are left as the error. -/
def recordChecked
    (metrics : StageMetrics)
    (recordsIn recordsOut : Nat)
    (elapsed : Duration) :
    Except StageMetrics StageMetrics :=
  let next := metrics.record recordsIn recordsOut elapsed
  let left := { metrics with batches := next.batches }
  if Word.limit ≤ next.batches then .error metrics
  else if Word.limit ≤ next.recordsIn then .error left
  else
    let left := { left with recordsIn := next.recordsIn }
    if Word.limit ≤ next.recordsOut then .error left
    else
      let left := { left with recordsOut := next.recordsOut }
      if Word.limit ≤ next.totalMicroseconds then .error left else .ok next

@[simp] theorem record_stageName
    (metrics : StageMetrics)
    (recordsIn recordsOut : Nat)
    (elapsed : Duration) :
    (metrics.record recordsIn recordsOut elapsed).stageName = metrics.stageName :=
  rfl

end StageMetrics

/-- What a completed run comes to.  The summaries are in input order and the
metrics in stage order. -/
structure Report where
  runId : RunId
  totals : Totals
  summaries : List Summary
  metrics : List StageMetrics
  duration : Duration
  deriving DecidableEq

end StagePipeline
