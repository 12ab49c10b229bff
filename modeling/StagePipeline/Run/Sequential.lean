import StagePipeline.Run

/-!
# Runs without threads

The same batches taken through the same stages by one thread: in input order,
each batch through all stages before the next one begins, up to the first fault.
This is what a run comes to under every schedule in which no deadline passes.
-/

namespace StagePipeline
namespace Sequential

/-- What a worker would reply.  A stage that takes its thread down leaves the
caller without a reply. -/
def reply (stage : Stage) (now : Timestamp) (batch : Batch) : Reply :=
  match stage.reply? now batch with
  | some reply => reply
  | none =>
      .error (.workerUnavailable stage.name "worker thread exited before replying")

/-- Take a batch through the stages from a position on.  The batch came into the
run in this turn, with this index. -/
def passBatch
    (clocks : Clocks)
    (turn index ordinal : Nat) :
    List Stage → Batch → Except Fault Summary
  | [], _ => .error Run.noStages
  | stage :: rest, batch =>
      match reply stage (clocks.stamp ordinal (UInt64.ofNat turn)) batch with
      | .error fault => .error fault
      | .ok output =>
          match Run.route index rest.isEmpty output with
          | .next next => passBatch clocks turn index (ordinal + 1) rest next
          | .finished summary => .ok summary
          | .refused reason => .error (.stageFailed stage.name index reason)

/-- The finished batches in front of the first one that fails, and the fault of that
one. -/
structure Outcome where
  finished : List Finished
  fault? : Option Fault
  deriving DecidableEq

/-- Take batches through all stages, the first one in the given turn. -/
def passAll (clocks : Clocks) (stages : List Stage) : Nat → List Batch → Outcome
  | _, [] => ⟨[], none⟩
  | turn, batch :: rest =>
      match passBatch clocks turn batch.index 0 stages batch with
      | .error fault => ⟨[], some fault⟩
      | .ok summary =>
          let outcome := passAll clocks stages (turn + 1) rest
          { outcome with finished := (batch.index, summary) :: outcome.finished }

/-- The totals of the finished batches. -/
def Outcome.totals (outcome : Outcome) : Totals :=
  Totals.combine (outcome.finished.map Prod.snd)

end Sequential
end StagePipeline
