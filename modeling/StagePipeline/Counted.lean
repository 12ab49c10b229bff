import StagePipeline.Session

/-!
# Runs that count in words

The counters of a run are words.  Where one of them would overflow, the call of the
coordinator unwinds, as it does when an observer panics: what the hop has come to is dropped,
the observer is not told of it, and the workers are stopped.  All other steps are those of a
run that counts in natural numbers.
-/

namespace StagePipeline
namespace Run

/-- Whether the counters of its stage take a hop in, and the tally the batch if that is
finished. -/
def takesIn (run : Run) (index ordinal recordsIn : Nat) (output : StageOutput) : Bool :=
  let elapsed := run.clocks.elapsed run.summaries.length ordinal
  let counted := run.metrics[ordinal]?.all fun metrics =>
    (metrics.recordChecked recordsIn output.recordCount elapsed).isOk
  match route index (ordinal + 1 == run.workers.length) output with
  | .finished summary => counted && (run.tally.pushChecked summary).isOk
  | _ => counted

/-- How a run unwinds when a call returns with what its counters do not take in. -/
def overflow? (run : Run) : Action → Option Transition
  | .client action =>
      match run.control with
      | .hop index ordinal recordsIn =>
          match run.workers[ordinal]? with
          | none => none
          | some worker =>
              match worker.step action with
              | some ⟨next, some (.answered batch (.ok output))⟩ =>
                  if isCallerAction action && !run.takesIn index ordinal recordsIn output then
                    some
                      ⟨{ run with workers := run.workers.set ordinal next }.conclude .unwound,
                        some (ordinal, .answered batch (.ok output))⟩
                  else none
              | _ => none
      | _ => none
  | _ => none

/-- What comes of an action, if it can be taken, where counters are words. -/
def stepCounted (run : Run) (action : Action) : Option Transition :=
  (run.overflow? action).or (run.step action)

/-- The state after a schedule and all that is seen on the way, where counters are words. -/
def executeCounted? (run : Run) : List Action → Option (Run × List Event)
  | [] => some (run, [])
  | action :: rest =>
      match run.stepCounted action with
      | none => none
      | some transition =>
          (transition.next.executeCounted? rest).map fun (last, events) =>
            (last, transition.event?.toList ++ events)

/-- Take at most so many actions of the usual schedule, where counters are words. -/
def followCounted : Nat → Run → Run
  | 0, run => run
  | steps + 1, run =>
      match run.usualAction?.bind run.stepCounted with
      | none => run
      | some transition => followCounted steps transition.next

/-- Let a run come to its end under the usual schedule, where counters are words. -/
def toEndCounted (run : Run) : Run :=
  followCounted run.stepBound run

end Run

namespace Coordinator

/-- Take batches through the stages under the usual schedule, and count in words. -/
def runCounted?
    (coordinator : Coordinator)
    (clocks : Clocks)
    (observer? : Option Observer)
    (batches : List Batch) :
    Option RunAnswer :=
  coordinator.runBy? Run.toEndCounted clocks observer? batches

/-- The answers that calls may have that count in words. -/
def AnswersCounted
    (coordinator : Coordinator)
    (clocks : Clocks)
    (observer? : Option Observer)
    (batches : List Batch)
    (answer : RunAnswer) :
    Prop :=
  coordinator.AnswersBy Run.executeCounted? clocks observer? batches answer

/-- What may come of a call that counts in words. -/
def RespondsCounted (coordinator : Coordinator) (call : Call) (response : Response) : Prop :=
  coordinator.RespondsBy Run.executeCounted? call response

end Coordinator
end StagePipeline
