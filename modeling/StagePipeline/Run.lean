import StagePipeline.Report
import StagePipeline.Worker.Schedule

/-!
# Runs

A run takes batches, one at a time and in input order, through all stages, each
on its own worker.  The coordinator of the run is the only client of its
workers.  It ends the run at the first fault, tells an observer about every
finished batch, and stops all workers in the end.

A run is a machine: its state holds the state of every worker, and its steps are
those of the workers' threads and those of the coordinator, in any order.  Its
counters are natural numbers: the machine whose counters are words goes the same
way until one of them overflows, and unwinds there.
-/

namespace StagePipeline

/-- The times that a run takes from outside. -/
structure Clocks where
  /-- When the stage at a position is applied to each of its commands. -/
  stamp : Nat → UInt64 → Timestamp
  /-- How long the hop of a batch to a stage takes, by their positions. -/
  elapsed : Nat → Nat → Duration
  /-- How long the whole run takes. -/
  total : Duration

/-- A finished batch: its index and its summary. -/
abbrev Finished := Nat × Summary

/-- An observer is told about every finished batch.  It may panic, depending on
all that it has been told, the present batch included. -/
structure Observer where
  panics : List Finished → Bool

namespace Observer

/-- The observer that always returns. -/
def silent : Observer :=
  ⟨fun _ => false⟩

/-- The observer that panics at the first batch with a given index. -/
def panickingAt (index : Nat) : Observer :=
  ⟨fun finished => finished.getLast?.any fun last => last.1 == index⟩

end Observer

namespace Run

/-- How a run ends. -/
inductive Ending where
  /-- Every batch went through every stage. -/
  | completed
  /-- A hop failed. -/
  | failed (fault : Fault)
  /-- The observer panicked. -/
  | unwound
  deriving DecidableEq

/-- What the coordinator is doing. -/
inductive Control where
  /-- It is between two batches. -/
  | ready
  /-- A batch, which came into the run with this index, is at the stage at this
  position, and went there with so many records. -/
  | hop (index ordinal recordsIn : Nat)
  /-- It stops the workers from this position on. -/
  | stopping (ending : Ending) (ordinal : Nat)
  /-- It gives up the workers from this position on. -/
  | releasing (ending : Ending) (ordinal : Nat)
  /-- The run has ended. -/
  | over (ending : Ending)
  deriving DecidableEq

end Run

/-- The state of a run. -/
structure Run where
  workers : List Worker
  clocks : Clocks
  observer? : Option Observer
  /-- The input batches that the run has not begun. -/
  waiting : List Batch
  /-- The metrics of every stage. -/
  metrics : List StageMetrics
  tally : Tally
  /-- The summaries of the finished batches, in input order. -/
  summaries : List Summary
  /-- What the observer has been told, in order. -/
  told : List Finished
  control : Run.Control

namespace Run

/-- Start the workers of a list of stages, the first at the given position.  There
are none if one of the threads cannot bear its name. -/
def spawnFrom?
    (settings : Settings)
    (clocks : Clocks)
    (ordinal : Nat) :
    List Stage → Option (List Worker)
  | [] => some []
  | stage :: rest => do
      let worker ← Worker.spawn? stage ordinal settings (clocks.stamp ordinal)
      let others ← spawnFrom? settings clocks (ordinal + 1) rest
      return worker :: others

/-- A run whose workers have just been started, if they could be. -/
def start?
    (stages : List Stage)
    (settings : Settings)
    (clocks : Clocks)
    (observer? : Option Observer)
    (batches : List Batch) :
    Option Run := do
  let workers ← spawnFrom? settings clocks 0 stages
  return {
    workers
    clocks
    observer?
    waiting := batches
    metrics := stages.map fun stage => StageMetrics.new stage.name
    tally := Tally.empty
    summaries := []
    told := []
    control := .ready }

/-! ## Routing -/

/-- Begin to stop the workers. -/
def conclude (run : Run) (ending : Ending) : Run :=
  { run with control := .stopping ending 0 }

/-- End the run with a fault of a stage. -/
def failAt (run : Run) (worker : Worker) (index : Nat) (reason : String) : Run :=
  run.conclude (.failed (.stageFailed worker.name index reason))

/-- There is no stage that could take a batch. -/
def noStages : Fault :=
  .configuration "stages" "pipeline requires at least one stage"

/-- A batch is finished: add its summary to the tally, tell the observer, and keep
the summary unless the observer panics. -/
def completeBatch (run : Run) (index : Nat) (summary : Summary) : Run :=
  let tallied := { run with tally := run.tally.push summary }
  match run.observer? with
  | none => { tallied with summaries := run.summaries ++ [summary], control := .ready }
  | some observer =>
      let told := run.told ++ [(index, summary)]
      if observer.panics told then { tallied with told }.conclude .unwound
      else
        { tallied with
          told
          summaries := run.summaries ++ [summary]
          control := .ready }

/-- Count a hop. -/
def countHop (run : Run) (ordinal recordsIn recordsOut : Nat) : Run :=
  let elapsed := run.clocks.elapsed run.summaries.length ordinal
  { run with
    metrics := run.metrics.modify ordinal fun metrics =>
      metrics.record recordsIn recordsOut elapsed }

/-- What becomes of a batch after a hop. -/
inductive Route where
  /-- It goes on to the next stage. -/
  | next (batch : Batch)
  /-- It is finished. -/
  | finished (summary : Summary)
  /-- The output does not fit, for this reason. -/
  | refused (reason : String)
  deriving DecidableEq

/-- Where the output of a stage goes.  The last stage must summarise, and every
other stage must hand on a batch with the index it came in with. -/
def route (index : Nat) (isLast : Bool) : StageOutput → Route
  | .batch batch =>
      if isLast then .refused "terminal stage produced a batch instead of an aggregate"
      else if batch.index = index then .next batch
      else .refused ("stage changed batch index to " ++ toString batch.index)
  | .summary summary =>
      if isLast then .finished summary
      else .refused "non-terminal stage produced an aggregate"

/-- What a step lets be seen: the position of a worker, and what is seen of it. -/
abbrev Event := Nat × Worker.Event

/-- A state and what is seen on the way to it. -/
structure Transition where
  next : Run
  event? : Option Event

/-- Call the worker at a position.  Nobody else calls it, so that the call is not
refused there and then. -/
def enter (run : Run) (index ordinal : Nat) (batch : Batch) : Option Run :=
  match run.workers[ordinal]? with
  | none => some (run.conclude (.failed noStages))
  | some worker =>
      match worker.step (.submit batch) with
      | some ⟨next, none⟩ =>
          some { run with
            workers := run.workers.set ordinal next
            control := .hop index ordinal batch.size }
      | some ⟨_, some (.answered _ (.error fault))⟩ => some (run.conclude (.failed fault))
      | _ => none

/-- A hop has returned. -/
def arrive
    (run : Run)
    (worker : Worker)
    (index ordinal recordsIn : Nat)
    (reply : Reply) :
    Option Run :=
  match reply with
  | .error fault => some (run.conclude (.failed fault))
  | .ok output =>
      let counted := run.countHop ordinal recordsIn output.recordCount
      match route index (ordinal + 1 == run.workers.length) output with
      | .next batch => counted.enter index (ordinal + 1) batch
      | .finished summary => some (counted.completeBatch index summary)
      | .refused reason => some (counted.failAt worker index reason)

/-! ## Steps -/

/-- What a thread or the coordinator does next. -/
inductive Action where
  /-- The thread of the worker at a position takes a step. -/
  | thread (ordinal : Nat) (action : Worker.Action)
  /-- The coordinator takes the next batch, or begins to stop the workers. -/
  | take
  /-- The coordinator takes a step as the caller or the owner of a worker. -/
  | client (action : Worker.Action)
  deriving DecidableEq

/-- Whether an action is one of the thread. -/
def isThreadAction : Worker.Action → Bool
  | .receive | .hangUp | .check | .begin | .finish | .rest | .reply | .exit => true
  | _ => false

/-- Whether an action is one of a call in progress. -/
def isCallerAction : Worker.Action → Bool
  | .inspect | .send | .collect | .expire | .disconnect => true
  | _ => false

/-- Whether an action is one of stopping a worker. -/
def isStopAction : Worker.Action → Bool
  | .terminate | .close | .join | .abandon => true
  | _ => false

/-- The coordinator takes the next batch; if there is none the run is complete. -/
def stepTake (run : Run) : Option Transition :=
  match run.control with
  | .ready =>
      match run.waiting with
      | [] => some ⟨run.conclude .completed, none⟩
      | batch :: rest =>
          ({ run with waiting := rest }.enter batch.index 0 batch).map fun next => ⟨next, none⟩
  | _ => none

/-- The thread of a worker takes a step. -/
def stepThread (run : Run) (ordinal : Nat) (action : Worker.Action) : Option Transition := do
  let worker ← run.workers[ordinal]?
  if isThreadAction action then
    let ⟨next, event?⟩ ← worker.step action
    return ⟨{ run with workers := run.workers.set ordinal next }, event?.map (ordinal, ·)⟩
  else none

/-- The coordinator takes a step of the call in progress. -/
def stepCall (run : Run) (index ordinal recordsIn : Nat) (action : Worker.Action) :
    Option Transition := do
  let worker ← run.workers[ordinal]?
  if isCallerAction action then
    let ⟨next, event?⟩ ← worker.step action
    let moved := { run with workers := run.workers.set ordinal next }
    match event? with
    | some (.answered batch reply) =>
        let arrived ← moved.arrive worker index ordinal recordsIn reply
        return ⟨arrived, some (ordinal, .answered batch reply)⟩
    | _ => return ⟨moved, event?.map (ordinal, ·)⟩
  else none

/-- The coordinator takes a step of stopping a worker, and goes on to the next one
when the worker has been stopped. -/
def stepStop (run : Run) (ending : Ending) (ordinal : Nat) (action : Worker.Action) :
    Option Transition :=
  match run.workers[ordinal]? with
  | none => some ⟨{ run with control := .releasing ending 0 }, none⟩
  | some worker =>
      if isStopAction action then
        (worker.step action).map fun ⟨next, event?⟩ =>
          let control := match event? with
            | some _ => .stopping ending (ordinal + 1)
            | none => run.control
          ⟨{ run with workers := run.workers.set ordinal next, control },
            event?.map (ordinal, ·)⟩
      else none

/-- The coordinator gives up a worker. -/
def stepRelease (run : Run) (ending : Ending) (ordinal : Nat) : Option Transition :=
  match run.workers[ordinal]? with
  | none => some ⟨{ run with control := .over ending }, none⟩
  | some worker =>
      (worker.step .release).map fun ⟨next, _⟩ =>
        ⟨{ run with
            workers := run.workers.set ordinal next
            control := .releasing ending (ordinal + 1) }, none⟩

/-- What comes of an action, if it can be taken. -/
def step (run : Run) : Action → Option Transition
  | .thread ordinal action => run.stepThread ordinal action
  | .take => run.stepTake
  | .client action =>
      match run.control with
      | .ready => none
      | .hop index ordinal recordsIn => run.stepCall index ordinal recordsIn action
      | .stopping ending ordinal => run.stepStop ending ordinal action
      | .releasing ending ordinal => run.stepRelease ending ordinal
      | .over _ => none

/-- The state after a schedule and all that is seen on the way, if every action
can be taken in its turn. -/
def execute? (run : Run) : List Action → Option (Run × List Event)
  | [] => some (run, [])
  | action :: rest =>
      match run.step action with
      | none => none
      | some transition =>
          (transition.next.execute? rest).map fun (last, events) =>
            (last, transition.event?.toList ++ events)

/-! ## The usual schedule -/

/-- The first thread that need not wait, and what it does next. -/
def threadAction? (ordinal : Nat) : List Worker → Option Action
  | [] => none
  | worker :: rest =>
      match worker.threadAction? false with
      | some action => some (.thread ordinal action)
      | none => threadAction? (ordinal + 1) rest

/-- How the owner of a worker goes on to stop it. -/
def stopAction (worker : Worker) : Worker.Action :=
  match worker.tenure with
  | .stopping => .close
  | .draining => if worker.isGone then .join else .abandon
  | _ => .terminate

/-- What the coordinator does next when all threads wait.  It lets a deadline pass
only if it has to wait itself; without a deadline it waits for ever. -/
def coordinatorAction? (run : Run) : Option Action :=
  match run.control with
  | .ready => some .take
  | .hop _ ordinal _ =>
      match run.workers[ordinal]? with
      | none => none
      | some worker =>
          (worker.callerAction?.or
            (if worker.limit?.isSome then some .expire else none)).map .client
  | .stopping _ ordinal =>
      match run.workers[ordinal]? with
      | none => some (.client .terminate)
      | some worker => some (.client (stopAction worker))
  | .releasing _ _ => some (.client .release)
  | .over _ => none

/-- The next action under the usual schedule. -/
def usualAction? (run : Run) : Option Action :=
  (threadAction? 0 run.workers).or run.coordinatorAction?

/-- Take at most so many actions of the usual schedule. -/
def follow : Nat → Run → Run
  | 0, run => run
  | steps + 1, run =>
      match run.usualAction?.bind run.step with
      | none => run
      | some transition => follow steps transition.next

/-- More actions than a run can take: less than sixteen for every batch at every
stage, and as many to stop and give up every worker. -/
def stepBound (run : Run) : Nat :=
  16 * (run.waiting.length + 2) * (run.workers.length + 2)

/-- Let a run come to its end under the usual schedule. -/
def toEnd (run : Run) : Run :=
  follow run.stepBound run

/-- The ending of a run that has ended. -/
def ending? (run : Run) : Option Ending :=
  match run.control with
  | .over ending => some ending
  | _ => none

/-- The report of a completed run. -/
def report (run : Run) (runId : RunId) : Report :=
  { runId
    totals := run.tally.finish
    summaries := run.summaries
    metrics := run.metrics
    duration := run.clocks.total }

end Run
end StagePipeline
