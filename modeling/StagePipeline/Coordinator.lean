import StagePipeline.Run

/-!
# Coordinators

A coordinator holds settings in range and an acceptable list of stages, and runs
batches through them at most once.
-/

namespace StagePipeline

/-- How far a coordinator has come. -/
inductive RunState where
  /-- It has not run yet. -/
  | idle
  /-- Its workers are up. -/
  | running
  /-- Every batch went through every stage. -/
  | completed
  /-- The run ended with a fault. -/
  | failed
  deriving DecidableEq, Repr

namespace RunState

/-- The name of a state. -/
def name : RunState → String
  | idle => "Idle"
  | running => "Running"
  | completed => "Completed"
  | failed => "Failed"

end RunState

/-! ## Lists of stages -/

namespace Stage

/-- A fault of a list of stages. -/
def listFault (reason : String) : Fault :=
  .configuration "stages" reason

/-- The fault of the first name that is empty or has been used before. -/
def nameFault? (used : List String) : List Stage → Option Fault
  | [] => none
  | stage :: rest =>
      if stage.name = "" then some (listFault "stage name must not be empty")
      else if stage.name ∈ used then
        some (listFault ("duplicate stage name '" ++ stage.name ++ "'"))
      else nameFault? (stage.name :: used) rest

/-- The fault of the first stage before the last one that always summarises. -/
def orderFault? (position : Nat) : List Stage → Option Fault
  | [] => none
  | [_] => none
  | stage :: next :: rest =>
      if stage.kind.isTerminal then
        some (listFault ("aggregate stage '" ++ stage.name ++
          "' must be the last stage (found at position " ++ toString position ++ ")"))
      else orderFault? (position + 1) (next :: rest)

/-- Accept a list of stages: there is one, their names differ and are not empty,
and only the last one always summarises.  Names are looked at first. -/
def validateList (stages : List Stage) : Except Fault Unit :=
  if stages.isEmpty then .error Run.noStages
  else
    match (nameFault? [] stages).or (orderFault? 0 stages) with
    | some fault => .error fault
    | none => .ok ()

end Stage

/-! ## Running -/

/-- A coordinator of a single run. -/
structure Coordinator where
  settings : Settings
  stages : List Stage
  state : RunState
  runId : RunId

/-- How a call of `Coordinator.run?` ends. -/
inductive RunResult where
  | report (report : Report)
  | fault (fault : Fault)
  | panic
  deriving DecidableEq

/-- What a run leaves: the coordinator, the result, and what the observer has been
told. -/
structure RunAnswer where
  coordinator : Coordinator
  result : RunResult
  told : List Finished

namespace Coordinator

/-- A coordinator over a fixed list of stages, if settings and stages are
acceptable.  Settings are looked at first. -/
def create (stages : List Stage) (settings : Settings) (runId : RunId) :
    Except Fault Coordinator := do
  settings.validate
  Stage.validateList stages
  return ⟨settings, stages, .idle, runId⟩

/-- A coordinator runs once only. -/
def alreadyStarted (coordinator : Coordinator) : Fault :=
  .configuration "coordinator"
    ("run " ++ coordinator.runId.text ++ " has already been started")

/-- What a run that has ended leaves of its coordinator.  An observer's panic
leaves the mark of a run in progress. -/
def answer (coordinator : Coordinator) (run : Run) : Run.Ending → RunAnswer
  | .completed =>
      ⟨{ coordinator with state := .completed }, .report (run.report coordinator.runId), run.told⟩
  | .failed fault => ⟨{ coordinator with state := .failed }, .fault fault, run.told⟩
  | .unwound => ⟨{ coordinator with state := .running }, .panic, run.told⟩

/-- Take batches through the stages, and let the run come to its end in this way.  There is
no answer if it does not come to an end. -/
def runBy?
    (coordinator : Coordinator)
    (toEnd : Run → Run)
    (clocks : Clocks)
    (observer? : Option Observer)
    (batches : List Batch) :
    Option RunAnswer :=
  if coordinator.state ≠ .idle then
    some ⟨coordinator, .fault coordinator.alreadyStarted, []⟩
  else
    match Run.start? coordinator.stages coordinator.settings clocks observer? batches with
    | none => some ⟨coordinator, .panic, []⟩
    | some started =>
        let ended := toEnd started
        ended.ending?.map (coordinator.answer ended)

/-- Take batches through the stages under the usual schedule.  There is no answer
if a stage holds a batch and has no deadline. -/
def run?
    (coordinator : Coordinator)
    (clocks : Clocks)
    (observer? : Option Observer)
    (batches : List Batch) :
    Option RunAnswer :=
  coordinator.runBy? Run.toEnd clocks observer? batches

/-- The answers that calls may have whose runs execute schedules in this way: those of all
schedules that come to an end. -/
def AnswersBy
    (coordinator : Coordinator)
    (execute? : Run → List Run.Action → Option (Run × List Run.Event))
    (clocks : Clocks)
    (observer? : Option Observer)
    (batches : List Batch)
    (answer : RunAnswer) :
    Prop :=
  if coordinator.state ≠ .idle then
    answer = ⟨coordinator, .fault coordinator.alreadyStarted, []⟩
  else
    match Run.start? coordinator.stages coordinator.settings clocks observer? batches with
    | none => answer = ⟨coordinator, .panic, []⟩
    | some started =>
        ∃ schedule events ended ending,
          execute? started schedule = some (ended, events) ∧
            ended.ending? = some ending ∧ answer = coordinator.answer ended ending

/-- The answers that calls of `run?` may have. -/
def Answers
    (coordinator : Coordinator)
    (clocks : Clocks)
    (observer? : Option Observer)
    (batches : List Batch)
    (answer : RunAnswer) :
    Prop :=
  coordinator.AnswersBy Run.execute? clocks observer? batches answer

end Coordinator
end StagePipeline
