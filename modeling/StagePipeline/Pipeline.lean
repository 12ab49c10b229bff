import StagePipeline.Coordinator

/-!
# Pipelines

Entry points that run batches through stages once and for all.  The identifier
of the run and its times come from outside.  There is no result if a stage holds
a batch and has no deadline.
-/

namespace StagePipeline

/-- What a single run takes from outside. -/
structure Surroundings where
  runId : RunId
  clocks : Clocks

namespace Pipeline

/-- The version of this library. -/
def version : String := "0.1.0"

/-- Run batches, and tell an observer about every finished batch. -/
def runObserved
    (surroundings : Surroundings)
    (stages : List Stage)
    (batches : List Batch)
    (settings : Settings)
    (observer? : Option Observer) :
    Option (RunResult × List Finished) :=
  match Coordinator.create stages settings surroundings.runId with
  | .error fault => some (.fault fault, [])
  | .ok coordinator =>
      (coordinator.run? surroundings.clocks observer? batches).map fun answer =>
        (answer.result, answer.told)

/-- Run batches under some settings. -/
def run
    (surroundings : Surroundings)
    (stages : List Stage)
    (batches : List Batch)
    (settings : Settings) :
    Option RunResult :=
  (runObserved surroundings stages batches settings none).map Prod.fst

/-- Run batches under the standard settings; of the report only totals and
summaries are of interest. -/
def runStandard
    (surroundings : Surroundings)
    (stages : List Stage)
    (batches : List Batch) :
    Option RunResult :=
  run surroundings stages batches Settings.standard

/-- Cut raw values into batches as the settings say, and run these.  The settings
are looked at first. -/
def runValues
    (surroundings : Surroundings)
    (stages : List Stage)
    (values : List String)
    (settings : Settings) :
    Option RunResult :=
  match settings.validate with
  | .error fault => some (.fault fault)
  | .ok () =>
      match Batch.chunks? settings.batchSize values with
      | none => some .panic
      | some batches => run surroundings stages batches settings

/-- The fault of a background run that panics. -/
def lostTask : Fault :=
  .workerUnavailable "coordinator" "the task has panicked"

/-- Run batches in the background, where a panic becomes a fault. -/
def runInBackground
    (surroundings : Surroundings)
    (stages : List Stage)
    (batches : List Batch)
    (settings : Settings) :
    Option RunResult :=
  (run surroundings stages batches settings).map fun
    | .panic => .fault lostTask
    | result => result

end Pipeline
end StagePipeline
