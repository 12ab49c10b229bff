import StagePipeline.Time.Duration

/-!
# Failures and faults

A failure arises inside a stage.  The worker that hosts the stage tags it with
the stage's name and the batch's index, which makes it a fault.  Every fault
ends the run it occurs in.
-/

namespace StagePipeline

/-- Why a run, or the preparation of one, went wrong. -/
inductive Fault where
  /-- A raw text is not a number. -/
  | parseFailed (stage : String) (batchIndex recordId : Nat) (text reason : String)
  /-- A stage failed in any other way. -/
  | stageFailed (stage : String) (batchIndex : Nat) (reason : String)
  /-- A worker could not take or answer a batch. -/
  | workerUnavailable (stage reason : String)
  /-- A worker did not answer within its deadline. -/
  | timedOut (stage : String) (batchIndex : Nat) (limit : Duration)
  /-- The settings or the list of stages are not acceptable. -/
  | configuration (field reason : String)
  /-- The layered settings could not be read. -/
  | unreadableLayers
  /-- The settings document could not be read. -/
  | unreadableDocument
  deriving DecidableEq, Repr

namespace Fault

/-- The stage that a fault is attributed to. -/
def stageName? : Fault → Option String
  | parseFailed stage _ _ _ _ => some stage
  | stageFailed stage _ _ => some stage
  | workerUnavailable stage _ => some stage
  | timedOut stage _ _ => some stage
  | configuration _ _ => none
  | unreadableLayers => none
  | unreadableDocument => none

/-- The index of the batch that was being processed. -/
def batchIndex? : Fault → Option Nat
  | parseFailed _ batchIndex _ _ _ => some batchIndex
  | stageFailed _ batchIndex _ => some batchIndex
  | workerUnavailable _ _ => none
  | timedOut _ batchIndex _ => some batchIndex
  | configuration _ _ => none
  | unreadableLayers => none
  | unreadableDocument => none

/-- Whether running the same batches again could succeed: stages are pure, so
their own failures come back, while an unavailable worker and a missed deadline
need not. -/
def isRetryable : Fault → Bool
  | workerUnavailable _ _ => true
  | timedOut _ _ _ => true
  | _ => false

/-- The text of a fault.  Why a file or document is unreadable is not part of
it. -/
def message : Fault → String
  | parseFailed stage batchIndex recordId text reason =>
      "Parse failed in stage '" ++ stage ++ "' for batch " ++ toString batchIndex ++
        ": record " ++ toString recordId ++ " value '" ++ text ++ "' - " ++ reason
  | stageFailed stage batchIndex reason =>
      "Stage '" ++ stage ++ "' failed for batch " ++ toString batchIndex ++ ": " ++ reason
  | workerUnavailable stage reason =>
      "Worker for stage '" ++ stage ++ "' is unavailable: " ++ reason
  | timedOut stage batchIndex limit =>
      "Stage '" ++ stage ++ "' timed out after " ++ limit.text ++ " on batch " ++
        toString batchIndex
  | configuration field reason =>
      "Configuration error: " ++ field ++ " - " ++ reason
  | unreadableLayers => "Configuration loading failed"
  | unreadableDocument => "TOML configuration error"

end Fault

/-- Why a stage could not process a batch. -/
inductive Failure where
  /-- A raw text is not a number. -/
  | parse (recordId : Nat) (text reason : String)
  /-- Any other reason. -/
  | transform (reason : String)
  deriving DecidableEq, Repr

namespace Failure

/-- The text of a failure. -/
def message : Failure → String
  | parse recordId text reason =>
      "record " ++ toString recordId ++ " value '" ++ text ++ "' is not numeric: " ++ reason
  | transform reason => reason

/-- Attribute a failure to a stage and a batch. -/
def tag (stage : String) (batchIndex : Nat) : Failure → Fault
  | parse recordId text reason => Fault.parseFailed stage batchIndex recordId text reason
  | transform reason => Fault.stageFailed stage batchIndex reason

/-- The failure of a custom transform: the messages of its causes, root first,
written with the outermost first. -/
def ofCauses (causes : List String) : Failure :=
  transform (String.intercalate ": " causes.reverse)

end Failure
end StagePipeline
