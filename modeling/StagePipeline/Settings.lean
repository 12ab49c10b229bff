import StagePipeline.Fault

/-!
# Settings

The settings of a run and the bounds on each of them.  Settings out of bounds
are refused with one line for every offending field.
-/

namespace StagePipeline

/-- How batches are cut and workers are run.  Times are in milliseconds. -/
structure Settings where
  /-- Records per batch when raw values are cut into batches. -/
  batchSize : Nat
  /-- Commands that wait in front of each worker. -/
  mailboxCapacity : Nat
  /-- Time that a worker has to stop. -/
  drainTimeout : Nat
  /-- Time that a worker has to answer a batch; without it there is no limit. -/
  stageTimeout : Option Nat
  /-- Every worker thread is named by this text, a hyphen and its stage. -/
  threadNamePrefix : String
  deriving DecidableEq, Repr

namespace Settings

/-- The settings that hold where nothing else is given. -/
def standard : Settings :=
  ⟨100, 1, 100, none, "tallyio-stage"⟩

instance : Inhabited Settings := ⟨standard⟩

/-- Settings with short limits for tests. -/
def testing : Settings :=
  { standard with batchSize := 10, drainTimeout := 50, stageTimeout := some 5000 }

/-- The time that a worker has to stop. -/
def drainLimit (settings : Settings) : Duration :=
  .ofMilliseconds settings.drainTimeout

/-- The time that a worker has to answer a batch. -/
def stageLimit? (settings : Settings) : Option Duration :=
  settings.stageTimeout.map .ofMilliseconds

/-- The name of the thread that hosts a stage. -/
def threadName (settings : Settings) (stageName : String) : String :=
  settings.threadNamePrefix ++ "-" ++ stageName

/-! ## Fields and bounds -/

/-- A field of the settings. -/
inductive Field where
  | batchSize
  | drainTimeout
  | mailboxCapacity
  | stageTimeout
  | threadNamePrefix
  deriving DecidableEq, Repr

namespace Field

/-- The key under which a field is written. -/
def key : Field → String
  | batchSize => "batch_size"
  | drainTimeout => "drain_timeout_ms"
  | mailboxCapacity => "mailbox_capacity"
  | stageTimeout => "stage_timeout_ms"
  | threadNamePrefix => "thread_name_prefix"

/-- All fields in the order of their keys. -/
def all : List Field :=
  [batchSize, drainTimeout, mailboxCapacity, stageTimeout, threadNamePrefix]

/-- The smallest number, or shortest length, that a field may have. -/
def least : Field → Nat
  | _ => 1

/-- The largest number, or greatest length, that a field may have. -/
def greatest : Field → Nat
  | batchSize => 1000000
  | drainTimeout => 60000
  | mailboxCapacity => 1024
  | stageTimeout => 3600000
  | threadNamePrefix => 64

end Field

/-- The number of a field that its bounds are about: for a text its length in
bytes, for a missing limit none. -/
def measure? (settings : Settings) : Field → Option Nat
  | .batchSize => some settings.batchSize
  | .drainTimeout => some settings.drainTimeout
  | .mailboxCapacity => some settings.mailboxCapacity
  | .stageTimeout => settings.stageTimeout
  | .threadNamePrefix => some settings.threadNamePrefix.utf8ByteSize

/-- Whether every field is within its bounds. -/
def InRange (settings : Settings) : Prop :=
  ∀ field, ∀ number ∈ settings.measure? field,
    field.least ≤ number ∧ number ≤ field.greatest

/-! ## Violations -/

/-- What is wrong with a field, if anything. -/
def violation? (settings : Settings) (field : Field) : Option String :=
  match settings.measure? field with
  | none => none
  | some number =>
      let subject := if field = .threadNamePrefix then "length is " else ""
      if number < field.least then
        some (field.key ++ ": " ++ subject ++ "lower than " ++ toString field.least)
      else if field.greatest < number then
        some (field.key ++ ": " ++ subject ++ "greater than " ++ toString field.greatest)
      else none

/-- A line for every offending field. -/
def violations (settings : Settings) : List String :=
  Field.all.filterMap settings.violation?

/-- Accept settings without violations. -/
def validate (settings : Settings) : Except Fault Unit :=
  match settings.violations with
  | [] => .ok ()
  | lines =>
      .error (.configuration "pipeline_config"
        ("Validation failed: " ++ String.join (lines.map (· ++ "\n"))))

end Settings
end StagePipeline
