import StagePipeline.Decimal.Literal
import StagePipeline.Text.Blank
import StagePipeline.Fault
import StagePipeline.Record
import StagePipeline.Summary

/-!
# Stages

A stage is a name and what it does to a batch.  The four built-in kinds read
raw texts, add derived fields, keep the records within bounds, and summarise.
A custom kind carries a transform of its own.  Built-in stages are all or
nothing: the first record that a stage cannot take decides its failure.
-/

namespace StagePipeline

/-! ## Reading numbers -/

/-- Why a text is not a usable number. -/
inductive NumberFault where
  | empty
  | malformed
  | notFinite
  deriving DecidableEq, Repr

/-- The wording of a number fault. -/
def NumberFault.reason : NumberFault → String
  | empty => "cannot parse float from empty string"
  | malformed => "invalid float literal"
  | notFinite => "value is not finite"

/-- Read the text between leading and trailing blanks as a finite number. -/
def parseValue (text : String) : Except NumberFault Float :=
  match Text.trim text.toList with
  | [] => .error .empty
  | trimmed =>
      match Decimal.Numeral.parse? trimmed with
      | none => .error .malformed
      | some numeral =>
          if numeral.toFloat.isFinite then .ok numeral.toFloat else .error .notFinite

/-- The filter keeps values above this bound. -/
def filterLower : Float := 25

/-- The filter keeps values below this bound. -/
def filterUpper : Float := 75

/-- Normalized values are hundredths. -/
def normalizationDivisor : Float := 100

/-- Whether a value lies strictly between the filter's bounds. -/
def withinFilterBounds (value : Float) : Bool :=
  decide (filterLower < value) && decide (value < filterUpper)

/-! ## Outputs and outcomes -/

/-- What a stage hands on. -/
inductive StageOutput where
  | batch (content : Batch)
  | summary (content : Summary)
  deriving DecidableEq

namespace StageOutput

/-- The number of records in an output, for a summary the number it is over. -/
def recordCount : StageOutput → Nat
  | .batch content => content.size
  | .summary content => content.count

end StageOutput

/-- How the application of a transform to a batch ends. -/
inductive Outcome where
  /-- It returns an output. -/
  | output (output : StageOutput)
  /-- It returns a failure. -/
  | failure (failure : Failure)
  /-- It panics; the payload may be a text. -/
  | panic (payload : Option String)
  /-- It panics and takes its thread down with it. -/
  | death
  deriving DecidableEq

/-- A custom transform: a pure function of the batch.  For some batches it may
hold until something outside lets it go on. -/
structure Transform where
  apply : Batch → Outcome
  holds : Batch → Bool

/-- What a stage does. -/
inductive StageKind where
  | parse
  | transform
  | filter
  | aggregate
  | custom (transform : Transform)

namespace StageKind

/-- The label of a kind. -/
def label : StageKind → String
  | parse => "parse"
  | transform => "transform"
  | filter => "filter"
  | aggregate => "aggregate"
  | custom _ => "custom"

/-- The text under which a kind is listed for inspection. -/
def inspect : StageKind → String
  | custom _ => "Custom(..)"
  | kind => kind.label

/-- Whether a kind always ends in a summary. -/
def isTerminal : StageKind → Bool
  | aggregate => true
  | _ => false

/-- Whether a kind is one of the four built-in ones. -/
def isBuiltin : StageKind → Bool
  | custom _ => false
  | _ => true

end StageKind

/-- A named stage. -/
structure Stage where
  name : String
  kind : StageKind

namespace Stage

/-- The stage that reads raw texts. -/
def parse : Stage := ⟨"parse", .parse⟩

/-- The stage that adds derived fields. -/
def transform : Stage := ⟨"transform", .transform⟩

/-- The stage that keeps the records within bounds. -/
def filter : Stage := ⟨"filter", .filter⟩

/-- The stage that summarises. -/
def aggregate : Stage := ⟨"aggregate", .aggregate⟩

/-- The four built-in stages in pipeline order. -/
def builtin : List Stage :=
  [parse, transform, filter, aggregate]

/-! ## What the built-in kinds do -/

/-- A record has a shape that a kind cannot take. -/
def shapeMismatch (kind expected : String) (record : Record) : Failure :=
  .transform (kind ++ " expects " ++ expected ++ " records, got " ++ record.shape ++
    " record " ++ toString record.id)

/-- Read one raw record at a given time. -/
def parseRecord (now : Timestamp) (record : Record) : Except Failure Record :=
  match record with
  | .raw id text =>
      match parseValue text with
      | .ok value => .ok (.parsed id value now)
      | .error fault => .error (.parse id text fault.reason)
  | other => .error (shapeMismatch "parse" "raw" other)

/-- A number with its derived fields. -/
def derive (id : Nat) (value : Float) (timestamp : Timestamp) : Record :=
  .transformed id value timestamp (value / normalizationDivisor) (value * value)

/-- Add, or compute again, the derived fields of one record. -/
def transformRecord (record : Record) : Except Failure Record :=
  match record with
  | .raw _ _ => .error (shapeMismatch "transform" "numeric" record)
  | .parsed id value timestamp => .ok (derive id value timestamp)
  | .transformed id value timestamp _ _ => .ok (derive id value timestamp)

/-- The number of one record, on behalf of the named kind. -/
def valueFor (kind : String) (record : Record) : Except Failure Float :=
  match record.value? with
  | some value => .ok value
  | none => .error (shapeMismatch kind "numeric" record)

/-- Keep the records within bounds. -/
def filterRecords : List Record → Except Failure (List Record)
  | [] => .ok []
  | record :: rest => do
      let value ← valueFor "filter" record
      let kept ← filterRecords rest
      return if withinFilterBounds value then record :: kept else kept

/-- Read every record of a batch at a given time. -/
def parseBatch (now : Timestamp) (batch : Batch) : Except Failure Batch := do
  return ⟨batch.index, ← batch.records.mapM (parseRecord now)⟩

/-- Add derived fields to every record of a batch. -/
def transformBatch (batch : Batch) : Except Failure Batch := do
  return ⟨batch.index, ← batch.records.mapM transformRecord⟩

/-- Keep the records of a batch that are within bounds. -/
def filterBatch (batch : Batch) : Except Failure Batch := do
  return ⟨batch.index, ← filterRecords batch.records⟩

/-- Summarise a batch. -/
def aggregateBatch (batch : Batch) : Except Failure Summary := do
  return Summary.ofValues (← batch.records.mapM (valueFor "aggregate"))

/-! ## Applying a stage -/

/-- The outcome of a transform that cannot panic. -/
def outcomeOf (make : α → StageOutput) : Except Failure α → Outcome
  | .ok value => .output (make value)
  | .error failure => .failure failure

/-- Apply a stage to a batch; a stage that reads texts stamps them with the
given time. -/
def apply (stage : Stage) (now : Timestamp) (batch : Batch) : Outcome :=
  match stage.kind with
  | .parse => outcomeOf .batch (parseBatch now batch)
  | .transform => outcomeOf .batch (transformBatch batch)
  | .filter => outcomeOf .batch (filterBatch batch)
  | .aggregate => outcomeOf .summary (aggregateBatch batch)
  | .custom transform => transform.apply batch

/-- Whether a stage holds, for this batch, until something outside lets it go. -/
def holds (stage : Stage) (batch : Batch) : Bool :=
  match stage.kind with
  | .custom transform => transform.holds batch
  | _ => false

/-- The reason of a stage that panicked. -/
def panicReason (payload : Option String) : String :=
  "stage panicked: " ++ payload.getD "unknown panic payload"

/-- What a worker replies after applying its stage: failures and panics become
faults of this stage and batch.  A dead thread replies nothing. -/
def reply? (stage : Stage) (now : Timestamp) (batch : Batch) :
    Option (Except Fault StageOutput) :=
  match stage.apply now batch with
  | .output output => some (.ok output)
  | .failure failure => some (.error (failure.tag stage.name batch.index))
  | .panic payload => some (.error (.stageFailed stage.name batch.index (panicReason payload)))
  | .death => none

end Stage
end StagePipeline
