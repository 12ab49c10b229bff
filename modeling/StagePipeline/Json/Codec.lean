import StagePipeline.Json.Fields
import StagePipeline.Pipeline

/-!
# Writing and reading values as JSON

Every value that enters or leaves a pipeline has a JSON form.  A bound of a
summary that is not finite is written as null, and null is read as the bound over
no values.  A record is tagged with its shape.
-/

namespace StagePipeline

open Json

/-! ## Times and identifiers -/

namespace Timestamp

/-- A timestamp as its text. -/
def toJson (timestamp : Timestamp) : Json :=
  .string timestamp.text

/-- Read a timestamp. -/
def ofJson? (json : Json) : Option Timestamp := do
  parse? (← json.text?).toList

end Timestamp

namespace Duration

/-- The names of the parts of a duration. -/
def fieldNames : List String := ["secs", "nanos"]

/-- A duration as its whole seconds and the nanoseconds beyond. -/
def toJson (duration : Duration) : Json :=
  .object [("secs", .ofNat duration.seconds), ("nanos", .ofNat duration.subsecond)]

/-- Read a duration.  There may be a second or more in the nanoseconds, but the
seconds must fit a word together with it. -/
def ofJson? (json : Json) : Option Duration := do
  let [seconds, nanoseconds] ← json.fields? fieldNames | none
  let seconds ← required? word? seconds
  let nanoseconds ← required? word? nanoseconds
  if json.hasOnly fieldNames && decide (nanoseconds < Nat.pow 2 32) then
    ofParts? seconds nanoseconds
  else none

end Duration

namespace RunId

/-- An identifier as its hyphenated digits. -/
def toJson (runId : RunId) : Json :=
  .string runId.hyphenated

/-- Read an identifier in any of its forms. -/
def ofJson? (json : Json) : Option RunId := do
  parse? (← json.text?).toList

end RunId

/-! ## Records and batches -/

namespace Record

/-- A record as an object that begins with its shape. -/
def toJson (record : Record) : Json :=
  .object (("shape", .string record.shape) :: match record with
    | .raw id text => [("id", .ofNat id), ("raw", .string text)]
    | .parsed id value timestamp =>
        [("id", .ofNat id), ("value", .ofFloat value), ("timestamp", timestamp.toJson)]
    | .transformed id value timestamp normalized squared =>
        [("id", .ofNat id), ("value", .ofFloat value), ("timestamp", timestamp.toJson),
          ("normalized", .ofFloat normalized), ("squared", .ofFloat squared)])

/-- The shape of a record, and the value that has its fields: an object itself, or
an array without its first item. -/
def tag? : Json → Option (String × Json)
  | .object members => do
      let shape ← (← lookup? "shape" members).text?
      return (shape, .object members)
  | .array (shape :: rest) => do
      return (← shape.text?, .array rest)
  | _ => none

/-- Read a record. -/
def ofJson? (json : Json) : Option Record := do
  let (shape, content) ← tag? json
  match shape with
  | "raw" =>
      let [id, text] ← content.fields? ["id", "raw"] | none
      return .raw (← required? word? id) (← required? text? text)
  | "parsed" =>
      let [id, value, timestamp] ← content.fields? ["id", "value", "timestamp"] | none
      return .parsed (← required? word? id) (← required? number? value)
        (← required? Timestamp.ofJson? timestamp)
  | "transformed" =>
      let [id, value, timestamp, normalized, squared] ←
        content.fields? ["id", "value", "timestamp", "normalized", "squared"] | none
      return .transformed (← required? word? id) (← required? number? value)
        (← required? Timestamp.ofJson? timestamp) (← required? number? normalized)
        (← required? number? squared)
  | _ => none

end Record

namespace Batch

/-- A batch as its index and its records. -/
def toJson (batch : Batch) : Json :=
  .object [("index", .ofNat batch.index), ("records", .array (batch.records.map Record.toJson))]

/-- Read a batch. -/
def ofJson? (json : Json) : Option Batch := do
  let [index, records] ← json.fields? ["index", "records"] | none
  return ⟨← required? word? index, ← (← required? items? records).mapM Record.ofJson?⟩

end Batch

/-! ## Summaries and totals -/

namespace Summary

/-- A summary as an object. -/
def toJson (summary : Summary) : Json :=
  .object [("count", .ofNat summary.count), ("sum", .ofFloat summary.sum),
    ("avg", .ofFloat summary.average), ("min", .ofFloat summary.least),
    ("max", .ofFloat summary.greatest)]

/-- Read a bound, where null stands for the bound over no values. -/
def bound? (overNone : Float) (json : Json) : Option Float :=
  (nullable? number? json).map fun bound => bound.getD overNone

/-- Read a summary. -/
def ofJson? (json : Json) : Option Summary := do
  let [count, sum, average, least, greatest] ←
    json.fields? ["count", "sum", "avg", "min", "max"] | none
  return {
    count := ← required? word? count
    sum := ← required? number? sum
    average := ← required? number? average
    least := ← required? (bound? Binary64.positiveInfinity) least
    greatest := ← required? (bound? Binary64.negativeInfinity) greatest }

end Summary

namespace Totals

/-- Totals as an object. -/
def toJson (totals : Totals) : Json :=
  .object [("count", .ofNat totals.count), ("sum", .ofFloat totals.sum),
    ("avg", .ofFloat totals.average), ("min", .ofOption .ofFloat totals.least),
    ("max", .ofOption .ofFloat totals.greatest), ("batch_count", .ofNat totals.batchCount)]

/-- Read totals. -/
def ofJson? (json : Json) : Option Totals := do
  let [count, sum, average, least, greatest, batchCount] ←
    json.fields? ["count", "sum", "avg", "min", "max", "batch_count"] | none
  return {
    count := ← required? word? count
    sum := ← required? number? sum
    average := ← required? number? average
    least := ← optional? number? least
    greatest := ← optional? number? greatest
    batchCount := ← required? word? batchCount }

end Totals

/-! ## Metrics and reports -/

namespace StageMetrics

/-- The metrics of a stage as an object. -/
def toJson (metrics : StageMetrics) : Json :=
  .object [("stage_name", .string metrics.stageName),
    ("batches_processed", .ofNat metrics.batches), ("records_in", .ofNat metrics.recordsIn),
    ("records_out", .ofNat metrics.recordsOut),
    ("total_processing_time_us", .ofNat metrics.totalMicroseconds),
    ("avg_processing_time_us", .ofNat metrics.averageMicroseconds)]

/-- Read the metrics of a stage. -/
def ofJson? (json : Json) : Option StageMetrics := do
  let [stageName, batches, recordsIn, recordsOut, total, average] ←
    json.fields? ["stage_name", "batches_processed", "records_in", "records_out",
      "total_processing_time_us", "avg_processing_time_us"] | none
  return {
    stageName := ← required? text? stageName
    batches := ← required? word? batches
    recordsIn := ← required? word? recordsIn
    recordsOut := ← required? word? recordsOut
    totalMicroseconds := ← required? word? total
    averageMicroseconds := ← required? word? average }

end StageMetrics

namespace Report

/-- A report as an object. -/
def toJson (report : Report) : Json :=
  .object [("run_id", report.runId.toJson), ("global", report.totals.toJson),
    ("batches", .array (report.summaries.map Summary.toJson)),
    ("stage_metrics", .array (report.metrics.map StageMetrics.toJson)),
    ("duration", report.duration.toJson)]

/-- Read a report. -/
def ofJson? (json : Json) : Option Report := do
  let [runId, totals, summaries, metrics, duration] ←
    json.fields? ["run_id", "global", "batches", "stage_metrics", "duration"] | none
  return {
    runId := ← required? RunId.ofJson? runId
    totals := ← required? Totals.ofJson? totals
    summaries := ← (← required? items? summaries).mapM Summary.ofJson?
    metrics := ← (← required? items? metrics).mapM StageMetrics.ofJson?
    duration := ← required? Duration.ofJson? duration }

end Report

/-! ## States -/

namespace RunState

/-- A state as its name. -/
def toJson (state : RunState) : Json :=
  .string state.name

/-- Read a state. -/
def ofJson? (json : Json) : Option RunState := do
  let name ← json.variant?
  [idle, running, completed, failed].find? fun state => state.name == name

end RunState

namespace WorkerState

/-- A state as its name. -/
def toJson (state : WorkerState) : Json :=
  .string state.name

/-- Read a state. -/
def ofJson? (json : Json) : Option WorkerState := do
  let name ← json.variant?
  [idle, busy, terminated].find? fun state => state.name == name

end WorkerState

/-! ## Settings -/

namespace Settings

/-- Settings as an object. -/
def toJson (settings : Settings) : Json :=
  .object [("batch_size", .ofNat settings.batchSize),
    ("mailbox_capacity", .ofNat settings.mailboxCapacity),
    ("drain_timeout_ms", .ofNat settings.drainTimeout),
    ("stage_timeout_ms", .ofOption .ofNat settings.stageTimeout),
    ("thread_name_prefix", .string settings.threadNamePrefix)]

/-- Read settings, of which any may be left out.  Bounds are not looked at. -/
def ofJson? (json : Json) : Option Settings := do
  let [batchSize, mailboxCapacity, drainTimeout, stageTimeout, threadNamePrefix] ←
    json.leadingFields? ["batch_size", "mailbox_capacity", "drain_timeout_ms",
      "stage_timeout_ms", "thread_name_prefix"] | none
  return {
    batchSize := ← standard? standard.batchSize word? batchSize
    mailboxCapacity := ← standard? standard.mailboxCapacity word? mailboxCapacity
    drainTimeout := ← standard? standard.drainTimeout word? drainTimeout
    stageTimeout := ← standard? standard.stageTimeout (nullable? word?) stageTimeout
    threadNamePrefix := ← standard? standard.threadNamePrefix text? threadNamePrefix }

end Settings
end StagePipeline
