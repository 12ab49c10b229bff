import StagePipeline.Time.Timestamp
import StagePipeline.Word

/-!
# Records and batches

A record changes its shape on its way: raw text, then a parsed number, then a
number with derived fields.  Records travel in batches.  A batch carries an
index, which tags it but need not be its position in the input.
-/

namespace StagePipeline

/-- A record in one of its shapes. -/
inductive Record where
  /-- Unparsed text. -/
  | raw (id : Nat) (text : String)
  /-- A number and the time at which it was read. -/
  | parsed (id : Nat) (value : Float) (timestamp : Timestamp)
  /-- A number with derived fields. -/
  | transformed (id : Nat) (value : Float) (timestamp : Timestamp)
      (normalized squared : Float)
  deriving DecidableEq

namespace Record

/-- The identifier of a record. -/
def id : Record → Nat
  | raw id _ => id
  | parsed id _ _ => id
  | transformed id _ _ _ _ => id

/-- The number of a record, if it has been read. -/
def value? : Record → Option Float
  | raw _ _ => none
  | parsed _ value _ => some value
  | transformed _ value _ _ _ => some value

/-- The time at which the number was read, if it has been. -/
def timestamp? : Record → Option Timestamp
  | raw _ _ => none
  | parsed _ _ timestamp => some timestamp
  | transformed _ _ timestamp _ _ => some timestamp

/-- The name of a record's shape. -/
def shape : Record → String
  | raw _ _ => "raw"
  | parsed _ _ _ => "parsed"
  | transformed _ _ _ _ _ => "transformed"

end Record

/-- An indexed group of records that is processed as one unit. -/
structure Batch where
  index : Nat
  records : List Record
  deriving DecidableEq

namespace Batch

/-- The number of records. -/
def size (batch : Batch) : Nat :=
  batch.records.length

/-- Whether there is no record. -/
def isEmpty (batch : Batch) : Bool :=
  batch.records.isEmpty

/-- Raw records with consecutive identifiers. -/
def rawRecords (firstId : Nat) : List String → List Record
  | [] => []
  | text :: rest => Record.raw firstId text :: rawRecords (firstId + 1) rest

@[simp] theorem rawRecords_nil (firstId : Nat) : rawRecords firstId [] = [] :=
  rfl

@[simp] theorem rawRecords_cons (firstId : Nat) (text : String) (rest : List String) :
    rawRecords firstId (text :: rest) =
      Record.raw firstId text :: rawRecords (firstId + 1) rest :=
  rfl

/-- A batch of raw records with consecutive identifiers. -/
def ofRaw (index firstId : Nat) (texts : List String) : Batch :=
  ⟨index, rawRecords firstId texts⟩

/-- A batch of raw records with consecutive identifiers.  There is none if the
identifier behind the last one does not fit a word. -/
def ofRaw? (index firstId : Nat) (texts : List String) : Option Batch :=
  if firstId + texts.length < Word.limit then some (ofRaw index firstId texts) else none

@[simp] theorem rawRecords_length (firstId : Nat) (texts : List String) :
    (rawRecords firstId texts).length = texts.length := by
  induction texts generalizing firstId with
  | nil => rfl
  | cons text rest inductionHypothesis => simp [rawRecords, inductionHypothesis]

@[simp] theorem ofRaw_size (index firstId : Nat) (texts : List String) :
    (ofRaw index firstId texts).size = texts.length :=
  rawRecords_length firstId texts

/-! ## Chunking -/

/-- Consecutive batches of `spare + 1` texts each, the last one possibly shorter,
with indices and identifiers that count on from the given ones. -/
def chunksFrom (spare index firstId : Nat) : List String → List Batch
  | [] => []
  | text :: rest =>
      ofRaw index firstId (text :: rest.take spare) ::
        chunksFrom spare (index + 1) (firstId + (spare + 1)) (rest.drop spare)
termination_by texts => texts.length
decreasing_by
  rw [List.length_drop, List.length_cons]
  exact Nat.lt_succ_of_le (Nat.sub_le _ _)

@[simp] theorem chunksFrom_nil (spare index firstId : Nat) :
    chunksFrom spare index firstId [] = [] := by
  rw [chunksFrom]

/-- Split texts into batches of `size` records; size zero counts as one. -/
def chunks (size : Nat) (texts : List String) : List Batch :=
  chunksFrom (size - 1) 0 0 texts

/-- The bytes that a record takes in a buffer: a word for its shape, and room for the
fields of the largest shape, of which the time takes two words. -/
def recordBytes : Nat := 56

/-- Split texts into batches.  A buffer for a whole batch is reserved first, and
there is no answer if that buffer cannot be addressed. -/
def chunks? (size : Nat) (texts : List String) : Option (List Batch) :=
  if Word.fitsBuffer (max size 1) recordBytes then some (chunks size texts) else none

end Batch
end StagePipeline
