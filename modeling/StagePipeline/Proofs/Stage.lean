import Mathlib.Data.List.Forall2
import StagePipeline.Coordinator
import StagePipeline.Proofs.Summary

/-!
# Built-in stages

The first built-in stage fails at the first raw text that is not a number.  If there is
none, its records carry the numbers that were read.  The second stage hands on records
that carry the same numbers, the third one those of them within the bounds, and the last
one summarises what it gets.
-/

namespace StagePipeline

/-! ## Going over lists -/

/-- Either all elements of a list have a property, or there is a first one without. -/
theorem forall_or_first {α : Type} (property : α → Prop) (elements : List α) :
    (∀ element ∈ elements, property element) ∨
      ∃ front element back, elements = front ++ element :: back ∧
        (∀ earlier ∈ front, property earlier) ∧ ¬property element := by
  induction elements with
  | nil => exact Or.inl fun element present => by cases present
  | cons element rest inductionHypothesis =>
      by_cases holds : property element
      · rcases inductionHypothesis with all | ⟨front, culprit, back, rfl, before, fails⟩
        · exact Or.inl (List.forall_mem_cons.mpr ⟨holds, all⟩)
        · exact Or.inr ⟨element :: front, culprit, back, rfl,
            List.forall_mem_cons.mpr ⟨holds, before⟩, fails⟩
      · refine Or.inr ⟨[], element, rest, rfl, ?_, holds⟩
        intro earlier present
        cases present

section Traversal

variable
  {α β ε : Type}
  {step : α → Except ε β}
  {elements : List α}
  {results : List β}

/-- A traversal succeeds if every step does. -/
theorem mapM_eq_ok (steps : List.Forall₂ (fun element result => step element = .ok result)
      elements results) :
    elements.mapM step = .ok results := by
  induction steps with
  | nil => rfl
  | cons taken _ inductionHypothesis =>
      rw [List.mapM_cons, taken, inductionHypothesis]
      rfl

/-- A traversal of which every step succeeds leads to a result of every step. -/
theorem exists_mapM_eq_ok
    {becomes : α → β → Prop}
    (steps : ∀ element ∈ elements, ∃ result, step element = .ok result ∧
      becomes element result) :
    ∃ results, elements.mapM step = .ok results ∧ List.Forall₂ becomes elements results := by
  induction elements with
  | nil => exact ⟨[], rfl, List.Forall₂.nil⟩
  | cons element rest inductionHypothesis =>
      obtain ⟨⟨result, taken, related⟩, others⟩ := List.forall_mem_cons.mp steps
      obtain ⟨results, traversed, relateds⟩ := inductionHypothesis others
      refine ⟨result :: results, ?_, List.Forall₂.cons related relateds⟩
      rw [List.mapM_cons, taken, traversed]
      rfl

/-- A traversal fails at the first step that does. -/
theorem mapM_eq_error
    {front back : List α}
    {element : α}
    {error : ε}
    (succeed : ∀ earlier ∈ front, ∃ result, step earlier = .ok result)
    (fails : step element = .error error) :
    (front ++ element :: back).mapM step = .error error := by
  induction front with
  | nil =>
      rw [List.nil_append, List.mapM_cons, fails]
      rfl
  | cons first rest inductionHypothesis =>
      obtain ⟨⟨result, taken⟩, later⟩ := List.forall_mem_cons.mp succeed
      rw [List.cons_append, List.mapM_cons, taken, inductionHypothesis later]
      rfl

end Traversal

/-! ## Raw texts and numbers -/

/-- Every raw text among some records is a number. -/
def Readable (records : List Record) : Prop :=
  ∀ id text, Record.raw id text ∈ records → ∃ value, parseValue text = .ok value

/-- The number of a record; that of a raw one is read from its text. -/
def Record.reading? : Record → Option Float
  | .raw _ text => (parseValue text).toOption
  | record => record.value?

/-- Raw records that can all be read, and the numbers that they are. -/
theorem reading_of_readable
    {records : List Record}
    (raw : ∀ record ∈ records, ∃ id text, record = .raw id text)
    (readable : Readable records) :
    List.Forall₂ (fun record value =>
        ∃ id text, record = .raw id text ∧ parseValue text = .ok value)
      records (records.filterMap Record.reading?) := by
  induction records with
  | nil => exact List.Forall₂.nil
  | cons record rest inductionHypothesis =>
      obtain ⟨⟨id, text, rfl⟩, restRaw⟩ := List.forall_mem_cons.mp raw
      obtain ⟨value, read⟩ := readable id text List.mem_cons_self
      have reading : Record.reading? (.raw id text) = some value := by
        rw [Record.reading?, read]
        rfl
      rw [List.filterMap_cons_some reading]
      refine List.Forall₂.cons ⟨id, text, rfl, read⟩ (inductionHypothesis restRaw ?_)
      intro id text present
      exact readable id text (List.mem_cons_of_mem _ present)

/-- The records carry these numbers. -/
def Carry (records : List Record) (values : List Float) : Prop :=
  List.Forall₂ (fun record value => record.value? = some value) records values

/-- A stage that makes of every record one that carries the given number. -/
theorem mapM_carry
    {ε : Type}
    {step : Record → Except ε Record}
    {records : List Record}
    {values : List Float}
    (steps : List.Forall₂ (fun record value =>
      ∃ result, step record = .ok result ∧ result.value? = some value) records values) :
    ∃ results, records.mapM step = .ok results ∧ Carry results values := by
  induction steps with
  | nil => exact ⟨[], rfl, List.Forall₂.nil⟩
  | cons taken _ inductionHypothesis =>
      obtain ⟨first, taken, carries⟩ := taken
      obtain ⟨rest, traversed, carry⟩ := inductionHypothesis
      refine ⟨first :: rest, ?_, List.Forall₂.cons carries carry⟩
      rw [List.mapM_cons, taken, traversed]
      rfl

namespace Batch

/-- All records of a batch are raw. -/
def IsRaw (batch : Batch) : Prop :=
  ∀ record ∈ batch.records, ∃ id text, record = .raw id text

/-- The numbers of the records of a batch, as far as they can be read, in order. -/
def readings (batch : Batch) : List Float :=
  batch.records.filterMap Record.reading?

/-- The numbers of a batch that lie strictly between the bounds of the filter. -/
def survivors (batch : Batch) : List Float :=
  batch.readings.filter fun value => decide (25 < value) && decide (value < 75)

theorem mem_survivors {batch : Batch} {value : Float} (present : value ∈ batch.survivors) :
    25 < value ∧ value < 75 := by
  have within := (List.mem_filter.mp present).2
  rw [Bool.and_eq_true, decide_eq_true_eq, decide_eq_true_eq] at within
  exact within

theorem survivors_finite {batch : Batch} {value : Float} (present : value ∈ batch.survivors) :
    IsFinite value := by
  obtain ⟨above, below⟩ := mem_survivors present
  have lower : Binary64.negativeInfinity < 25 := by decide +kernel
  have upper : (75 : Float) < Binary64.positiveInfinity := by decide +kernel
  exact ⟨Binary64.lt_trans lower above, Binary64.lt_trans below upper⟩

end Batch

/-- The first of some raw records that cannot be read. -/
theorem first_unreadable
    {records : List Record}
    (raw : ∀ record ∈ records, ∃ id text, record = .raw id text)
    (unreadable : ¬Readable records) :
    ∃ before id text after fault, records = before ++ .raw id text :: after ∧
      Readable before ∧ parseValue text = .error fault := by
  rcases forall_or_first (fun record => Readable [record]) records with
    all | ⟨before, record, after, rfl, readable, culprit⟩
  · refine absurd ?_ unreadable
    intro id text present
    exact all _ present id text (List.mem_singleton_self _)
  · obtain ⟨id, text, rfl⟩ := raw record (List.mem_append_right _ List.mem_cons_self)
    cases read : parseValue text with
    | ok value =>
        refine absurd ?_ culprit
        intro other content present
        cases List.mem_singleton.mp present
        exact ⟨value, read⟩
    | error fault =>
        refine ⟨before, id, text, after, fault, rfl, ?_, read⟩
        intro other content present
        exact readable _ present other content (List.mem_singleton_self _)

/-! ## The four stages -/

namespace Stage

/-- Only custom stages hold a batch. -/
theorem holds_of_isBuiltin
    {stage : Stage}
    (builtin : stage.kind.isBuiltin = true)
    (batch : Batch) :
    stage.holds batch = false := by
  unfold holds
  split
  · rename_i transform kind
    rw [kind] at builtin
    cases builtin
  · rfl

/-- No built-in stage holds a batch. -/
theorem holds_builtin : ∀ stage ∈ builtin, ∀ batch, stage.holds batch = false := by
  have kinds : ∀ stage ∈ builtin, stage.kind.isBuiltin = true := by decide
  intro stage present batch
  exact holds_of_isBuiltin (kinds stage present) batch

variable {batch : Batch} {values : List Float}

theorem parseRecord_eq_ok
    {id : Nat}
    {text : String}
    {value : Float}
    (now : Timestamp)
    (read : parseValue text = .ok value) :
    parseRecord now (.raw id text) = .ok (.parsed id value now) := by
  rw [parseRecord, read]

theorem parseRecord_eq_error
    {id : Nat}
    {text : String}
    {fault : NumberFault}
    (now : Timestamp)
    (unread : parseValue text = .error fault) :
    parseRecord now (.raw id text) = .error (.parse id text fault.reason) := by
  rw [parseRecord, unread]

theorem parseRecord_carry
    {record : Record}
    {value : Float}
    (now : Timestamp)
    (reads : ∃ id text, record = .raw id text ∧ parseValue text = .ok value) :
    ∃ parsed, parseRecord now record = .ok parsed ∧ parsed.value? = some value := by
  obtain ⟨id, text, rfl, read⟩ := reads
  exact ⟨.parsed id value now, parseRecord_eq_ok now read, rfl⟩

theorem parseBatch_carry
    (now : Timestamp)
    (raw : batch.IsRaw)
    (readable : Readable batch.records) :
    ∃ records, parseBatch now batch = .ok ⟨batch.index, records⟩ ∧
      Carry records batch.readings := by
  obtain ⟨records, traversed, carry⟩ :=
    mapM_carry ((reading_of_readable raw readable).imp fun _ _ => parseRecord_carry now)
  refine ⟨records, ?_, carry⟩
  rw [parseBatch, traversed]
  rfl

/-- A batch fails at its first raw text that is not a number. -/
theorem parseBatch_eq_error
    {before after : List Record}
    {id : Nat}
    {text : String}
    {fault : NumberFault}
    (now : Timestamp)
    (raw : batch.IsRaw)
    (split : batch.records = before ++ .raw id text :: after)
    (readable : Readable before)
    (unread : parseValue text = .error fault) :
    parseBatch now batch = .error (.parse id text fault.reason) := by
  have succeed : ∀ earlier ∈ before, ∃ parsed, parseRecord now earlier = .ok parsed := by
    intro earlier present
    obtain ⟨id, text, rfl⟩ := raw earlier (by rw [split]; exact List.mem_append_left _ present)
    obtain ⟨value, read⟩ := readable id text present
    exact ⟨_, parseRecord_eq_ok now read⟩
  rw [parseBatch, split, mapM_eq_error succeed (parseRecord_eq_error now unread)]
  rfl

/-- A record that carries a number can be transformed, and goes on carrying it. -/
theorem transformRecord_carry
    {record : Record}
    {value : Float}
    (carries : record.value? = some value) :
    ∃ transformed, transformRecord record = .ok transformed ∧
      transformed.value? = some value := by
  cases record with
  | raw id text => cases carries
  | parsed id number timestamp => exact ⟨_, rfl, carries⟩
  | transformed id number timestamp normalized squared => exact ⟨_, rfl, carries⟩

theorem transformBatch_carry
    {records : List Record}
    (index : Nat)
    (carry : Carry records values) :
    ∃ transformed, transformBatch ⟨index, records⟩ = .ok ⟨index, transformed⟩ ∧
      Carry transformed values := by
  obtain ⟨transformed, traversed, carry⟩ :=
    mapM_carry (carry.imp fun _ _ => transformRecord_carry)
  refine ⟨transformed, ?_, carry⟩
  rw [transformBatch, traversed]
  rfl

theorem valueFor_eq_ok
    {record : Record}
    {value : Float}
    (kind : String)
    (carries : record.value? = some value) :
    valueFor kind record = .ok value := by
  rw [valueFor, carries]

/-- The filter keeps the records whose numbers are within bounds. -/
theorem filterRecords_carry
    {records : List Record}
    (carry : Carry records values) :
    ∃ kept, filterRecords records = .ok kept ∧
      Carry kept (values.filter withinFilterBounds) := by
  induction carry with
  | nil => exact ⟨[], rfl, List.Forall₂.nil⟩
  | @cons record value rest others carries _ inductionHypothesis =>
      obtain ⟨kept, filtered, carry⟩ := inductionHypothesis
      have result : filterRecords (record :: rest) =
          .ok (if withinFilterBounds value then record :: kept else kept) := by
        rw [filterRecords, valueFor_eq_ok "filter" carries, filtered]
        rfl
      rw [result, List.filter_cons]
      split
      · exact ⟨_, rfl, List.Forall₂.cons carries carry⟩
      · exact ⟨_, rfl, carry⟩

theorem filterBatch_carry
    {records : List Record}
    (index : Nat)
    (carry : Carry records values) :
    ∃ kept, filterBatch ⟨index, records⟩ = .ok ⟨index, kept⟩ ∧
      Carry kept (values.filter withinFilterBounds) := by
  obtain ⟨kept, filtered, carry⟩ := filterRecords_carry carry
  refine ⟨kept, ?_, carry⟩
  rw [filterBatch, filtered]
  rfl

theorem aggregateBatch_carry
    {records : List Record}
    (index : Nat)
    (carry : Carry records values) :
    aggregateBatch ⟨index, records⟩ = .ok (Summary.ofValues values) := by
  have traversed := mapM_eq_ok (carry.imp fun _ _ => valueFor_eq_ok "aggregate")
  rw [aggregateBatch, traversed]
  rfl

end Stage
end StagePipeline
