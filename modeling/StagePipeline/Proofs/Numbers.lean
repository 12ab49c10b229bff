import StagePipeline.Proofs.Binary64.Sums
import StagePipeline.Proofs.Conservation
import StagePipeline.Proofs.Stage

/-!
# The numbers of built-in stages

A number comes into a record when its text is read, and is finite then.  No built-in stage
changes it afterwards.  Behind a filter all records carry numbers within bounds, and a stage
that reads texts takes none of those.  So what is summarised in the end are finite numbers,
and those within bounds if there has been a filter.
-/

namespace StagePipeline

open Binary64

/-! ## Finite numbers and numbers within bounds -/

section Numbers

variable {value : Float}

theorem level_of_isFinite
    {unpacked : Float.Model.UnpackedFloat}
    (finite : unpacked.isFinite = true) :
    -2 < (rankOf unpacked).level ∧ (rankOf unpacked).level < 2 := by
  cases unpacked with
  | infinity | notANumber => cases finite
  | zero sign => simp [rankOf]
  | finite sign => cases sign <;> simp [rankOf]

/-- A finite number lies between the infinities. -/
theorem IsFinite.of_isFinite (finite : value.isFinite = true) : IsFinite value := by
  have lower : rank negativeInfinity = ⟨-2, 0, 0⟩ := rfl
  have upper : rank positiveInfinity = ⟨2, 0, 0⟩ := rfl
  have number : value.isNaN = false := by
    rw [isNaN_eq_false_iff]
    intro none
    rw [isFinite_eq, none] at finite
    cases finite
  obtain ⟨above, below⟩ := level_of_isFinite finite
  rw [IsFinite, lt_iff, lt_iff, lower, upper, number]
  exact ⟨⟨rfl, rfl, Or.inl above⟩, rfl, rfl, Or.inl below⟩

/-- The numbers that a filter keeps are positive, and below the next power of two. -/
theorem isAtMost_of_withinFilterBounds (within : withinFilterBounds value = true) :
    IsAtMost 7 value := by
  have lower : rank filterLower = ⟨1, -48, 25 * 2 ^ 48⟩ := rfl
  have upper : rank filterUpper = ⟨1, -46, 75 * 2 ^ 46⟩ := rfl
  rw [withinFilterBounds, Bool.and_eq_true, decide_eq_true_eq, decide_eq_true_eq] at within
  obtain ⟨-, number, above⟩ := lt_iff.mp within.1
  obtain ⟨-, -, below⟩ := lt_iff.mp within.2
  rw [lower] at above
  rw [upper] at below
  rw [isNaN_eq_false_iff] at number
  unfold Rank.Lt rank at above below
  unfold IsAtMost
  cases unpacked : value.toModel.unpack with
  | notANumber => exact absurd unpacked number
  | zero sign =>
      rw [unpacked] at above
      simp only [rankOf] at above
      omega
  | infinity sign =>
      rw [unpacked] at above below
      cases sign with
      | negative =>
          simp only [rankOf] at above
          omega
      | positive =>
          simp only [rankOf] at below
          omega
  | finite sign mantissa exponent some =>
      obtain ⟨canonical, -⟩ := isCanonical_of_unpack unpacked
      rw [unpacked] at above below
      cases sign with
      | negative =>
          simp only [rankOf] at above
          omega
      | positive =>
          simp only [rankOf] at below
          exact .positive some canonical (by omega)

end Numbers

/-! ## Records -/

/-- A number as built-in stages hand it on, if it has been read: it is finite, and behind a
filter it has been read and is within bounds. -/
def IsSound (filtered : Prop) : Option Float → Prop
  | none => ¬filtered
  | some value => value.isFinite = true ∧ (filtered → withinFilterBounds value = true)

namespace IsSound

variable
  {filtered further : Prop}
  {value? : Option Float}

theorem of_withinFilterBounds
    {value : Float}
    (within : withinFilterBounds value = true) :
    IsSound filtered (some value) :=
  ⟨(isAtMost_of_withinFilterBounds within).isFinite, fun _ => within⟩

theorem congr (sound : IsSound filtered value?) (same : further ↔ filtered) :
    IsSound further value? := by
  rwa [propext same]

end IsSound

/-- All records of a list carry sound numbers, as far as these have been read. -/
def AreSound (filtered : Prop) (records : List Record) : Prop :=
  ∀ record ∈ records, IsSound filtered record.value?

/-! ## Steps that succeed -/

section Steps

variable {α β ε : Type}

/-- If two steps in a row succeed, so has the first one. -/
theorem exists_of_bind_eq_ok
    {first : Except ε α}
    {second : α → Except ε β}
    {result : β}
    (both : first >>= second = .ok result) :
    ∃ value, first = .ok value ∧ second value = .ok result := by
  cases first with
  | error => cases both
  | ok value => exact ⟨value, rfl, both⟩

/-- What is left after a traversal has been made by one of its steps. -/
theorem exists_of_mapM_eq_ok
    {step : α → Except ε β}
    {elements : List α}
    {results : List β}
    {result : β}
    (traversed : elements.mapM step = .ok results)
    (present : result ∈ results) :
    ∃ element ∈ elements, step element = .ok result := by
  induction elements generalizing results with
  | nil =>
      cases traversed
      cases present
  | cons element rest inductionHypothesis =>
      rw [List.mapM_cons] at traversed
      obtain ⟨first, taken, traversed⟩ := exists_of_bind_eq_ok traversed
      obtain ⟨later, others, traversed⟩ := exists_of_bind_eq_ok traversed
      cases traversed
      rcases List.mem_cons.mp present with rfl | present
      · exact ⟨element, List.mem_cons_self, taken⟩
      · obtain ⟨origin, among, made⟩ := inductionHypothesis others present
        exact ⟨origin, List.mem_cons_of_mem _ among, made⟩

end Steps

/-! ## Stages -/

namespace Stage

variable
  {filtered : Prop}
  {now : Timestamp}
  {record result : Record}
  {batch next : Batch}

theorem isFinite_of_parseValue
    {text : String}
    {value : Float}
    (read : parseValue text = .ok value) :
    value.isFinite = true := by
  unfold parseValue at read
  split at read
  · cases read
  · split at read
    · cases read
    · split at read
      · rename_i finite
        cases read
        exact finite
      · cases read

/-- A number that has just been read is finite, and behind a filter there is none to read. -/
theorem isSound_of_parseRecord
    (sound : IsSound filtered record.value?)
    (parsed : parseRecord now record = .ok result) :
    IsSound filtered result.value? := by
  unfold parseRecord at parsed
  split at parsed
  · split at parsed
    · rename_i read
      cases parsed
      exact ⟨isFinite_of_parseValue read, fun behind => absurd behind sound⟩
    · cases parsed
  · cases parsed

theorem isSound_of_transformRecord
    (sound : IsSound filtered record.value?)
    (transformed : transformRecord record = .ok result) :
    IsSound filtered result.value? := by
  cases record with
  | raw => cases transformed
  | parsed | transformed =>
      cases transformed
      exact sound

theorem value?_of_valueFor
    {kind : String}
    {value : Float}
    (read : valueFor kind record = .ok value) :
    record.value? = some value := by
  unfold valueFor at read
  split at read
  · rename_i carries
    cases read
    exact carries
  · cases read

/-- A filter keeps only records that carry numbers within bounds. -/
theorem withinFilterBounds_of_filterRecords
    {records kept : List Record}
    (selected : filterRecords records = .ok kept)
    (present : record ∈ kept) :
    ∃ value, record.value? = some value ∧ withinFilterBounds value = true := by
  induction records generalizing kept with
  | nil =>
      cases selected
      cases present
  | cons first rest inductionHypothesis =>
      rw [filterRecords] at selected
      obtain ⟨value, read, selected⟩ := exists_of_bind_eq_ok selected
      obtain ⟨later, others, selected⟩ := exists_of_bind_eq_ok selected
      cases selected
      split at present
      · rename_i within
        rcases List.mem_cons.mp present with rfl | present
        · exact ⟨value, value?_of_valueFor read, within⟩
        · exact inductionHypothesis others present
      · exact inductionHypothesis others present

/-- A traversal that becomes the records of a batch has led to these. -/
theorem records_of_outcomeOf
    {traversal : Except Failure (List Record)}
    {index : Nat}
    (outcome : outcomeOf .batch (do return Batch.mk index (← traversal)) =
      .output (.batch next)) :
    traversal = .ok next.records := by
  cases traversal with
  | error => cases outcome
  | ok records =>
      cases outcome
      rfl

/-- A built-in stage hands on sound numbers. -/
theorem areSound_of_apply
    {stage : Stage}
    (builtin : stage.kind.isBuiltin = true)
    (sound : AreSound filtered batch.records)
    (applied : stage.apply now batch = .output (.batch next)) :
    AreSound (filtered ∨ stage.kind = .filter) next.records := by
  intro record present
  unfold apply at applied
  split at applied
  · rename_i kind
    obtain ⟨raw, among, parsed⟩ := exists_of_mapM_eq_ok (records_of_outcomeOf applied) present
    exact (isSound_of_parseRecord (sound raw among) parsed).congr (by simp [kind])
  · rename_i kind
    obtain ⟨numeric, among, transformed⟩ :=
      exists_of_mapM_eq_ok (records_of_outcomeOf applied) present
    exact (isSound_of_transformRecord (sound numeric among) transformed).congr (by simp [kind])
  · obtain ⟨value, carries, within⟩ :=
      withinFilterBounds_of_filterRecords (records_of_outcomeOf applied) present
    rw [carries]
    exact .of_withinFilterBounds within
  · unfold outcomeOf at applied
    split at applied <;> cases applied
  · rename_i transform kind
    rw [kind] at builtin
    cases builtin

/-- A built-in stage summarises sound numbers. -/
theorem exists_ofValues_of_apply
    {stage : Stage}
    {summary : Summary}
    (builtin : stage.kind.isBuiltin = true)
    (sound : AreSound filtered batch.records)
    (applied : stage.apply now batch = .output (.summary summary)) :
    stage.kind = .aggregate ∧ ∃ values, summary = Summary.ofValues values ∧
      ∀ value ∈ values, IsSound filtered (some value) := by
  unfold apply at applied
  split at applied
  case h_4 kind =>
    rw [aggregateBatch] at applied
    cases traversed : batch.records.mapM (valueFor "aggregate") with
    | error =>
        rw [traversed] at applied
        cases applied
    | ok values =>
        rw [traversed] at applied
        cases applied
        refine ⟨kind, values, rfl, fun value present => ?_⟩
        obtain ⟨record, among, read⟩ := exists_of_mapM_eq_ok traversed present
        rw [← value?_of_valueFor read]
        exact sound record among
  case h_5 transform kind =>
    rw [kind] at builtin
    cases builtin
  all_goals
    unfold outcomeOf at applied
    split at applied <;> cases applied

end Stage

/-! ## All stages -/

namespace Sequential

theorem apply_of_reply
    {stage : Stage}
    {now : Timestamp}
    {batch : Batch}
    {output : StageOutput}
    (replied : reply stage now batch = .ok output) :
    stage.apply now batch = .output output := by
  unfold reply Stage.reply? at replied
  cases applied : stage.apply now batch with
  | output made =>
      rw [applied] at replied
      cases replied
      rfl
  | failure | panic | death =>
      rw [applied] at replied
      cases replied

/-- Behind all stages of a list the numbers have been filtered if there is a filter among
them. -/
theorem exists_ofValues_of_passBatch
    {clocks : Clocks}
    {turn index ordinal : Nat}
    {stages : List Stage}
    {batch : Batch}
    {summary : Summary}
    {filtered : Prop}
    (builtin : ∀ stage ∈ stages, stage.kind.isBuiltin = true)
    (sound : AreSound filtered batch.records)
    (passes : passBatch clocks turn index ordinal stages batch = .ok summary) :
    ∃ values, summary = Summary.ofValues values ∧
      ∀ value ∈ values,
        IsSound (filtered ∨ ∃ stage ∈ stages, stage.kind = .filter) (some value) := by
  induction stages generalizing ordinal batch filtered with
  | nil => cases passes
  | cons stage rest inductionHypothesis =>
      obtain ⟨known, others⟩ := List.forall_mem_cons.mp builtin
      rcases passBatch_cons_eq_ok passes with ⟨next, replied, -, passes⟩ | ⟨replied, rfl⟩
      · have handed := Stage.areSound_of_apply known sound (apply_of_reply replied)
        obtain ⟨values, made, numbers⟩ := inductionHypothesis others handed passes
        refine ⟨values, made, fun value present => (numbers value present).congr ?_⟩
        rw [List.exists_mem_cons_iff, or_assoc]
      · obtain ⟨aggregate, values, made, numbers⟩ :=
          Stage.exists_ofValues_of_apply known sound (apply_of_reply replied)
        refine ⟨values, made, fun value present => (numbers value present).congr ?_⟩
        simp [aggregate]

end Sequential
end StagePipeline
