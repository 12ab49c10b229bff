import StagePipeline.Proofs.Coordinator
import StagePipeline.Proofs.Stage

/-!
# Arrangements of the built-in kinds

Between the stage that reads and the one that summarises, the stages that transform and
filter may stand in any order and any number, as long as one of them filters.  A batch of
raw records comes to the summary of its numbers within bounds, or to the fault of the first
text that is not a number.  The built-in stages are one arrangement.
-/

namespace StagePipeline

/-! ## Lists of stages -/

namespace Stage

/-- A stage that reads, stages that transform and filter, at least one of which filters, and
a stage that summarises. -/
structure Arrangement (stages : List Stage) (first last : Stage) (inner : List Stage) :
    Prop where
  split : stages = first :: (inner ++ [last])
  reads : first.kind = .parse
  between : ∀ stage ∈ inner, stage.kind = .transform ∨ stage.kind = .filter
  filters : ∃ stage ∈ inner, stage.kind = .filter
  summarises : last.kind = .aggregate

/-- The built-in stages are arranged. -/
theorem Arrangement.builtin : Arrangement builtin parse aggregate [transform, filter] where
  split := rfl
  reads := rfl
  between := by simp [transform, filter]
  filters := ⟨filter, by simp, rfl⟩
  summarises := rfl

/-- All stages of an arrangement are built in. -/
theorem Arrangement.isBuiltin
    {stages inner : List Stage}
    {first last : Stage}
    (arranged : Arrangement stages first last inner) :
    ∀ stage ∈ stages, stage.kind.isBuiltin = true := by
  intro stage present
  rw [arranged.split, List.mem_cons, List.mem_append, List.mem_singleton] at present
  rcases present with rfl | present | rfl
  · rw [arranged.reads]
    rfl
  · rcases arranged.between stage present with kind | kind
    · rw [kind]
      rfl
    · rw [kind]
      rfl
  · rw [arranged.summarises]
    rfl

end Stage

/-! ## A batch on its way -/

namespace Sequential

variable
  {clocks : Clocks}
  {turn index ordinal : Nat}
  {stage : Stage}
  {ahead : List Stage}
  {batch : Batch}

/-- A batch that a stage hands on passes the rest of the stages. -/
theorem passBatch_next
    {next : Batch}
    (applied : stage.apply (clocks.stamp ordinal (UInt64.ofNat turn)) batch =
      .output (.batch next))
    (more : ahead ≠ [])
    (kept : next.index = index) :
    passBatch clocks turn index ordinal (stage :: ahead) batch =
      passBatch clocks turn index (ordinal + 1) ahead next := by
  have onward : ahead.isEmpty = false := List.isEmpty_eq_false_iff.mpr more
  rw [passBatch, reply, Stage.reply?, applied]
  simp only [Run.route, onward, Bool.false_eq_true, if_false, kept, if_true]

/-- A batch that the last stage sums up has passed. -/
theorem passBatch_finished
    {summary : Summary}
    (applied : stage.apply (clocks.stamp ordinal (UInt64.ofNat turn)) batch =
      .output (.summary summary)) :
    passBatch clocks turn index ordinal [stage] batch = .ok summary := by
  rw [passBatch, reply, Stage.reply?, applied]
  rfl

/-- A batch at which a stage fails does not pass. -/
theorem passBatch_failed
    {failure : Failure}
    (applied : stage.apply (clocks.stamp ordinal (UInt64.ofNat turn)) batch =
      .failure failure) :
    passBatch clocks turn index ordinal (stage :: ahead) batch =
      .error (failure.tag stage.name batch.index) := by
  rw [passBatch, reply, Stage.reply?, applied]

/-- Stages that transform and filter leave of some numbers those within bounds, if one of
them filters or only these were there. -/
theorem passBatch_inner
    {inner : List Stage}
    {last : Stage}
    {records : List Record}
    {values : List Float}
    (summarises : last.kind = .aggregate)
    (between : ∀ stage ∈ inner, stage.kind = .transform ∨ stage.kind = .filter)
    (filters : (∃ stage ∈ inner, stage.kind = .filter) ∨
      values.filter withinFilterBounds = values)
    (carry : Carry records values) :
    passBatch clocks turn index ordinal (inner ++ [last]) ⟨index, records⟩ =
      .ok (Summary.ofValues (values.filter withinFilterBounds)) := by
  induction inner generalizing ordinal records values with
  | nil =>
      have settled : values.filter withinFilterBounds = values :=
        filters.resolve_left fun ⟨stage, present, _⟩ => List.not_mem_nil present
      have applied : last.apply (clocks.stamp ordinal (UInt64.ofNat turn)) ⟨index, records⟩ =
          .output (.summary (Summary.ofValues values)) := by
        rw [Stage.apply, summarises]
        exact congrArg (Stage.outcomeOf StageOutput.summary)
          (Stage.aggregateBatch_carry index carry)
      rw [settled]
      exact passBatch_finished applied
  | cons stage rest inductionHypothesis =>
      obtain ⟨here, others⟩ := List.forall_mem_cons.mp between
      have more : rest ++ [last] ≠ [] := by simp
      rcases here with transforms | keeps
      · obtain ⟨transformed, result, carry⟩ := Stage.transformBatch_carry index carry
        have applied : stage.apply (clocks.stamp ordinal (UInt64.ofNat turn)) ⟨index, records⟩ =
            .output (.batch ⟨index, transformed⟩) := by
          rw [Stage.apply, transforms]
          exact congrArg (Stage.outcomeOf StageOutput.batch) result
        have later : (∃ stage ∈ rest, stage.kind = .filter) ∨
            values.filter withinFilterBounds = values := by
          refine filters.imp_left ?_
          rintro ⟨other, present, kind⟩
          rcases List.mem_cons.mp present with rfl | behind
          · cases transforms.symm.trans kind
          · exact ⟨other, behind, kind⟩
        rw [List.cons_append, passBatch_next applied more rfl]
        exact inductionHypothesis others later carry
      · obtain ⟨kept, result, carry⟩ := Stage.filterBatch_carry index carry
        have applied : stage.apply (clocks.stamp ordinal (UInt64.ofNat turn)) ⟨index, records⟩ =
            .output (.batch ⟨index, kept⟩) := by
          rw [Stage.apply, keeps]
          exact congrArg (Stage.outcomeOf StageOutput.batch) result
        have settled : (values.filter withinFilterBounds).filter withinFilterBounds =
            values.filter withinFilterBounds := by simp
        rw [List.cons_append, passBatch_next applied more rfl,
          inductionHypothesis others (Or.inr settled) carry, settled]

end Sequential

namespace Coordinator

open StagePipeline.Sequential

variable
  {stages inner : List Stage}
  {first last : Stage}
  {batch : Batch}

/-- A batch that can be read comes to the summary of the numbers within bounds. -/
theorem passes_of_readable
    (arranged : Stage.Arrangement stages first last inner)
    (clocks : Clocks)
    (turn : Nat)
    (raw : batch.IsRaw)
    (readable : Readable batch.records) :
    passes clocks stages turn batch = .ok (Summary.ofValues batch.survivors) := by
  obtain ⟨parsed, parses, carry⟩ :=
    Stage.parseBatch_carry (clocks.stamp 0 (UInt64.ofNat turn)) raw readable
  have applied : first.apply (clocks.stamp 0 (UInt64.ofNat turn)) batch =
      .output (.batch ⟨batch.index, parsed⟩) := by
    rw [Stage.apply, arranged.reads]
    exact congrArg (Stage.outcomeOf StageOutput.batch) parses
  rw [passes, arranged.split, passBatch_next applied (by simp) rfl]
  exact passBatch_inner arranged.summarises arranged.between (Or.inl arranged.filters) carry

/-- A batch that cannot be read fails at the stage that reads. -/
theorem passes_of_unreadable
    {before after : List Record}
    {id : Nat}
    {text : String}
    {fault : NumberFault}
    (arranged : Stage.Arrangement stages first last inner)
    (clocks : Clocks)
    (turn : Nat)
    (raw : batch.IsRaw)
    (split : batch.records = before ++ .raw id text :: after)
    (readable : Readable before)
    (unread : parseValue text = .error fault) :
    passes clocks stages turn batch =
      .error (.parseFailed first.name batch.index id text fault.reason) := by
  have fails := Stage.parseBatch_eq_error (clocks.stamp 0 (UInt64.ofNat turn)) raw split
    readable unread
  have applied : first.apply (clocks.stamp 0 (UInt64.ofNat turn)) batch =
      .failure (.parse id text fault.reason) := by
    rw [Stage.apply, arranged.reads]
    exact congrArg (Stage.outcomeOf StageOutput.batch) fails
  rw [passes, arranged.split]
  exact passBatch_failed applied

/-! ## Runs -/

namespace MatchesReference

variable
  {clocks : Clocks}
  {result : RunResult}

/-- If all batches can be read, the reference reports their summaries. -/
theorem reports_of_readable
    {batches : List Batch}
    (matching : MatchesReference clocks stages batches result)
    (arranged : Stage.Arrangement stages first last inner)
    (raw : ∀ batch ∈ batches, batch.IsRaw)
    (readable : ∀ batch ∈ batches, Readable batch.records) :
    ∃ report, result = .report report ∧
      report.summaries = (batches.map fun batch => Summary.ofValues batch.survivors) ∧
      report.totals = Totals.combine report.summaries := by
  apply matching.exists_report
  intro turn batch there
  have present := List.mem_of_getElem? there
  exact passes_of_readable arranged clocks turn (raw batch present) (readable batch present)

/-- The reference fails at the first text that is not a number. -/
theorem fault_of_unreadable
    {front back : List Batch}
    {before after : List Record}
    {id : Nat}
    {text : String}
    {fault : NumberFault}
    (matching : MatchesReference clocks stages (front ++ batch :: back) result)
    (arranged : Stage.Arrangement stages first last inner)
    (raw : ∀ other ∈ front ++ batch :: back, other.IsRaw)
    (frontReadable : ∀ earlier ∈ front, Readable earlier.records)
    (split : batch.records = before ++ .raw id text :: after)
    (readable : Readable before)
    (unread : parseValue text = .error fault) :
    result = .fault (.parseFailed first.name batch.index id text fault.reason) := by
  have batchRaw : batch.IsRaw := raw batch (List.mem_append_right _ List.mem_cons_self)
  have fails := passes_of_unreadable arranged clocks front.length batchRaw split readable unread
  refine matching.eq_fault ?_ fails
  intro turn other there
  have present := List.mem_of_getElem? there
  exact ⟨_, passes_of_readable arranged clocks turn
    (raw other (List.mem_append_left _ present)) (frontReadable other present)⟩

end MatchesReference
end Coordinator
end StagePipeline
