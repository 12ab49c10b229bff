import StagePipeline.Proofs.Answers
import StagePipeline.Proofs.BatchSize

/-!
# Rearranging the inner stages

On records that carry numbers the stages that transform and filter commute and are
idempotent, and the summary sees the numbers only.  A run of an arrangement of stages
therefore comes to the same totals and summaries as that of the built-in stages, or to the
fault of the same text.
-/

namespace StagePipeline

/-! ## Batches of numbers -/

/-- All records of a batch carry numbers. -/
def Batch.IsNumeric (batch : Batch) : Prop :=
  ∀ record ∈ batch.records, record.value?.isSome = true

namespace Stage

/-- A record with its derived fields, if it carries a number. -/
def derived : Record → Record
  | .raw id text => .raw id text
  | .parsed id value timestamp => derive id value timestamp
  | .transformed id value timestamp _ _ => derive id value timestamp

/-- Whether a record carries a number within the bounds of the filter. -/
def survives (record : Record) : Bool :=
  record.value?.any withinFilterBounds

@[simp] theorem derived_value? (record : Record) : (derived record).value? = record.value? := by
  cases record <;> rfl

@[simp] theorem derived_derived (record : Record) : derived (derived record) = derived record := by
  cases record <;> rfl

@[simp] theorem survives_derived (record : Record) :
    survives (derived record) = survives record := by
  rw [survives, derived_value?, survives]

/-- A traversal of which every step succeeds is a map. -/
theorem mapM_eq_map
    {α β ε : Type}
    {step : α → Except ε β}
    {value : α → β}
    {elements : List α}
    (steps : ∀ element ∈ elements, step element = .ok (value element)) :
    elements.mapM step = .ok (elements.map value) := by
  apply mapM_eq_ok
  rw [List.forall₂_map_right_iff, List.forall₂_same]
  exact steps

section

variable {batch : Batch}

/-- The transform stage does not fail at a numeric batch. -/
theorem transformBatch_of_isNumeric (numeric : batch.IsNumeric) :
    transformBatch batch = .ok ⟨batch.index, batch.records.map derived⟩ := by
  have steps : ∀ record ∈ batch.records, transformRecord record = .ok (derived record) := by
    intro record present
    have carries := numeric record present
    cases record with
    | raw => cases carries
    | parsed | transformed => rfl
  rw [transformBatch, mapM_eq_map steps]
  rfl

/-- The filter keeps what survives of numeric records. -/
theorem filterRecords_of_isNumeric
    {records : List Record}
    (numeric : ∀ record ∈ records, record.value?.isSome = true) :
    filterRecords records = .ok (records.filter survives) := by
  induction records with
  | nil => rfl
  | cons record rest inductionHypothesis =>
      obtain ⟨carries, others⟩ := List.forall_mem_cons.mp numeric
      obtain ⟨value, carries⟩ := Option.isSome_iff_exists.mp carries
      have survives_eq : survives record = withinFilterBounds value := by
        rw [survives, carries]
        rfl
      rw [filterRecords, valueFor_eq_ok "filter" carries, inductionHypothesis others,
        List.filter_cons, survives_eq]
      rfl

/-- The filter stage does not fail at a numeric batch. -/
theorem filterBatch_of_isNumeric (numeric : batch.IsNumeric) :
    filterBatch batch = .ok ⟨batch.index, batch.records.filter survives⟩ := by
  rw [filterBatch, filterRecords_of_isNumeric numeric]
  rfl

/-- The aggregate stage sums up the values of a numeric batch. -/
theorem aggregateBatch_of_isNumeric (numeric : batch.IsNumeric) :
    aggregateBatch batch =
      .ok (Summary.ofValues (batch.records.map fun record => record.value?.getD 0)) := by
  have steps : ∀ record ∈ batch.records,
      valueFor "aggregate" record = .ok (record.value?.getD 0) := by
    intro record present
    obtain ⟨value, carries⟩ := Option.isSome_iff_exists.mp (numeric record present)
    rw [valueFor_eq_ok "aggregate" carries, carries]
    rfl
  rw [aggregateBatch, mapM_eq_map steps]
  rfl

/-- A numeric batch is numeric after the transform stage. -/
theorem isNumeric_derived (numeric : batch.IsNumeric) :
    Batch.IsNumeric ⟨batch.index, batch.records.map derived⟩ := by
  intro record present
  obtain ⟨source, among, rfl⟩ := List.mem_map.mp present
  rw [derived_value?]
  exact numeric source among

/-- A numeric batch is numeric after the filter stage. -/
theorem isNumeric_survivors (numeric : batch.IsNumeric) :
    Batch.IsNumeric ⟨batch.index, batch.records.filter survives⟩ :=
  fun record present => numeric record (List.mem_of_mem_filter present)

/-- By which laws the stages between the first and the last one can be rearranged. -/
structure Interchange (batch : Batch) : Prop where
  succeed : ∃ transformed kept summary, transformBatch batch = .ok transformed ∧
    filterBatch batch = .ok kept ∧ aggregateBatch batch = .ok summary
  commute : (transformBatch batch >>= filterBatch) = (filterBatch batch >>= transformBatch)
  transformTwice : (transformBatch batch >>= transformBatch) = transformBatch batch
  filterTwice : (filterBatch batch >>= filterBatch) = filterBatch batch
  aggregateTransformed : (transformBatch batch >>= aggregateBatch) = aggregateBatch batch

/-- The laws hold for numbers. -/
theorem Interchange.of_isNumeric (numeric : batch.IsNumeric) : Interchange batch := by
  have transforms := transformBatch_of_isNumeric numeric
  have filters := filterBatch_of_isNumeric numeric
  have stillNumeric := isNumeric_derived numeric
  have keptNumeric := isNumeric_survivors numeric
  refine ⟨⟨_, _, _, transforms, filters, aggregateBatch_of_isNumeric numeric⟩, ?_, ?_, ?_, ?_⟩
  · have sameSurvive : survives ∘ derived = survives := funext survives_derived
    calc
      _ = filterBatch ⟨batch.index, batch.records.map derived⟩ := by rw [transforms]; rfl
      _ = .ok ⟨batch.index, (batch.records.map derived).filter survives⟩ :=
          filterBatch_of_isNumeric stillNumeric
      _ = .ok ⟨batch.index, (batch.records.filter survives).map derived⟩ := by
          rw [List.filter_map, sameSurvive]
      _ = transformBatch ⟨batch.index, batch.records.filter survives⟩ :=
          (transformBatch_of_isNumeric keptNumeric).symm
      _ = (filterBatch batch >>= transformBatch) := by rw [filters]; rfl
  · have twice : derived ∘ derived = derived := funext derived_derived
    calc
      _ = transformBatch ⟨batch.index, batch.records.map derived⟩ := by rw [transforms]; rfl
      _ = .ok ⟨batch.index, (batch.records.map derived).map derived⟩ :=
          transformBatch_of_isNumeric stillNumeric
      _ = transformBatch batch := by rw [List.map_map, twice, transforms]
  · calc
      _ = filterBatch ⟨batch.index, batch.records.filter survives⟩ := by rw [filters]; rfl
      _ = .ok ⟨batch.index, (batch.records.filter survives).filter survives⟩ :=
          filterBatch_of_isNumeric keptNumeric
      _ = filterBatch batch := by simp only [List.filter_filter, Bool.and_self, filters]
  · calc
      _ = aggregateBatch ⟨batch.index, batch.records.map derived⟩ := by rw [transforms]; rfl
      _ = .ok (Summary.ofValues ((batch.records.map derived).map
            fun record => record.value?.getD 0)) := aggregateBatch_of_isNumeric stillNumeric
      _ = aggregateBatch batch := by
          simp only [List.map_map, Function.comp_def, derived_value?,
            aggregateBatch_of_isNumeric numeric]

/-- All stages but the first fail at the first raw record of a batch, and name it. -/
structure Refuses (batch : Batch) (id : Nat) : Prop where
  first : ∃ before text after, batch.records = before ++ .raw id text :: after ∧
    ∀ record ∈ before, record.value?.isSome = true
  transform : transformBatch batch =
    .error (.transform ("transform expects numeric records, got raw record " ++ toString id))
  filter : filterBatch batch =
    .error (.transform ("filter expects numeric records, got raw record " ++ toString id))
  aggregate : aggregateBatch batch =
    .error (.transform ("aggregate expects numeric records, got raw record " ++ toString id))

/-- The filter fails at the first record that is not numeric. -/
theorem filterRecords_eq_error
    {before after : List Record}
    {id : Nat}
    {text : String}
    (numeric : ∀ record ∈ before, record.value?.isSome = true) :
    filterRecords (before ++ .raw id text :: after) =
      .error (shapeMismatch "filter" "numeric" (.raw id text)) := by
  induction before with
  | nil => rfl
  | cons record rest inductionHypothesis =>
      obtain ⟨carries, others⟩ := List.forall_mem_cons.mp numeric
      obtain ⟨value, carries⟩ := Option.isSome_iff_exists.mp carries
      rw [List.cons_append, filterRecords, valueFor_eq_ok "filter" carries,
        inductionHypothesis others]
      rfl

/-- The first raw record of a batch is refused. -/
theorem Refuses.of_split
    {before after : List Record}
    {id : Nat}
    {text : String}
    (split : batch.records = before ++ .raw id text :: after)
    (numeric : ∀ record ∈ before, record.value?.isSome = true) :
    Refuses batch id := by
  have carried : ∀ record ∈ before, ∃ value, record.value? = some value :=
    fun record present => Option.isSome_iff_exists.mp (numeric record present)
  refine ⟨⟨before, text, after, split, numeric⟩, ?_, ?_, ?_⟩
  · have succeed : ∀ record ∈ before, ∃ result, transformRecord record = .ok result := by
      intro record present
      obtain ⟨value, carries⟩ := carried record present
      obtain ⟨transformed, transforms, -⟩ := transformRecord_carry carries
      exact ⟨transformed, transforms⟩
    rw [transformBatch, split, mapM_eq_error succeed rfl]
    rfl
  · rw [filterBatch, split, filterRecords_eq_error numeric]
    rfl
  · have succeed : ∀ record ∈ before, ∃ value, valueFor "aggregate" record = .ok value := by
      intro record present
      obtain ⟨value, carries⟩ := carried record present
      exact ⟨value, valueFor_eq_ok "aggregate" carries⟩
    rw [aggregateBatch, split, mapM_eq_error succeed rfl]
    rfl

/-- A batch carries numbers, or there is a first raw record in it. -/
theorem isNumeric_or_refuses (batch : Batch) : batch.IsNumeric ∨ ∃ id, Refuses batch id := by
  rcases forall_or_first (fun record : Record => record.value?.isSome = true) batch.records with
    numeric | ⟨before, record, after, split, numeric, culprit⟩
  · exact Or.inl numeric
  · cases record with
    | raw id text => exact Or.inr ⟨id, .of_split split numeric⟩
    | parsed | transformed => exact absurd rfl culprit

end

end Stage

/-! ## Threads for the built-in stages -/

namespace Worker

/-- A name is fit for a thread if both its halves are. -/
theorem acceptsThreadName_append (front back : String) :
    acceptsThreadName (front ++ back) = (acceptsThreadName front && acceptsThreadName back) := by
  simp only [acceptsThreadName, String.toList_append, List.contains_append, Bool.not_or]

/-- A thread can bear its name if the prefix and the name of the stage let it. -/
theorem acceptsThreadName_threadName (settings : Settings) (name : String) :
    acceptsThreadName (settings.threadName name) =
      (acceptsThreadName settings.threadNamePrefix && acceptsThreadName name) := by
  have hyphen : acceptsThreadName "-" = true := by decide
  simp only [Settings.threadName, acceptsThreadName_append, hyphen, Bool.and_true]

end Worker

/-- Where the threads of some stages can bear their names, those of the built-in stages
can. -/
theorem Pipeline.Nameable.of_nameable
    {settings : Settings}
    {stages : List Stage}
    (nonempty : stages ≠ [])
    (nameable : ∀ stage ∈ stages,
      Worker.acceptsThreadName (settings.threadName stage.name) = true) :
    Nameable settings := by
  have names : ∀ stage ∈ Stage.builtin, Worker.acceptsThreadName stage.name = true := by decide
  obtain ⟨some_stage, present⟩ := List.exists_mem_of_ne_nil stages nonempty
  have accepted := nameable some_stage present
  rw [Worker.acceptsThreadName_threadName, Bool.and_eq_true] at accepted
  intro stage builtin
  rw [Worker.acceptsThreadName_threadName, accepted.1, names stage builtin]
  rfl

/-! ## Two runs over the same batches -/

/-- Two results of stages of which those that read have these names: the same totals and
summaries, or the fault of the same text. -/
inductive RunResult.Alike (reader other : String) : RunResult → RunResult → Prop where
  | reports {left right : Report} :
      left.totals = right.totals →
      left.summaries = right.summaries →
      Alike reader other (.report left) (.report right)
  | faults {index id : Nat} {text reason : String} :
      Alike reader other
        (.fault (.parseFailed reader index id text reason))
        (.fault (.parseFailed other index id text reason))

namespace Coordinator

/-- Two arrangements come to the same over the same batches. -/
theorem alike_of_matchesReference
    {stages others inner otherInner : List Stage}
    {first last otherFirst otherLast : Stage}
    {clocks otherClocks : Clocks}
    {batches : List Batch}
    {left right : RunResult}
    (arranged : Stage.Arrangement stages first last inner)
    (otherArranged : Stage.Arrangement others otherFirst otherLast otherInner)
    (raw : ∀ batch ∈ batches, batch.IsRaw)
    (matching : MatchesReference clocks stages batches left)
    (otherMatching : MatchesReference otherClocks others batches right) :
    RunResult.Alike first.name otherFirst.name left right := by
  rcases forall_or_first (fun batch => Readable batch.records) batches with
    readable | ⟨front, batch, back, rfl, readable, unreadable⟩
  · obtain ⟨report, rfl, summaries, totals⟩ :=
      matching.reports_of_readable arranged raw readable
    obtain ⟨other, rfl, otherSummaries, otherTotals⟩ :=
      otherMatching.reports_of_readable otherArranged raw readable
    have same : report.summaries = other.summaries := summaries.trans otherSummaries.symm
    refine .reports ?_ same
    rw [totals, otherTotals, same]
  · have batchRaw : batch.IsRaw := raw batch (List.mem_append_right _ List.mem_cons_self)
    obtain ⟨before, id, text, after, fault, split, beforeReadable, unread⟩ :=
      first_unreadable batchRaw unreadable
    obtain rfl :=
      matching.fault_of_unreadable arranged raw readable split beforeReadable unread
    obtain rfl :=
      otherMatching.fault_of_unreadable otherArranged raw readable split beforeReadable unread
    exact .faults

/-- Stages that transform and filter may stand between the first and the last one in any
order and number.  If their threads can bear their names, the run has an answer, and
unless a deadline passes, all of its answers are like those of the built-in stages under
the same settings.  This is so since the two kinds commute and are idempotent on numbers,
of which a summary sees no more than the values, while any other record is refused. -/
theorem inner_order_immaterial
    {stages inner : List Stage}
    {first last : Stage}
    {settings : Settings}
    {runId : RunId}
    {coordinator : Coordinator}
    {observer? otherObserver? : Option Observer}
    (here there : Surroundings)
    (batches : List Batch)
    (arranged : Stage.Arrangement stages first last inner)
    (created : create stages settings runId = .ok coordinator)
    (nameable : ∀ stage ∈ stages,
      Worker.acceptsThreadName (settings.threadName stage.name) = true)
    (raw : ∀ batch ∈ batches, batch.IsRaw)
    (calm : ∀ observer ∈ observer?, ∀ told, observer.panics told = false)
    (otherCalm : ∀ observer ∈ otherObserver?, ∀ told, observer.panics told = false) :
    (∃ reference, create Stage.builtin settings there.runId = .ok reference ∧
      (∃ answer other,
        coordinator.run? here.clocks observer? batches = some answer ∧
        reference.run? there.clocks otherObserver? batches = some other ∧
        RunResult.Alike first.name "parse" answer.result other.result) ∧
      ∀ answer other,
        coordinator.TimelyAnswers here.clocks observer? batches answer →
        reference.TimelyAnswers there.clocks otherObserver? batches other →
        RunResult.Alike first.name "parse" answer.result other.result) ∧
    (∀ batch : Batch, batch.IsNumeric → Stage.Interchange batch) ∧
    ∀ (batch : Batch) (id : Nat) (text : String), .raw id text ∈ batch.records →
      ∃ foremost, Stage.Refuses batch foremost := by
  refine ⟨?_, fun batch numeric => .of_isNumeric numeric, ?_⟩
  · obtain ⟨validated, -, -⟩ := accepted_of_create created
    obtain ⟨-, nonempty, -⟩ := create_eq_ok created
    have free : ∀ stage ∈ stages, ∀ batch, stage.holds batch = false :=
      fun stage present => Stage.holds_of_isBuiltin (arranged.isBuiltin stage present)
    have otherCreated := Pipeline.create_builtin validated there.runId
    have otherNameable := Pipeline.Nameable.of_nameable nonempty nameable
    refine ⟨_, otherCreated, ?_, ?_⟩
    · obtain ⟨answer, ran, matching⟩ :=
        run?_matchesReference here.clocks batches created nameable free calm
      obtain ⟨other, otherRan, otherMatching⟩ :=
        run?_matchesReference there.clocks batches otherCreated otherNameable
          Stage.holds_builtin otherCalm
      exact ⟨answer, other, ran, otherRan,
        alike_of_matchesReference arranged .builtin raw matching otherMatching⟩
    · intro answer other answers otherAnswers
      exact alike_of_matchesReference arranged .builtin raw
        (answers.matchesReference created nameable calm)
        (otherAnswers.matchesReference otherCreated otherNameable otherCalm)
  · intro batch id text present
    refine (Stage.isNumeric_or_refuses batch).resolve_left fun numeric => ?_
    cases numeric _ present

/-- Inner stages in another order, two of them twice. -/
def shuffled : List Stage :=
  [⟨"keep", .filter⟩, .transform, ⟨"keep again", .filter⟩, ⟨"derive", .transform⟩]

/-- The numbers of two batches are summarised alike, and one of them does not survive. -/
theorem inner_order_immaterial_shuffled :
    ∃ answer other,
      run? ⟨Settings.standard, .parse :: (shuffled ++ [.aggregate]), .idle, default⟩ .still
        (some .silent) [⟨7, [.raw 0 "30", .raw 1 "75"]⟩, ⟨7, []⟩] = some answer ∧
      run? ⟨Settings.standard, Stage.builtin, .idle, default⟩ .still none
        [⟨7, [.raw 0 "30", .raw 1 "75"]⟩, ⟨7, []⟩] = some other ∧
      RunResult.Alike "parse" "parse" answer.result other.result := by
  have arranged : Stage.Arrangement (.parse :: (shuffled ++ [.aggregate])) .parse .aggregate
      shuffled :=
    ⟨rfl, rfl, by simp [shuffled, Stage.transform],
      ⟨⟨"keep", .filter⟩, List.mem_cons_self, rfl⟩, rfl⟩
  have raw : ∀ batch ∈ [(⟨7, [.raw 0 "30", .raw 1 "75"]⟩ : Batch), ⟨7, []⟩], batch.IsRaw := by
    simp [Batch.IsRaw]
  obtain ⟨⟨reference, created, ⟨answer, other, ran, otherRan, alike⟩, -⟩, -⟩ :=
    inner_order_immaterial ⟨default, .still⟩ ⟨default, .still⟩
      [⟨7, [.raw 0 "30", .raw 1 "75"]⟩, ⟨7, []⟩] arranged
      (show create _ Settings.standard default = .ok _ from rfl) (by decide) raw
      Observer.calm_silent Observer.calm_none
  cases created
  exact ⟨answer, other, ran, otherRan, alike⟩

/-- An inner stage whose name no thread can bear. -/
def hushed : Stage :=
  ⟨"f\x00", .filter⟩

/-- A list with such a stage is accepted, but all runs of it panic, where the built-in
stages report. -/
theorem hushed_inner_panics :
    Stage.Arrangement [.parse, hushed, .aggregate] .parse .aggregate [hushed] ∧
    create [.parse, hushed, .aggregate] Settings.standard default =
      .ok ⟨Settings.standard, [.parse, hushed, .aggregate], .idle, default⟩ ∧
    (∀ answer,
      TimelyAnswers ⟨Settings.standard, [.parse, hushed, .aggregate], .idle, default⟩ .still none
        [⟨0, [.raw 0 "30"]⟩] answer →
      answer.result = .panic) ∧
    ∃ other report,
      run? ⟨Settings.standard, Stage.builtin, .idle, default⟩ .still none
        [⟨0, [.raw 0 "30"]⟩] = some other ∧
      other.result = .report report ∧ report.summaries = [Summary.ofValues [30]] := by
  refine ⟨⟨rfl, rfl, by simp [hushed], ⟨hushed, List.mem_cons_self, rfl⟩, rfl⟩, rfl, ?_, ?_⟩
  · have unnameable : ¬∀ stage ∈ [Stage.parse, hushed, .aggregate],
        Worker.acceptsThreadName (Settings.standard.threadName stage.name) = true := by decide
    intro answer answers
    simp only [TimelyAnswers, ne_eq, not_true_eq_false, if_false,
      Run.start?_eq_none unnameable] at answers
    rw [answers]
  · have raw : ∀ batch ∈ [(⟨0, [.raw 0 "30"]⟩ : Batch)], batch.IsRaw := by
      simp [Batch.IsRaw]
    have readable : ∀ batch ∈ [(⟨0, [.raw 0 "30"]⟩ : Batch)], Readable batch.records := by
      have thirty : parseValue "30" = .ok 30 := by rfl
      simp [Readable, thirty]
    have survivors : Batch.survivors ⟨0, [.raw 0 "30"]⟩ = [30] := by decide +kernel
    obtain ⟨answer, ran, matching⟩ :=
      run?_matchesReference .still [⟨0, [.raw 0 "30"]⟩]
        (show create Stage.builtin Settings.standard default = .ok _ from rfl) (by decide)
        Stage.holds_builtin Observer.calm_none
    obtain ⟨report, same, summaries, -⟩ := matching.reports_of_readable .builtin raw readable
    refine ⟨answer, report, ran, same, ?_⟩
    rw [summaries, List.map_singleton, survivors]

end Coordinator
end StagePipeline
