import Mathlib.Data.List.Basic
import StagePipeline.Proofs.Answers
import StagePipeline.Proofs.Summary

/-!
# The flow of records

No records are lost or made between two stages.  What comes into a run is taken in by the
first stage, what a stage hands out is taken in by the next one, and what the last stage
hands out is what the totals count.  The stages themselves may drop, add or replace records
as they like.
-/

namespace StagePipeline

namespace StageMetrics

/-- A row of stages takes in the supply and hands out the yield, and each stage but the
first takes in what the one before it hands out. -/
def Balanced : List StageMetrics → Nat → Nat → Prop
  | [], supply, yield => supply = yield
  | metrics :: others, supply, yield =>
      metrics.recordsIn = supply ∧ Balanced others metrics.recordsOut yield

namespace Balanced

variable {row : List StageMetrics} {supply yield : Nat}

theorem head? (balanced : Balanced row supply yield) (nonempty : row ≠ []) :
    row.head?.map recordsIn = some supply := by
  cases row with
  | nil => exact absurd rfl nonempty
  | cons metrics others => exact congrArg some balanced.1

theorem getElem?_succ
    {position : Nat}
    {before after : StageMetrics}
    (balanced : Balanced row supply yield)
    (first : row[position]? = some before)
    (second : row[position + 1]? = some after) :
    after.recordsIn = before.recordsOut := by
  induction row generalizing position supply with
  | nil => cases first
  | cons metrics others inductionHypothesis =>
      cases position with
      | succ position => exact inductionHypothesis balanced.2 first second
      | zero =>
          cases first
          cases others with
          | nil => cases second
          | cons next others =>
              cases second
              exact balanced.2.1

theorem getLast? (balanced : Balanced row supply yield) (nonempty : row ≠ []) :
    row.getLast?.map recordsOut = some yield := by
  induction row generalizing supply with
  | nil => exact absurd rfl nonempty
  | cons metrics others inductionHypothesis =>
      cases others with
      | nil => exact congrArg some balanced.2
      | cons next others =>
          rw [List.getLast?_cons_cons]
          exact inductionHypothesis balanced.2 (List.cons_ne_nil next others)

end Balanced

/-- Stages that have not been given a batch are in balance. -/
theorem balanced_new (stages : List Stage) :
    Balanced (stages.map fun stage => new stage.name) 0 0 := by
  induction stages with
  | nil => rfl
  | cons stage rest inductionHypothesis => exact ⟨rfl, inductionHypothesis⟩

end StageMetrics

/-! ## The reference -/

namespace Sequential

open StageMetrics

variable {clocks : Clocks} {turn index ordinal : Nat} {stages : List Stage} {batch : Batch}
  {summary : Summary} {row : List StageMetrics}

/-- A batch that passes a stage goes on to the next one, or is summarised by the last. -/
theorem passBatch_cons_eq_ok
    {stage : Stage}
    {rest : List Stage}
    (passes : passBatch clocks turn index ordinal (stage :: rest) batch = .ok summary) :
    (∃ next, reply stage (clocks.stamp ordinal (UInt64.ofNat turn)) batch = .ok (.batch next) ∧
        Run.route index rest.isEmpty (.batch next) = .next next ∧
        passBatch clocks turn index (ordinal + 1) rest next = .ok summary) ∨
      (reply stage (clocks.stamp ordinal (UInt64.ofNat turn)) batch = .ok (.summary summary) ∧
        rest = []) := by
  rw [passBatch] at passes
  split at passes
  · cases passes
  · rename_i output replied
    split at passes
    · rename_i next routed
      obtain ⟨-, rfl, -⟩ := Run.route_eq_next routed
      exact Or.inl ⟨next, replied, routed, passes⟩
    · rename_i last routed
      cases passes
      have last := Run.route_eq_finished routed
      rw [last] at routed
      cases output with
      | batch content => cases routed
      | summary content =>
          cases routed
          exact Or.inr ⟨replied, List.isEmpty_iff.mp last⟩
    · cases passes

theorem passMetrics_names (batch : Batch) (row : List StageMetrics) :
    (passMetrics clocks turn index ordinal stages batch row).map stageName =
      row.map stageName := by
  induction stages generalizing ordinal batch row with
  | nil => rfl
  | cons stage rest inductionHypothesis =>
      cases row with
      | nil => rfl
      | cons metrics others =>
          rw [passMetrics]
          split
          · rfl
          · rw [List.map_cons, List.map_cons, record_stageName]
            split
            · rw [inductionHypothesis]
            · rfl
            · rfl

/-- A batch that passes is handed from stage to stage without loss, and its summary is
over as many values as the last stage hands out. -/
theorem passMetrics_balanced
    {supply yield : Nat}
    (passes : passBatch clocks turn index ordinal stages batch = .ok summary)
    (complete : row.length = stages.length)
    (balanced : Balanced row supply yield) :
    Balanced (passMetrics clocks turn index ordinal stages batch row)
      (supply + batch.size) (yield + summary.count) := by
  induction stages generalizing ordinal batch row supply with
  | nil => cases passes
  | cons stage rest inductionHypothesis =>
      obtain ⟨metrics, others, rfl⟩ := List.exists_cons_of_length_eq_add_one complete
      obtain ⟨rfl, behind⟩ := balanced
      rcases passBatch_cons_eq_ok passes with ⟨next, replied, routed, passes⟩ | ⟨replied, rfl⟩
      · simp only [passMetrics, replied, routed]
        exact ⟨rfl, inductionHypothesis passes (Nat.succ.inj complete) behind⟩
      · have none := List.eq_nil_of_length_eq_zero (Nat.succ.inj complete)
        subst none
        simp only [passMetrics, replied, List.isEmpty_nil, Run.route, if_true]
        exact ⟨rfl, congrArg (· + summary.count) behind⟩

/-- A batch that passes is counted by every stage. -/
theorem passMetrics_batches
    (passes : passBatch clocks turn index ordinal stages batch = .ok summary)
    (complete : row.length = stages.length) :
    (passMetrics clocks turn index ordinal stages batch row).map StageMetrics.batches =
      row.map fun metrics => metrics.batches + 1 := by
  induction stages generalizing ordinal batch row with
  | nil => cases passes
  | cons stage rest inductionHypothesis =>
      obtain ⟨metrics, others, rfl⟩ := List.exists_cons_of_length_eq_add_one complete
      rcases passBatch_cons_eq_ok passes with ⟨next, replied, routed, passes⟩ | ⟨replied, rfl⟩
      · simp only [passMetrics, replied, routed, List.map_cons,
          inductionHypothesis passes (Nat.succ.inj complete)]
        rfl
      · have none := List.eq_nil_of_length_eq_zero (Nat.succ.inj complete)
        subst none
        simp only [passMetrics, replied, List.isEmpty_nil, Run.route, if_true]
        rfl

end Sequential

/-! ## Runs -/

namespace Run

open StagePipeline.Sequential StageMetrics

variable {clocks : Clocks} {stages : List Stage} {batches : List Batch}
  {finished : List Finished}

theorem metricsBefore_names (turn : Nat) :
    (metricsBefore clocks stages batches turn).map stageName = stages.map Stage.name := by
  have kept : ∀ (first : Nat) (batches : List Batch) (row : List StageMetrics),
      (metricsAfter clocks stages first batches row).map stageName = row.map stageName := by
    intro first batches
    induction batches generalizing first with
    | nil => exact fun row => rfl
    | cons batch rest inductionHypothesis =>
        intro row
        rw [metricsAfter, inductionHypothesis, passMetrics_names]
  rw [metricsBefore, kept, List.map_map]
  rfl

/-- After so many finished batches every stage has counted them, and the stages are in
balance over their records. -/
theorem metricsBefore_conserves
    {turn : Nat}
    (finishes : Finishes clocks stages batches finished)
    (within : turn ≤ finished.length) :
    (metricsBefore clocks stages batches turn).map StageMetrics.batches =
        stages.map (fun _ => turn) ∧
      Balanced (metricsBefore clocks stages batches turn)
        ((batches.take turn).map Batch.size).sum
        ((finished.take turn).map fun entry => entry.2.count).sum := by
  induction turn with
  | zero =>
      refine ⟨?_, balanced_new stages⟩
      rw [metricsBefore, List.take_zero, metricsAfter, List.map_map]
      rfl
  | succ turn inductionHypothesis =>
      obtain ⟨counted, balanced⟩ := inductionHypothesis (Nat.le_of_succ_le within)
      obtain ⟨batch, there, -, passes⟩ :=
        finishes turn _ _ (List.getElem?_eq_getElem within)
      obtain ⟨inside, rfl⟩ := List.getElem?_eq_some_iff.mp there
      have complete : (metricsBefore clocks stages batches turn).length = stages.length := by
        rw [metricsBefore, metricsAfter_length, List.length_map]
      rw [metricsBefore_succ (List.drop_eq_getElem_cons inside)]
      constructor
      · have more := congrArg (List.map (· + 1)) counted
        rw [List.map_map, List.map_map] at more
        exact (passMetrics_batches passes complete).trans more
      · rw [← List.take_append_getElem inside, ← List.take_append_getElem within,
          List.map_append, List.map_append, List.sum_append, List.sum_append]
        exact passMetrics_balanced passes complete balanced

end Run

/-! ## Reports -/

/-- The metrics of a report agree with each other, with the batches that came in and with
the totals. -/
structure Report.Conserves (report : Report) (stages : List Stage) (batches : List Batch) :
    Prop where
  names : report.metrics.map StageMetrics.stageName = stages.map Stage.name
  counted : ∀ metrics ∈ report.metrics, metrics.batches = batches.length
  supplied :
    report.metrics.head?.map StageMetrics.recordsIn = some (batches.map Batch.size).sum
  handedOn : ∀ (position : Nat) (before after : StageMetrics),
    report.metrics[position]? = some before → report.metrics[position + 1]? = some after →
      after.recordsIn = before.recordsOut
  yielded :
    report.metrics.getLast?.map StageMetrics.recordsOut = some report.totals.count
  total : report.totals.count = (report.summaries.map Summary.count).sum

/-- A complete run leaves a report in which the records are conserved. -/
theorem Run.Standing.conserves
    {settings : Settings}
    {clocks : Clocks}
    {stages : List Stage}
    {batches : List Batch}
    {run : Run}
    {finished : List Finished}
    {ordinal : Nat}
    {job? : Option Worker.Job}
    (standing : Run.Standing settings clocks stages batches run finished
      (.ended .completed ordinal job?))
    (nonempty : stages ≠ [])
    (runId : RunId) :
    (run.report runId).Conserves stages batches := by
  cases standing with
  | completed ledger all metrics =>
      obtain ⟨counted, balanced⟩ :=
        Run.metricsBefore_conserves ledger.finishes (Nat.le_of_eq all.symm)
      rw [List.take_length, ← all, List.take_length, all, ← metrics] at balanced
      rw [← metrics] at counted
      have names : run.metrics.map StageMetrics.stageName = stages.map Stage.name := by
        rw [metrics, Run.metricsBefore_names]
      have some : run.metrics ≠ [] := by
        intro none
        rw [none] at names
        exact nonempty (List.map_eq_nil_iff.mp names.symm)
      have total : run.tally.count = (run.summaries.map Summary.count).sum := by
        rw [ledger.tally, Tally.ofList_count]
      have yield : (finished.map fun entry => entry.2.count).sum = run.tally.count := by
        rw [total, ledger.summaries, List.map_map]
        rfl
      rw [yield] at balanced
      refine ⟨names, fun entry present => ?_, balanced.head? some,
        fun position before after => balanced.getElem?_succ, balanced.getLast? some, total⟩
      have among : entry.batches ∈ run.metrics.map StageMetrics.batches :=
        List.mem_map_of_mem present
      rw [counted] at among
      obtain ⟨stage, -, same⟩ := List.mem_map.mp among
      exact same.symm

namespace Coordinator

/-- Under every schedule a report conserves the records: each stage has processed all
batches and has taken in what the stage before it handed out, from the records that came
in to the totals. -/
theorem records_conserved
    {stages : List Stage}
    {settings : Settings}
    {runId : RunId}
    {coordinator : Coordinator}
    {clocks : Clocks}
    {observer? : Option Observer}
    {batches : List Batch}
    {answer : RunAnswer}
    {report : Report}
    (created : create stages settings runId = .ok coordinator)
    (answers : coordinator.Answers clocks observer? batches answer)
    (reported : answer.result = .report report) :
    report.Conserves stages batches := by
  obtain ⟨reached, finished, ordinal, job?, standing, rfl⟩ :=
    answers.exists_completed created reported
  obtain ⟨-, nonempty, -⟩ := create_eq_ok created
  exact standing.conserves nonempty coordinator.runId

/-- A stage that hands on every record twice. -/
def twice : Stage :=
  ⟨"twice", .custom
    ⟨fun batch => .output (.batch ⟨batch.index, batch.records ++ batch.records⟩), fun _ => false⟩⟩

/-- A stage whose summary is always over five values. -/
def quintet : Stage :=
  ⟨"quintet", .custom ⟨fun _ => .output (.summary { Summary.empty with count := 5 }),
    fun _ => false⟩⟩

/-- Three records come in, six come to the last stage, and the totals are over ten. -/
theorem records_conserved_twice :
    ∃ coordinator answer report first last,
      create [twice, quintet] Settings.standard default = .ok coordinator ∧
      coordinator.run? .still none
        [⟨7, [.raw 0 "one", .raw 1 "two"]⟩, ⟨7, [.raw 2 "three"]⟩] = some answer ∧
      answer.result = .report report ∧ report.metrics = [first, last] ∧
      first.recordsIn = 3 ∧ first.recordsOut = last.recordsIn ∧
      last.recordsOut = report.totals.count ∧ report.totals.count = 10 := by
  obtain ⟨coordinator, answer, created, ran, outcome⟩ :=
    exists_answer [twice, quintet] Settings.standard
      (·.run? .still none [⟨7, [.raw 0 "one", .raw 1 "two"]⟩, ⟨7, [.raw 2 "three"]⟩])
      (·.result.report?.map (·.summaries.map Summary.count)) (some [5, 5])
      (by decide +kernel)
  obtain ⟨report, found, counts⟩ := Option.map_eq_some_iff.mp outcome
  have reported := RunResult.eq_of_report? found
  have conserves := records_conserved created (Answers.of_run? ran) reported
  have two := congrArg List.length conserves.names
  rw [List.length_map] at two
  obtain ⟨first, last, metrics⟩ := List.length_eq_two.mp two
  have supplied := conserves.supplied
  have yielded := conserves.yielded
  have total := conserves.total
  rw [metrics] at supplied yielded
  rw [counts] at total
  exact ⟨coordinator, answer, report, first, last, created, ran, reported, metrics,
    Option.some.inj supplied,
    (conserves.handedOn 0 first last (by rw [metrics]; rfl) (by rw [metrics]; rfl)).symm,
    Option.some.inj yielded, total⟩

end Coordinator
end StagePipeline
