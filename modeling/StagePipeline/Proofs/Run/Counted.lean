import StagePipeline.Counted
import StagePipeline.Proofs.Run.Counters
import StagePipeline.Proofs.Run.Progress
import StagePipeline.Proofs.Run.Retirement
import StagePipeline.Proofs.Run.Standing
import StagePipeline.Proofs.Summary

/-!
# Runs that count in words

Where a counter would overflow a run unwinds, and its workers are stopped all the same.  No
counter overflows if those of the reference fit a word in the end: then a run that counts in
words takes the same steps as one that counts in natural numbers, under every schedule.
-/

namespace StagePipeline

/-! ## Counters of the reference -/

/-- The counters of all stages fit a word. -/
def StageMetrics.AllFit (metrics : List StageMetrics) : Prop :=
  ∀ counted ∈ metrics, counted.Fits

namespace Sequential

variable
  {clocks : Clocks}
  {stages : List Stage}
  {batches : List Batch}
  {finished : List Finished}

/-- The counters of some batches fit a word: those of all stages after the batches that the
reference finishes and the one that fails, and the count of the finished ones. -/
structure Countable (clocks : Clocks) (stages : List Stage) (batches : List Batch) : Prop where
  metrics :
    StageMetrics.AllFit
      (Run.metricsBefore clocks stages batches
        ((passAll clocks stages 0 batches).finished.length + 1))
  tally : (passAll clocks stages 0 batches).totals.count < Word.limit

instance (metrics : List StageMetrics) : Decidable (StageMetrics.AllFit metrics) :=
  inferInstanceAs (Decidable (∀ counted ∈ metrics, counted.Fits))

instance (clocks : Clocks) (stages : List Stage) (batches : List Batch) :
    Decidable (Countable clocks stages batches) :=
  decidable_of_iff
    (StageMetrics.AllFit
        (Run.metricsBefore clocks stages batches
          ((passAll clocks stages 0 batches).finished.length + 1)) ∧
      (passAll clocks stages 0 batches).totals.count < Word.limit)
    ⟨fun ⟨metrics, tally⟩ => ⟨metrics, tally⟩,
      fun countable => ⟨countable.metrics, countable.tally⟩⟩

/-- A batch that is passed on makes no counter smaller. -/
theorem allFit_of_passMetrics
    {turn index ordinal : Nat}
    {batch : Batch}
    {metrics : List StageMetrics}
    (fit : StageMetrics.AllFit (passMetrics clocks turn index ordinal stages batch metrics)) :
    StageMetrics.AllFit metrics := by
  induction stages generalizing ordinal batch metrics with
  | nil => exact fit
  | cons stage rest inductionHypothesis =>
      cases metrics with
      | nil => exact fit
      | cons counted others =>
          rw [passMetrics] at fit
          split at fit
          · exact fit
          · obtain ⟨here, behind⟩ := List.forall_mem_cons.mp fit
            refine List.forall_mem_cons.mpr ⟨here.of_record, ?_⟩
            split at behind
            · exact inductionHypothesis behind
            · exact behind
            · exact behind

/-- The counters of a later turn bound those of an earlier one. -/
theorem allFit_metricsBefore
    {turn later : Nat}
    (earlier : turn ≤ later)
    (fit : StageMetrics.AllFit (Run.metricsBefore clocks stages batches later)) :
    StageMetrics.AllFit (Run.metricsBefore clocks stages batches turn) := by
  induction later, earlier using Nat.le_induction with
  | base => exact fit
  | succ later _ inductionHypothesis =>
      refine inductionHypothesis ?_
      cases rest_eq : batches.drop later with
      | nil =>
          have all : batches.length ≤ later := List.drop_eq_nil_iff.mp rest_eq
          rw [Run.metricsBefore, List.take_of_length_le (Nat.le_succ_of_le all)] at fit
          rwa [Run.metricsBefore, List.take_of_length_le all]
      | cons batch rest =>
          rw [Run.metricsBefore_succ rest_eq] at fit
          exact allFit_of_passMetrics fit

/-- What a run has finished is what the reference finishes first. -/
theorem Finishes.isPrefix (finishes : Finishes clocks stages batches finished) :
    finished <+: (passAll clocks stages 0 batches).finished := by
  have reference : Finishes clocks stages batches (passAll clocks stages 0 batches).finished := by
    intro turn index summary present
    obtain ⟨batch, there, tagged, passes⟩ := passAll_finished present
    rw [Nat.zero_add] at passes
    exact ⟨batch, there, tagged, passes⟩
  have short : finished.length ≤ (passAll clocks stages 0 batches).finished.length := by
    rcases passAll_fault? clocks stages 0 batches with
      ⟨-, all⟩ | ⟨batch, fault, -, there, fails⟩
    · rw [all]
      exact finishes.length_le
    · rw [Nat.zero_add] at fails
      exact finishes.length_le_of_error there fails
  rw [List.prefix_iff_getElem?]
  intro turn within
  rw [← List.getElem?_eq_getElem within]
  exact reference.getElem?_eq finishes (Nat.lt_of_lt_of_le within short) within

/-- The count of what has been finished fits a word. -/
theorem Countable.count_lt
    (countable : Countable clocks stages batches)
    (finishes : Finishes clocks stages batches finished) :
    (Tally.ofList (finished.map Prod.snd)).count < Word.limit := by
  obtain ⟨rest, whole⟩ := finishes.isPrefix
  have bounded := countable.tally
  rw [Outcome.totals, Totals.combine, Tally.finish, ← whole] at bounded
  simp only [List.map_append, Tally.ofList_count, List.sum_append] at bounded ⊢
  omega

end Sequential

namespace Run

open StagePipeline.Sequential

variable
  {settings : Settings}
  {clocks : Clocks}
  {stages : List Stage}
  {batches : List Batch}
  {run reached : Run}
  {finished : List Finished}
  {position : Position}
  {action : Action}
  {transition : Transition}

/-! ## Overflows -/

/-- A run unwinds because its counters do not take in what a call returns with. -/
inductive Overflow (run : Run) : Action → Transition → Prop where
  | unwind {index ordinal recordsIn : Nat} {action : Worker.Action} {worker next : Worker}
      {batch : Batch} {output : StageOutput} :
      run.control = .hop index ordinal recordsIn →
      run.workers[ordinal]? = some worker →
      isCallerAction action = true →
      Worker.CallerMove worker action ⟨next, some (.answered batch (.ok output))⟩ →
      run.takesIn index ordinal recordsIn output = false →
      Overflow run (.client action)
        ⟨{ run with workers := run.workers.set ordinal next }.conclude .unwound,
          some (ordinal, .answered batch (.ok output))⟩

theorem Overflow.of_overflow? (overflows : run.overflow? action = some transition) :
    Overflow run action transition := by
  unfold overflow? at overflows
  split at overflows
  · split at overflows
    · rename_i hopping
      split at overflows
      · cases overflows
      · rename_i found
        split at overflows
        · rename_i taken
          split at overflows
          · rename_i exceeds
            rw [Bool.and_eq_true, Bool.not_eq_true'] at exceeds
            cases overflows
            exact .unwind hopping found exceeds.1
              ((Worker.Move.of_step taken).of_isCallerAction exceeds.1) exceeds.2
          · cases overflows
        · cases overflows
    · cases overflows
  · cases overflows

/-- Where counters are words, a step is an overflow or one that could be taken anyway. -/
theorem overflow_or_step (taken : run.stepCounted action = some transition) :
    Overflow run action transition ∨ run.step action = some transition := by
  rw [stepCounted] at taken
  cases overflows : run.overflow? action with
  | none =>
      rw [overflows, Option.none_or] at taken
      exact Or.inr taken
  | some unwound =>
      rw [overflows, Option.some_or] at taken
      cases taken
      exact Or.inl (.of_overflow? overflows)

/-- A run overflows at the return of a hop, and all its workers serve when it does.  A dead
thread and a missed deadline leave no output to be counted. -/
theorem Orderly.of_overflow
    (orderly : Orderly settings clocks stages run position)
    (overflow : Overflow run action transition) :
    ∃ passage output, position = .hop passage true ∧
      passage.reply clocks run.turn = .ok output ∧
      (passage.ordinal + 1 == run.workers.length) = passage.ahead.isEmpty ∧
      run.takesIn passage.index passage.ordinal passage.batch.size output = false ∧
      Orderly settings clocks stages transition.next
        (.ended .unwound passage.ordinal none) := by
  cases overflow with
  | unwind hopping found ofCaller move exceeds =>
      cases orderly with
      | between ready =>
          rw [ready] at hopping
          cases hopping
      | ended ends =>
          rw [hopping] at ends
          cases ends
      | @hop passage begun worker passes hops workers errand =>
          cases hops.symm.trans hopping
          have present : run.workers[passage.ordinal]? = some worker := by
            rw [workers]
            exact passage.crews_getElem? settings clocks run.number worker
          cases present.symm.trans found
          rcases errand.caller_step move ofCaller with ⟨silent, -⟩ | ⟨reply, answer, returned⟩
          · cases silent
          · cases answer
            cases returned with
            | answered begins replied =>
                subst begins
                refine ⟨passage, _, rfl, reply_of_eq_some replied, ?_, exceeds, ?_⟩
                · rw [workers, passage.isLast_eq]
                · have answered : run.workers.set passage.ordinal
                      (passage.host settings clocks (run.number + 1)) =
                        (run.answered passage settings clocks).workers := by
                    rw [workers]
                    exact set_middle (crew_length 0 passage.passed).symm _
                  refine .of_stopping rfl ?_
                  change ∀ position found, (run.workers.set passage.ordinal
                    (passage.host settings clocks (run.number + 1)))[position]? = some found → _
                  rw [answered]
                  exact remains_of_answered passage

/-! ## Whole runs -/

theorem executeCounted?_cons_eq_some
    {rest : List Action}
    {events : List Event}
    (executed : run.executeCounted? (action :: rest) = some (reached, events)) :
    ∃ transition later, run.stepCounted action = some transition ∧
      transition.next.executeCounted? rest = some (reached, later) ∧
      events = transition.event?.toList ++ later := by
  rw [executeCounted?] at executed
  cases taken : run.stepCounted action with
  | none => simp [taken] at executed
  | some transition =>
      simp only [taken, Option.map_eq_some_iff, Prod.exists, Prod.mk.injEq] at executed
      obtain ⟨last, later, continued, rfl, rfl⟩ := executed
      exact ⟨transition, later, rfl, continued, rfl⟩

/-- A run that counts in words keeps its workers in order, and those of its stages. -/
theorem Orderly.executeCounted?
    {schedule : List Action}
    {events : List Event}
    (orderly : Orderly settings clocks stages run position)
    (executed : run.executeCounted? schedule = some (reached, events)) :
    (∃ last, Orderly settings clocks stages reached last) ∧
      reached.workers.map Worker.stage = run.workers.map Worker.stage := by
  induction schedule generalizing run position events with
  | nil =>
      cases executed
      exact ⟨⟨position, orderly⟩, rfl⟩
  | cons action rest inductionHypothesis =>
      obtain ⟨transition, later, taken, continued, -⟩ := executeCounted?_cons_eq_some executed
      rcases overflow_or_step taken with overflow | step
      · obtain ⟨_, _, -, -, -, -, onward⟩ := orderly.of_overflow overflow
        obtain ⟨ordered, stages_eq⟩ := inductionHypothesis onward continued
        refine ⟨ordered, stages_eq.trans ?_⟩
        cases overflow with
        | unwind _ found _ move =>
            exact map_stage_set found (Worker.Move.caller move).fixed.1
      · obtain ⟨next, -, onward⟩ := orderly.turn (.of_step step)
        obtain ⟨ordered, stages_eq⟩ := inductionHypothesis onward continued
        exact ⟨ordered, stages_eq.trans (Move.of_step step).stages_eq⟩

/-! ## Runs without overflow -/

/-- If the counters of the reference fit a word, every hop that returns is taken in. -/
theorem Standing.takesIn
    {passage : Passage}
    {begun : Bool}
    {output : StageOutput}
    (standing : Standing settings clocks stages batches run finished (.hop passage begun))
    (countable : Countable clocks stages batches)
    (replied : passage.reply clocks run.turn = .ok output)
    (last : (passage.ordinal + 1 == run.workers.length) = passage.ahead.isEmpty) :
    run.takesIn passage.index passage.ordinal passage.batch.size output = true := by
  cases standing with
  | @hop _ _ batch ledger rest_eq underway =>
      obtain ⟨front, metrics, others, split, here, -, metrics_eq⟩ := underway.metrics_split
      have listed : run.metrics[passage.ordinal]? = some metrics := by
        rw [split, List.getElem?_append_right (Nat.le_of_eq here), here, Nat.sub_self]
        rfl
      have turns : run.turn + 1 ≤ (passAll clocks stages 0 batches).finished.length + 1 := by
        rw [ledger.turn_eq]
        exact Nat.succ_le_succ ledger.finishes.isPrefix.length_le
      have fits : (metrics.record passage.batch.size output.recordCount
          (clocks.elapsed run.turn passage.ordinal)).Fits := by
        apply allFit_metricsBefore turns countable.metrics
        rw [metricsBefore_succ rest_eq, metrics_eq, passage.passMetrics_eq, replied]
        exact List.mem_append_right _ List.mem_cons_self
      have counted : run.metrics[passage.ordinal]?.all (fun metrics =>
          (metrics.recordChecked passage.batch.size output.recordCount
            (run.clocks.elapsed run.summaries.length passage.ordinal)).isOk) = true := by
        rw [listed, Option.all_some, ledger.clocks_eq]
        change (metrics.recordChecked _ _ (clocks.elapsed run.turn passage.ordinal)).isOk = true
        rw [StageMetrics.recordChecked_eq_ok_iff.mpr fits]
        rfl
      unfold Run.takesIn
      simp only [counted, last, Bool.true_and]
      split
      · rename_i summary routed
        have isLast := route_eq_finished routed
        rw [isLast] at routed
        obtain ⟨passes, -⟩ :=
          underway.finish ledger.clocks_eq (List.isEmpty_iff.mp isLast) replied routed
        rw [ledger.turn_eq] at passes
        have count := countable.count_lt
          (ledger.finishes.append_singleton (ledger.getElem?_of_drop rest_eq) passes)
        rw [List.map_append, ← ledger.summaries, List.map_cons, List.map_nil,
          Tally.ofList_append_singleton, ← ledger.tally] at count
        rw [Tally.pushChecked_eq_ok_iff.mpr count]
        rfl
      · rfl

theorem stepCounted_eq
    (orderly : Orderly settings clocks stages run position)
    (standing : Standing settings clocks stages batches run finished position)
    (countable : Countable clocks stages batches)
    (action : Action) :
    run.stepCounted action = run.step action := by
  rw [stepCounted]
  cases overflows : run.overflow? action with
  | none => exact Option.none_or
  | some transition =>
      obtain ⟨passage, output, rfl, replied, last, exceeds, -⟩ :=
        orderly.of_overflow (.of_overflow? overflows)
      cases exceeds.symm.trans (standing.takesIn countable replied last)

theorem executeCounted?_eq_of_standing
    (orderly : Orderly settings clocks stages run position)
    (standing : Standing settings clocks stages batches run finished position)
    (countable : Countable clocks stages batches)
    (schedule : List Action) :
    run.executeCounted? schedule = run.execute? schedule := by
  induction schedule generalizing run position finished with
  | nil => rfl
  | cons action rest inductionHypothesis =>
      rw [Run.executeCounted?, execute?, stepCounted_eq orderly standing countable]
      cases taken : run.step action with
      | none => rfl
      | some transition =>
          obtain ⟨next, turned, onward⟩ := orderly.turn (.of_step taken)
          obtain ⟨all, stands⟩ := turned.standing standing
          simp only [inductionHypothesis onward stands]

/-- If the counters of the reference fit a word, it makes no difference under any schedule
that counters are words. -/
theorem executeCounted?_eq
    {observer? : Option Observer}
    (started : start? stages settings clocks observer? batches = some run)
    (countable : Countable clocks stages batches)
    (schedule : List Action) :
    run.executeCounted? schedule = run.execute? schedule :=
  executeCounted?_eq_of_standing (.of_start started) (.of_start started) countable schedule

/-- A run that is not over can go on, and no counter overflows when it does. -/
theorem canStepCounted
    {observer? : Option Observer}
    {schedule : List Action}
    {events : List Event}
    (started : start? stages settings clocks observer? batches = some run)
    (countable : Countable clocks stages batches)
    (executed : run.execute? schedule = some (reached, events))
    (goesOn : reached.ending? = none) :
    ∃ action transition,
      action ≠ .client .expire ∧ reached.stepCounted action = some transition := by
  obtain ⟨last, turned, orderly⟩ := (Orderly.of_start started).turns executed
  obtain ⟨action, transition, taken, inTime, -⟩ := orderly.canGoOn goesOn
  obtain ⟨_, standing⟩ := turned.standing (.of_start started)
  rw [← stepCounted_eq orderly standing countable] at taken
  exact ⟨action, transition, inTime, taken⟩

theorem followCounted_eq_of_standing
    (orderly : Orderly settings clocks stages run position)
    (standing : Standing settings clocks stages batches run finished position)
    (countable : Countable clocks stages batches)
    (steps : Nat) :
    followCounted steps run = follow steps run := by
  induction steps generalizing run position finished with
  | zero => rfl
  | succ steps inductionHypothesis =>
      have same : run.stepCounted = run.step :=
        funext (stepCounted_eq orderly standing countable)
      rw [followCounted, follow, same]
      cases taken : run.usualAction?.bind run.step with
      | none => rfl
      | some transition =>
          obtain ⟨action, -, stepped⟩ := Option.bind_eq_some_iff.mp taken
          obtain ⟨next, turned, onward⟩ := orderly.turn (.of_step stepped)
          obtain ⟨all, stands⟩ := turned.standing standing
          exact inductionHypothesis onward stands

/-- The usual schedule leads to the same end, too. -/
theorem toEndCounted_eq
    {observer? : Option Observer}
    (started : start? stages settings clocks observer? batches = some run)
    (countable : Countable clocks stages batches) :
    run.toEndCounted = run.toEnd :=
  followCounted_eq_of_standing (.of_start started) (.of_start started) countable _

end Run
end StagePipeline
