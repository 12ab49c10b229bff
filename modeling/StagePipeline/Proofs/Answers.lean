import StagePipeline.Proofs.Coordinator
import StagePipeline.Proofs.Run.Standing
import StagePipeline.Proofs.Run.Unobserved

/-!
# Answers under all schedules

A call of a coordinator has the answers of all schedules that come to an end, late ones
included.  Either one of its threads cannot bear its name, or the call answers with what its
run has finished and how it ended.  The usual schedule leads to one of these answers.
-/

namespace StagePipeline

namespace Run

variable
  {settings : Settings}
  {clocks : Clocks}
  {stages : List Stage}
  {run reached : Run}

/-! ## Ends of runs -/

/-- A run that is over has its batches accounted for, however it ended. -/
theorem standing_of_over
    {observer? : Option Observer}
    {batches : List Batch}
    {schedule : List Action}
    {events : List Event}
    {ending : Ending}
    (started : start? stages settings clocks observer? batches = some run)
    (executed : run.execute? schedule = some (reached, events))
    (ended : reached.ending? = some ending) :
    reached.observer? = observer? ∧ ∃ finished ordinal job?,
      Standing settings clocks stages batches reached finished
        (.ended ending ordinal job?) := by
  obtain ⟨last, turned, orderly⟩ := (Orderly.of_start started).turns executed
  obtain ⟨ordinal, job?, rfl⟩ := orderly.position_of_over ended
  obtain ⟨finished, standing⟩ := turned.standing (.of_start started)
  exact ⟨(execute?_observer?_eq executed).trans (start?_observer?_eq started), finished,
    ordinal, job?, standing⟩

/-- The usual schedule is a schedule. -/
theorem follow_executes (steps : Nat) (run : Run) :
    ∃ schedule events, run.execute? schedule = some (follow steps run, events) := by
  induction steps generalizing run with
  | zero => exact ⟨[], [], rfl⟩
  | succ steps inductionHypothesis =>
      rw [follow]
      cases taken : run.usualAction?.bind run.step with
      | none => exact ⟨[], [], rfl⟩
      | some transition =>
          obtain ⟨action, -, taken⟩ := Option.bind_eq_some_iff.mp taken
          obtain ⟨schedule, events, executed⟩ := inductionHypothesis transition.next
          refine ⟨action :: schedule, transition.event?.toList ++ events, ?_⟩
          simp only [execute?, taken, executed, Option.map_some]

end Run

namespace RunResult

/-- The fault that a call has returned. -/
def fault? : RunResult → Option Fault
  | .fault cause => some cause
  | .report _ => none
  | .panic => none

theorem eq_of_fault? {result : RunResult} {cause : Fault} (failed : result.fault? = some cause) :
    result = .fault cause := by
  cases result with
  | fault other => exact congrArg RunResult.fault (Option.some.inj failed)
  | report | panic => cases failed

/-- The report that a call has returned. -/
def report? : RunResult → Option Report
  | .report content => some content
  | .fault _ => none
  | .panic => none

theorem eq_of_report? {result : RunResult} {report : Report}
    (reported : result.report? = some report) :
    result = .report report := by
  cases result with
  | report other => exact congrArg RunResult.report (Option.some.inj reported)
  | fault | panic => cases reported

end RunResult

namespace Coordinator

variable
  {stages : List Stage}
  {settings : Settings}
  {runId : RunId}
  {coordinator : Coordinator}
  {clocks : Clocks}
  {observer? : Option Observer}
  {batches : List Batch}
  {answer : RunAnswer}

/-- A call on a new coordinator that answers has started its workers, or has panicked
because one of them could not bear its name. -/
theorem Answers.cases
    (answers : coordinator.Answers clocks observer? batches answer)
    (created : create stages settings runId = .ok coordinator) :
    (Run.start? stages settings clocks observer? batches = none ∧
        answer = ⟨coordinator, .panic, []⟩) ∨
      ∃ started schedule events reached ending,
        Run.start? stages settings clocks observer? batches = some started ∧
        started.execute? schedule = some (reached, events) ∧
        reached.ending? = some ending ∧ answer = coordinator.answer reached ending := by
  obtain ⟨-, -, rfl⟩ := create_eq_ok created
  simp only [Answers, AnswersBy, ne_eq, not_true_eq_false, if_false] at answers
  cases start_eq : Run.start? stages settings clocks observer? batches with
  | none =>
      rw [start_eq] at answers
      exact Or.inl ⟨rfl, answers⟩
  | some started =>
      rw [start_eq] at answers
      obtain ⟨schedule, events, reached, ending, executed, ended, same⟩ := answers
      exact Or.inr ⟨started, schedule, events, reached, ending, rfl, executed, ended, same⟩

/-- If all threads can bear their names, a call that answers has started its workers. -/
theorem Answers.exists_run
    (answers : coordinator.Answers clocks observer? batches answer)
    (created : create stages settings runId = .ok coordinator)
    (nameable : ∀ stage ∈ stages,
      Worker.acceptsThreadName (settings.threadName stage.name) = true) :
    ∃ started schedule events reached ending,
      Run.start? stages settings clocks observer? batches = some started ∧
      started.execute? schedule = some (reached, events) ∧
      reached.ending? = some ending ∧ answer = coordinator.answer reached ending := by
  rcases answers.cases created with ⟨absent, -⟩ | started
  · obtain ⟨inRange, -, -⟩ := create_eq_ok created
    obtain ⟨started, start_eq⟩ := Run.start?_isSome inRange nameable clocks observer? batches
    cases absent.symm.trans start_eq
  · exact started

/-- A call that answers with a report has completed a run. -/
theorem Answers.exists_completed
    {report : Report}
    (answers : coordinator.Answers clocks observer? batches answer)
    (created : create stages settings runId = .ok coordinator)
    (reported : answer.result = .report report) :
    ∃ reached finished ordinal job?,
      Run.Standing settings clocks stages batches reached finished
        (.ended .completed ordinal job?) ∧
      report = reached.report coordinator.runId := by
  rcases answers.cases created with
    ⟨-, rfl⟩ | ⟨started, schedule, events, reached, ending, start_eq, executed, ended, rfl⟩
  · cases reported
  · obtain ⟨-, finished, ordinal, job?, standing⟩ :=
      Run.standing_of_over start_eq executed ended
    cases ending with
    | completed =>
        cases reported
        exact ⟨reached, finished, ordinal, job?, standing, rfl⟩
    | failed | unwound => cases reported

/-- Where a run stands after some actions, the usual schedule leads to an answer from there. -/
theorem Answers.of_toEnd
    {started middle : Run}
    {schedule : List Run.Action}
    {events : List Run.Event}
    {ending : Run.Ending}
    (coordinator : Coordinator)
    (idle : coordinator.state = .idle)
    (start_eq : Run.start? coordinator.stages coordinator.settings clocks observer? batches =
      some started)
    (executed : started.execute? schedule = some (middle, events))
    (ended : middle.toEnd.ending? = some ending) :
    coordinator.Answers clocks observer? batches (coordinator.answer middle.toEnd ending) := by
  obtain ⟨later, seen, continued⟩ := Run.follow_executes middle.stepBound middle
  simp only [Answers, AnswersBy, idle, ne_eq, not_true_eq_false, if_false, start_eq]
  exact ⟨schedule ++ later, events ++ seen, middle.toEnd, ending,
    Run.execute?_append executed continued, ended, rfl⟩

/-- The usual schedule leads to an answer of the call. -/
theorem Answers.of_run?
    (ran : coordinator.run? clocks observer? batches = some answer) :
    coordinator.Answers clocks observer? batches answer := by
  by_cases idle : coordinator.state = .idle
  · simp only [run?, runBy?, idle, ne_eq, not_true_eq_false, if_false] at ran
    cases start_eq : Run.start? coordinator.stages coordinator.settings clocks observer? batches with
    | none =>
        rw [start_eq] at ran
        cases ran
        simp only [Answers, AnswersBy, idle, ne_eq, not_true_eq_false, if_false, start_eq]
    | some started =>
        rw [start_eq] at ran
        obtain ⟨ending, ended, rfl⟩ := Option.map_eq_some_iff.mp ran
        have here : started.execute? [] = some (started, []) := rfl
        exact .of_toEnd coordinator idle start_eq here ended
  · rw [run?, runBy?, if_pos idle] at ran
    cases ran
    rw [Answers, AnswersBy, if_pos idle]

/-- If the counters of the reference fit a word, calls that count in words have the same
answers. -/
theorem answersCounted_iff
    (created : create stages settings runId = .ok coordinator)
    (countable : Sequential.Countable clocks stages batches) :
    coordinator.AnswersCounted clocks observer? batches answer ↔
      coordinator.Answers clocks observer? batches answer := by
  obtain ⟨-, -, rfl⟩ := create_eq_ok created
  simp only [AnswersCounted, Answers, AnswersBy, ne_eq, not_true_eq_false, if_false]
  cases start_eq : Run.start? stages settings clocks observer? batches with
  | none => rfl
  | some started => simp only [Run.executeCounted?_eq start_eq countable]

/-- The usual schedule leads to the same answer, too. -/
theorem runCounted?_eq
    (created : create stages settings runId = .ok coordinator)
    (countable : Sequential.Countable clocks stages batches) :
    coordinator.runCounted? clocks observer? batches =
      coordinator.run? clocks observer? batches := by
  obtain ⟨-, -, rfl⟩ := create_eq_ok created
  simp only [runCounted?, run?, runBy?, ne_eq, not_true_eq_false, if_false]
  cases start_eq : Run.start? stages settings clocks observer? batches with
  | none => rfl
  | some started => simp only [Run.toEndCounted_eq start_eq countable]

end Coordinator
end StagePipeline
