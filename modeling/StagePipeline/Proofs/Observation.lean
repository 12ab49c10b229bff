import StagePipeline.Proofs.Answers

/-!
# Observers

An observer that returns is told exactly about the batches in front of the first one that
fails, and changes nothing: under the same schedule every other such observer, or none, sees
the same result.  Under another schedule the result is the same too, unless a deadline is
missed.
-/

namespace StagePipeline

/-! ## Finished batches -/

namespace Sequential

variable {settings : Settings} {clocks : Clocks} {stages : List Stage} {batches : List Batch}
  {finished others : List Finished}

/-- If all batches can be finished, one of them fails only by missing a deadline. -/
theorem FailsWith.missed
    {turn : Nat}
    {batch : Batch}
    {fault : Fault}
    (fails : FailsWith settings clocks stages turn batch fault)
    (finishes : Finishes clocks stages batches finished)
    (all : finished.length = batches.length)
    (there : batches[turn]? = some batch) :
    ∃ stage index limit, fault = .timedOut stage index limit := by
  rcases fails with fails | ⟨stage, -, limit, -, rfl⟩
  · have within := finishes.length_le_of_error there fails
    have inside := (List.getElem?_eq_some_iff.mp there).1
    omega
  · exact ⟨stage.name, batch.index, limit, rfl⟩

/-- Two batches that fail behind all that is finished fail in the same way, unless a deadline
is missed.  Neither run can have finished the batch at which the other one fails. -/
theorem FailsWith.eq_or_missed
    {batch other : Batch}
    {fault cause : Fault}
    (fails : FailsWith settings clocks stages finished.length batch fault)
    (alsoFails : FailsWith settings clocks stages others.length other cause)
    (finishes : Finishes clocks stages batches finished)
    (alsoFinishes : Finishes clocks stages batches others)
    (there : batches[finished.length]? = some batch)
    (alsoThere : batches[others.length]? = some other) :
    cause = fault ∨ (∃ stage index limit, fault = .timedOut stage index limit) ∨
      ∃ stage index limit, cause = .timedOut stage index limit := by
  rcases fails with fails | ⟨stage, -, limit, -, rfl⟩
  · rcases alsoFails with alsoFails | ⟨stage, -, limit, -, rfl⟩
    · have length_eq : others.length = finished.length :=
        Nat.le_antisymm (alsoFinishes.length_le_of_error there fails)
          (finishes.length_le_of_error alsoThere alsoFails)
      rw [length_eq] at alsoThere alsoFails
      cases there.symm.trans alsoThere
      exact Or.inl (Except.error.inj (alsoFails.symm.trans fails))
    · exact Or.inr (Or.inr ⟨stage.name, other.index, limit, rfl⟩)
  · exact Or.inr (Or.inl ⟨stage.name, batch.index, limit, rfl⟩)

end Sequential

/-! ## Runs with calm observers -/

/-- A run whose observer has not panicked is complete, or has failed at the batch behind
those that it has finished. -/
theorem Run.Standing.completed_or_failed
    {settings : Settings}
    {clocks : Clocks}
    {stages : List Stage}
    {batches : List Batch}
    {run : Run}
    {finished : List Finished}
    {ending : Run.Ending}
    {ordinal : Nat}
    {job? : Option Worker.Job}
    (standing : Run.Standing settings clocks stages batches run finished
      (.ended ending ordinal job?))
    (calm : ∀ observer ∈ run.observer?, observer.panics run.told = false) :
    Run.Ledger clocks stages batches run finished ∧
      ((ending = .completed ∧ finished.length = batches.length ∧
          run.metrics = Run.metricsBefore clocks stages batches batches.length) ∨
        ∃ batch fault, ending = .failed fault ∧ batches[finished.length]? = some batch ∧
          Sequential.FailsWith settings clocks stages finished.length batch fault) := by
  cases standing with
  | completed ledger all metrics => exact ⟨ledger, Or.inl ⟨rfl, all, metrics⟩⟩
  | failed ledger there fails => exact ⟨ledger, Or.inr ⟨_, _, rfl, there, fails⟩⟩
  | unwound present panics =>
      rw [calm _ present] at panics
      cases panics

/-- A run has failed because a stage kept a batch for too long. -/
def RunResult.MissesDeadline (result : RunResult) : Prop :=
  ∃ stage index limit, result = .fault (.timedOut stage index limit)

/-- Two calls leave the same result and the same coordinator. -/
def RunAnswer.Agrees (answer twin : RunAnswer) : Prop :=
  twin.result = answer.result ∧ twin.coordinator = answer.coordinator

namespace Coordinator

open StagePipeline.Sequential

/-- What a call comes to whose run has finished these batches: a report of them, if they are
all, or else the fault of the next one. -/
inductive Concludes
    (settings : Settings)
    (clocks : Clocks)
    (stages : List Stage)
    (batches : List Batch)
    (finished : List Finished) :
    RunResult → Prop where
  | complete {report : Report} :
      finished.length = batches.length →
      report.summaries = finished.map Prod.snd →
      report.totals = Totals.combine report.summaries →
      Concludes settings clocks stages batches finished (.report report)
  | failed {batch : Batch} {fault : Fault} :
      batches[finished.length]? = some batch →
      FailsWith settings clocks stages finished.length batch fault →
      Concludes settings clocks stages batches finished (.fault fault)

variable
  {stages : List Stage}
  {settings : Settings}
  {runId : RunId}
  {coordinator : Coordinator}
  {clocks : Clocks}
  {observer? other? : Option Observer}
  {batches : List Batch}
  {answer twin : RunAnswer}

/-- A calm observer has been told about all finished batches. -/
theorem Answers.concludes
    (answers : coordinator.Answers clocks observer? batches answer)
    (created : create stages settings runId = .ok coordinator)
    (nameable : ∀ stage ∈ stages,
      Worker.acceptsThreadName (settings.threadName stage.name) = true)
    (calm : ∀ observer ∈ observer?, ∀ told, observer.panics told = false) :
    ∃ finished, Finishes clocks stages batches finished ∧
      answer.told = (if observer?.isSome then finished else []) ∧
      Concludes settings clocks stages batches finished answer.result := by
  obtain ⟨started, schedule, events, reached, ending, start_eq, executed, ended, rfl⟩ :=
    answers.exists_run created nameable
  obtain ⟨observed, finished, ordinal, job?, standing⟩ :=
    Run.standing_of_over start_eq executed ended
  subst observed
  obtain ⟨ledger, ⟨rfl, all, -⟩ | ⟨batch, fault, rfl, there, fails⟩⟩ :=
    standing.completed_or_failed fun observer present => calm observer present _
  · exact ⟨finished, ledger.finishes, ledger.told,
      .complete all ledger.summaries (congrArg Tally.finish ledger.tally)⟩
  · exact ⟨finished, ledger.finishes, ledger.told, .failed there fails⟩

/-! ## Other observers -/

/-- The answer of a run that has ended depends on its observer in what that has been told
only. -/
theorem answer_agrees
    {reached other : Run}
    (coordinator : Coordinator)
    (ending : Run.Ending)
    (same : other.unobserved = reached.unobserved) :
    (coordinator.answer reached ending).Agrees (coordinator.answer other ending) := by
  cases ending with
  | completed =>
      have report_eq := congrArg (Run.report · coordinator.runId) same
      exact ⟨congrArg RunResult.report report_eq, rfl⟩
  | failed fault => exact ⟨rfl, rfl⟩
  | unwound => exact ⟨rfl, rfl⟩

/-- Under the same schedule another calm observer, or none, sees the same result. -/
theorem Answers.exists_twin
    (answers : coordinator.Answers clocks observer? batches answer)
    (created : create stages settings runId = .ok coordinator)
    (calm : ∀ observer ∈ observer?, ∀ told, observer.panics told = false)
    (otherCalm : ∀ observer ∈ other?, ∀ told, observer.panics told = false) :
    ∃ twin, coordinator.Answers clocks other? batches twin ∧ answer.Agrees twin := by
  have erased : (Run.start? stages settings clocks other? batches).map Run.unobserved =
      (Run.start? stages settings clocks observer? batches).map Run.unobserved :=
    Run.start?_unobserved
  have either := answers.cases created
  obtain ⟨-, -, rfl⟩ := create_eq_ok created
  simp only [Answers, AnswersBy, ne_eq, not_true_eq_false, if_false]
  rcases either with
    ⟨absent, rfl⟩ | ⟨started, schedule, events, reached, ending, start_eq, executed, ended, rfl⟩
  · rw [absent, Option.map_none, Option.map_eq_none_iff] at erased
    rw [erased]
    exact ⟨_, rfl, rfl, rfl⟩
  · rw [start_eq, Option.map_some, Option.map_eq_some_iff] at erased
    obtain ⟨other, other_eq, same⟩ := erased
    rw [← Run.start?_observer?_eq start_eq] at calm
    rw [← Run.start?_observer?_eq other_eq] at otherCalm
    obtain ⟨twin, reaches, alike⟩ := Run.execute?_alike same calm otherCalm executed
    have twinEnded : twin.ending? = some ending :=
      (congrArg Run.ending? alike).trans ended
    rw [other_eq]
    exact ⟨_, ⟨schedule, events, twin, ending, reaches, twinEnded, rfl⟩,
      answer_agrees _ ending alike⟩

/-- Two runs of the same batches end in the same way, unless a deadline is missed. -/
theorem answer_agrees_of_standing
    {run other : Run}
    {finished others : List Finished}
    {ending otherEnding : Run.Ending}
    {ordinal otherOrdinal : Nat}
    {job? otherJob? : Option Worker.Job}
    (coordinator : Coordinator)
    (standing : Run.Standing settings clocks stages batches run finished
      (.ended ending ordinal job?))
    (alsoStanding : Run.Standing settings clocks stages batches other others
      (.ended otherEnding otherOrdinal otherJob?))
    (calm : ∀ observer ∈ run.observer?, ∀ told, observer.panics told = false)
    (otherCalm : ∀ observer ∈ other.observer?, ∀ told, observer.panics told = false) :
    (coordinator.answer run ending).Agrees (coordinator.answer other otherEnding) ∨
      (coordinator.answer run ending).result.MissesDeadline ∨
      (coordinator.answer other otherEnding).result.MissesDeadline := by
  have otherwise := alsoStanding.completed_or_failed fun observer present =>
    otherCalm observer present _
  obtain ⟨ledger, ⟨rfl, all, metrics⟩ | ⟨batch, fault, rfl, there, fails⟩⟩ :=
    standing.completed_or_failed fun observer present => calm observer present _
  · obtain ⟨alsoLedger, ⟨rfl, alsoAll, alsoMetrics⟩ | ⟨other, cause, rfl, there, fails⟩⟩ :=
      otherwise
    · obtain rfl : others = finished :=
        alsoLedger.finishes.eq_of_length_eq ledger.finishes (alsoAll.trans all.symm)
      refine Or.inl ⟨congrArg RunResult.report ?_, rfl⟩
      simp only [Run.report, alsoLedger.tally, alsoLedger.summaries, alsoLedger.clocks_eq,
        alsoMetrics, ledger.tally, ledger.summaries, ledger.clocks_eq, metrics]
    · obtain ⟨stage, index, limit, rfl⟩ := fails.missed ledger.finishes all there
      exact Or.inr (Or.inr ⟨stage, index, limit, rfl⟩)
  · obtain ⟨alsoLedger, ⟨rfl, alsoAll, -⟩ | ⟨other, cause, rfl, alsoThere, alsoFails⟩⟩ :=
      otherwise
    · obtain ⟨stage, index, limit, rfl⟩ := fails.missed alsoLedger.finishes alsoAll there
      exact Or.inr (Or.inl ⟨stage, index, limit, rfl⟩)
    · rcases fails.eq_or_missed alsoFails ledger.finishes alsoLedger.finishes there alsoThere with
        rfl | ⟨stage, index, limit, rfl⟩ | ⟨stage, index, limit, rfl⟩
      · exact Or.inl ⟨rfl, rfl⟩
      · exact Or.inr (Or.inl ⟨stage, index, limit, rfl⟩)
      · exact Or.inr (Or.inr ⟨stage, index, limit, rfl⟩)

/-- Under any two schedules the answers agree, unless a deadline is missed. -/
theorem Answers.agrees
    (answers : coordinator.Answers clocks observer? batches answer)
    (alsoAnswers : coordinator.Answers clocks other? batches twin)
    (created : create stages settings runId = .ok coordinator)
    (calm : ∀ observer ∈ observer?, ∀ told, observer.panics told = false)
    (otherCalm : ∀ observer ∈ other?, ∀ told, observer.panics told = false) :
    answer.Agrees twin ∨ answer.result.MissesDeadline ∨ twin.result.MissesDeadline := by
  have erased : (Run.start? stages settings clocks other? batches).map Run.unobserved =
      (Run.start? stages settings clocks observer? batches).map Run.unobserved :=
    Run.start?_unobserved
  rcases answers.cases created with
    ⟨absent, rfl⟩ | ⟨started, schedule, events, reached, ending, start_eq, executed, ended, rfl⟩
  · rcases alsoAnswers.cases created with
      ⟨-, rfl⟩ | ⟨other, -, -, -, -, other_eq, -, -, -⟩
    · exact Or.inl ⟨rfl, rfl⟩
    · rw [absent, other_eq] at erased
      cases erased
  · rcases alsoAnswers.cases created with
      ⟨absent, -⟩ |
        ⟨other, otherSchedule, otherEvents, last, otherEnding, other_eq, reaches, ends, rfl⟩
    · rw [absent, start_eq] at erased
      cases erased
    · obtain ⟨observed, finished, ordinal, job?, standing⟩ :=
        Run.standing_of_over start_eq executed ended
      obtain ⟨alsoObserved, others, otherOrdinal, otherJob?, alsoStanding⟩ :=
        Run.standing_of_over other_eq reaches ends
      subst observed alsoObserved
      exact answer_agrees_of_standing coordinator standing alsoStanding calm otherCalm

/-- Under every schedule an observer that returns is told exactly about the finished
batches, in input order, and a call that counts in words comes to what the reference says of
these, if all threads can bear their names and the counters of the reference fit a word.  With
another observer that returns, or none, the same schedule leads to the same result, and
every other schedule does too unless a deadline is missed. -/
theorem observer_exact
    (created : create stages settings runId = .ok coordinator)
    (nameable : ∀ stage ∈ stages,
      Worker.acceptsThreadName (settings.threadName stage.name) = true)
    (countable : Countable clocks stages batches)
    (calm : ∀ observer ∈ observer?, ∀ told, observer.panics told = false)
    (answers : coordinator.AnswersCounted clocks observer? batches answer) :
    (∃ finished, Finishes clocks stages batches finished ∧
      answer.told = (if observer?.isSome then finished else []) ∧
      Concludes settings clocks stages batches finished answer.result) ∧
    ∀ other?, (∀ observer ∈ other?, ∀ told, observer.panics told = false) →
      (∃ twin, coordinator.AnswersCounted clocks other? batches twin ∧ answer.Agrees twin) ∧
      ∀ twin, coordinator.AnswersCounted clocks other? batches twin →
        answer.Agrees twin ∨ answer.result.MissesDeadline ∨ twin.result.MissesDeadline := by
  rw [answersCounted_iff created countable] at answers
  refine ⟨answers.concludes created nameable calm, fun other? otherCalm => ⟨?_, ?_⟩⟩
  · obtain ⟨twin, alsoAnswers, agrees⟩ := answers.exists_twin created calm otherCalm
    exact ⟨twin, (answersCounted_iff created countable).mpr alsoAnswers, agrees⟩
  · intro twin alsoAnswers
    rw [answersCounted_iff created countable] at alsoAnswers
    exact answers.agrees alsoAnswers created calm otherCalm

/-- The second of two batches makes a stage panic.  The observer is told about the first one
only, and without it the run fails in the same way. -/
theorem observer_exact_census :
    ∃ coordinator answer twin,
      create [relay, census] Settings.standard default = .ok coordinator ∧
      coordinator.runCounted? .still (some .silent) [⟨7, [.raw 0 "somebody"]⟩, ⟨8, []⟩] =
        some answer ∧
      answer.told = [(7, Summary.empty)] ∧
      coordinator.AnswersCounted .still none [⟨7, [.raw 0 "somebody"]⟩, ⟨8, []⟩] twin ∧
      twin.result = .fault (.stageFailed "census" 8 "stage panicked: nobody") := by
  have countable : Countable .still [relay, census] [⟨7, [.raw 0 "somebody"]⟩, ⟨8, []⟩] := by
    decide +kernel
  obtain ⟨coordinator, ⟨left, result, told⟩, created, ran, outcome⟩ :=
    exists_answer [relay, census] Settings.standard
      (·.runCounted? .still (some .silent) [⟨7, [.raw 0 "somebody"]⟩, ⟨8, []⟩])
      (fun answer => (answer.told.length, answer.result.fault?))
      (1, some (.stageFailed "census" 8 "stage panicked: nobody")) (by decide +kernel)
  obtain ⟨once, failed⟩ := Prod.mk.inj outcome
  obtain rfl := RunResult.eq_of_fault? failed
  have answers := ran
  rw [runCounted?_eq created countable] at answers
  obtain ⟨⟨finished, finishes, told_eq, -⟩, others⟩ :=
    observer_exact created (by decide) countable Observer.calm_silent
      ((answersCounted_iff created countable).mpr (.of_run? answers))
  obtain ⟨⟨twin, alsoAnswers, result_eq, -⟩, -⟩ :=
    others none (fun observer present => by cases present)
  change told = finished at told_eq
  subst told_eq
  obtain ⟨⟨index, summary⟩, rfl⟩ := List.length_eq_one_iff.mp once
  obtain ⟨batch, there, rfl, passes⟩ := finishes 0 index summary rfl
  cases there
  cases passes
  exact ⟨coordinator, _, twin, created, ran, rfl, alsoAnswers, result_eq⟩

/-- A stage whose name no thread can bear. -/
def severed : Stage :=
  ⟨"a\x00b", .aggregate⟩

/-- A batch passes, but nobody is told of it, because no thread can bear the name of the stage;
two batches pass, but the count of the second one does not fit a word together with that of the
first one, and only that one is told; a batch passes, and without an observer, under another
schedule, it misses its deadline. -/
theorem observer_misses :
    (∃ coordinator answer,
      create [severed] Settings.standard default = .ok coordinator ∧
      coordinator.runCounted? .still (some .silent) [⟨0, []⟩] = some answer ∧
      answer.told = [] ∧ passes .still [severed] 0 ⟨0, []⟩ = .ok Summary.empty) ∧
    (∃ coordinator answer,
      create [hoard] Settings.standard default = .ok coordinator ∧
      coordinator.runCounted? .still (some .silent) [⟨0, []⟩, ⟨1, []⟩] = some answer ∧
      answer.told.map Prod.fst = [0] ∧
      ∃ summary, passes .still [hoard] 1 ⟨1, []⟩ = .ok summary) ∧
    (∃ coordinator answer twin,
      create [census] Settings.testing default = .ok coordinator ∧
      coordinator.AnswersCounted .still (some .silent) [⟨7, [.raw 0 "somebody"]⟩] answer ∧
      (∃ report, answer.result = .report report) ∧
      coordinator.AnswersCounted .still none [⟨7, [.raw 0 "somebody"]⟩] twin ∧
      twin.result = .fault (.timedOut "census" 7 (.ofMilliseconds 5000))) := by
  refine ⟨?_, ?_, ?_⟩
  · exact ⟨_, _, rfl, rfl, rfl, rfl⟩
  · obtain ⟨coordinator, answer, created, ran, told⟩ :=
      exists_answer [hoard] Settings.standard
        (·.runCounted? .still (some .silent) [⟨0, []⟩, ⟨1, []⟩])
        (·.told.map Prod.fst) [0] (by decide +kernel)
    exact ⟨coordinator, answer, created, ran, told, _, rfl⟩
  · have countable : Countable .still [census] [⟨7, [.raw 0 "somebody"]⟩] := by decide +kernel
    obtain ⟨coordinator, answer, created, ran, completed⟩ :=
      exists_answer [census] Settings.testing
        (·.run? .still (some .silent) [⟨7, [.raw 0 "somebody"]⟩])
        (·.result.report?.isSome) true (by decide +kernel)
    obtain ⟨report, found⟩ := Option.isSome_iff_exists.mp completed
    have late : ((Run.start? [census] Settings.testing .still none
        [⟨7, [.raw 0 "somebody"]⟩]).bind fun started =>
          (started.execute? [.take, .client .inspect, .client .send, .client .expire]).bind
            fun reached => reached.1.toEnd.ending?) =
        some (.failed (.timedOut "census" 7 (.ofMilliseconds 5000))) := by
      decide +kernel
    obtain ⟨started, start_eq, late⟩ := Option.bind_eq_some_iff.mp late
    obtain ⟨⟨reached, events⟩, executed, ended⟩ := Option.bind_eq_some_iff.mp late
    have answers := (answersCounted_iff created countable).mpr (.of_run? ran)
    obtain ⟨-, -, rfl⟩ := create_eq_ok created
    have alsoAnswers := Answers.of_toEnd ⟨Settings.testing, [census], .idle, default⟩ rfl
      start_eq executed ended
    exact ⟨⟨Settings.testing, [census], .idle, default⟩, answer, _, created, answers,
      ⟨report, RunResult.eq_of_report? found⟩,
      (answersCounted_iff created countable).mpr alsoAnswers, rfl⟩

end Coordinator
end StagePipeline
