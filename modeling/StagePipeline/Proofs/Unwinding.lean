import StagePipeline.Proofs.Observation
import StagePipeline.Proofs.Session

/-!
# Calls that unwind

A call of a coordinator comes to a report or a fault, unless one of its threads cannot bear
its name, one of its counters overflows, or its observer panics.  In the first case the
coordinator is left as it was.  In the other two all workers are stopped as they are after
every run, but the coordinator keeps the mark of a run in progress.
-/

namespace StagePipeline

/-! ## Calls whose threads can bear their names -/

/-- The workers start, up to the first whose thread the system refuses. -/
theorem Call.launch_of_nameable
    {settings : Settings}
    {stages : List Stage}
    (inRange : settings.InRange)
    (nameable : ∀ stage ∈ stages,
      Worker.acceptsThreadName (settings.threadName stage.name) = true)
    (call : Call)
    (ordinal : Nat) :
    call.launch settings ordinal stages = .up ∨
      ∃ place stage reason, stages[place]? = some stage ∧
        call.refusal? (ordinal + place) = some reason ∧
        call.launch settings ordinal stages = .refused (ordinal + place) (stage.refused reason) := by
  induction stages generalizing ordinal with
  | nil => exact Or.inl rfl
  | cons stage rest inductionHypothesis =>
      obtain ⟨named, othersNamed⟩ := List.forall_mem_cons.mp nameable
      rw [launch, Worker.spawn?_eq_some inRange named]
      cases refused : call.refusal? ordinal with
      | some reason => exact Or.inr ⟨0, stage, reason, rfl, refused, rfl⟩
      | none =>
          rcases inductionHypothesis othersNamed (ordinal + 1) with
            up | ⟨place, other, reason, listed, refused, launched⟩
          · exact Or.inl up
          · have shifted : ordinal + 1 + place = ordinal + (place + 1) := by omega
            rw [shifted] at refused launched
            exact Or.inr ⟨place + 1, other, reason, listed, refused, launched⟩

namespace Coordinator

open StagePipeline.Sequential

variable
  {stages : List Stage}
  {settings : Settings}
  {runId : RunId}
  {coordinator : Coordinator}
  {call : Call}
  {response : Response}

/-- A call comes to an end without a panic. -/
structure Returns (coordinator : Coordinator) (call : Call) : Prop where
  /-- The workers start, or the first that does not is named by the fault. -/
  launched :
    call.launch coordinator.settings 0 coordinator.stages = .up ∨
      ∃ position stage reason, coordinator.stages[position]? = some stage ∧
        call.refusal? position = some reason ∧
        call.launch coordinator.settings 0 coordinator.stages =
          .refused position (.workerUnavailable stage.name
            ("Failed to start worker thread: " ++ reason))
  /-- What comes of the call is a report, or a fault that comes of the start of the workers
  or of a batch. -/
  responds : ∀ response, coordinator.RespondsCounted call response →
    (∃ report, response.answer.result = .report report) ∨
      ∃ fault, response.answer.result = .fault fault ∧
        (call.launch coordinator.settings 0 coordinator.stages =
            .refused response.workers fault ∨
          ∃ turn batch, call.batches[turn]? = some batch ∧
            FailsWith coordinator.settings call.clocks coordinator.stages turn batch fault)
  /-- Whatever the order of its steps, the run can go on until it is over, and is over in
  time. -/
  ends : ∃ started,
    Run.start? coordinator.stages coordinator.settings call.clocks call.observer?
      call.batches = some started ∧
    ∀ schedule reached events, started.executeCounted? schedule = some (reached, events) →
      schedule.length ≤ started.stepBound ∧
      (reached.ending? = none → ∃ action transition,
        action ≠ .client .expire ∧ reached.stepCounted action = some transition)

/-- What comes of a run that does not unwind. -/
theorem result_of_standing
    {clocks : Clocks}
    {batches : List Batch}
    {reached : Run}
    {finished : List Finished}
    {ending : Run.Ending}
    {ordinal : Nat}
    {job? : Option Worker.Job}
    (coordinator : Coordinator)
    (standing : Run.Standing settings clocks stages batches reached finished
      (.ended ending ordinal job?))
    (calm : ∀ observer ∈ reached.observer?, observer.panics reached.told = false) :
    ((∃ report, (coordinator.answer reached ending).result = .report report) ∧
        (coordinator.answer reached ending).coordinator.state = .completed) ∨
      ∃ fault, (coordinator.answer reached ending).result = .fault fault ∧
        (coordinator.answer reached ending).coordinator.state = .failed ∧
        ∃ turn batch, batches[turn]? = some batch ∧
          FailsWith settings clocks stages turn batch fault := by
  obtain ⟨-, ⟨rfl, -⟩ | ⟨batch, fault, rfl, there, fails⟩⟩ := standing.completed_or_failed calm
  · exact Or.inl ⟨⟨_, rfl⟩, rfl⟩
  · exact Or.inr ⟨fault, rfl, rfl, finished.length, batch, there, fails⟩

/-- Every call of a new coordinator comes to an end without a panic, if all threads can bear
their names, the counters of the reference fit a word, and the observer does not panic. -/
theorem accepted_returns
    (call : Call)
    (created : create stages settings runId = .ok coordinator)
    (nameable : ∀ stage ∈ stages,
      Worker.acceptsThreadName (settings.threadName stage.name) = true)
    (countable : Countable call.clocks stages call.batches)
    (calm : ∀ observer ∈ call.observer?, ∀ told, observer.panics told = false) :
    coordinator.Returns call := by
  obtain ⟨inRange, -, rfl⟩ := create_eq_ok created
  have launches := call.launch_of_nameable inRange nameable 0
  simp only [Nat.zero_add] at launches
  refine ⟨launches, ?_, ?_⟩
  · intro response counted
    have responds := (respondsCounted_iff created countable).mp counted
    cases responds with
    | refuse used => exact absurd rfl used
    | panic _ panicked =>
        rcases launches with up | ⟨_, _, _, _, _, refused⟩
        · cases up.symm.trans panicked
        · cases refused.symm.trans panicked
    | fail _ refused => exact Or.inr ⟨_, rfl, Or.inl refused⟩
    | run _ _ start_eq executed ended =>
        obtain ⟨observed, finished, ordinal, job?, standing⟩ :=
          Run.standing_of_over start_eq executed ended
        rw [← observed] at calm
        rcases result_of_standing _ standing fun observer present => calm observer present _ with
          ⟨reported, -⟩ | ⟨fault, failed, -, culprit⟩
        · exact Or.inl reported
        · exact Or.inr ⟨fault, failed, Or.inr culprit⟩
  · obtain ⟨started, start_eq⟩ :=
      Run.start?_isSome inRange nameable call.clocks call.observer? call.batches
    refine ⟨started, start_eq, fun schedule reached events counted => ?_⟩
    rw [Run.executeCounted?_eq start_eq countable] at counted
    exact ⟨Run.length_le_stepBound start_eq counted,
      Run.canStepCounted start_eq countable counted⟩

/-- The second thread is refused by the system, and its stage is named. -/
theorem accepted_returns_refused :
    ∃ coordinator,
      create [relay, census] Settings.standard default = .ok coordinator ∧
      Returns coordinator
        ⟨.still, some .silent, [⟨7, []⟩],
          fun position => if position = 1 then some "out of threads" else none⟩ ∧
      Call.launch
          ⟨.still, some .silent, [⟨7, []⟩],
            fun position => if position = 1 then some "out of threads" else none⟩
          Settings.standard 0 [relay, census] =
        .refused 1 (.workerUnavailable "census"
          "Failed to start worker thread: out of threads") := by
  have created : create [relay, census] Settings.standard default = .ok _ := rfl
  have calm : ∀ observer ∈ some Observer.silent, ∀ told, observer.panics told = false := by
    rintro observer ⟨⟩ told
    rfl
  exact ⟨_, created,
    accepted_returns _ created (by decide) (by decide +kernel) calm, by decide⟩

/-- If a thread cannot bear its name, and the system refuses none, a call panics, and leaves
the coordinator as it was. -/
theorem Responds.answer_of_unnameable
    (responds : coordinator.Responds call response)
    (created : create stages settings runId = .ok coordinator)
    (unnameable : ¬∀ stage ∈ stages,
      Worker.acceptsThreadName (settings.threadName stage.name) = true)
    (granted : ∀ position, call.refusal? position = none) :
    response.answer = ⟨coordinator, .panic, []⟩ := by
  have answers := (answers_iff_responds call granted).mpr ⟨response, responds, rfl⟩
  have absent := Run.start?_eq_none unnameable call.clocks call.observer? call.batches
  rcases answers.cases created with
    ⟨-, panics⟩ | ⟨started, _, _, _, _, start_eq, -⟩
  · exact panics
  · cases absent.symm.trans start_eq

/-- A stage is accepted although no thread can bear its name, and the call panics. -/
theorem severed_unwinds :
    ∃ coordinator,
      create [severed] Settings.standard default = .ok coordinator ∧
      coordinator.run? .still none [] = some ⟨coordinator, .panic, []⟩ :=
  ⟨_, rfl, rfl⟩

/-! ## After the run -/

/-- Once the workers have been started and the run is over, be it that the observer has
panicked or a counter has overflowed, all workers have been stopped.  If neither has happened,
the run is seen as completed or as failed from then on, whatever is called. -/
theorem no_run_stays_live
    {clocks : Clocks}
    {observer? : Option Observer}
    {batches : List Batch}
    {started reached : Run}
    {schedule : List Run.Action}
    {events : List Run.Event}
    {ending : Run.Ending}
    (created : create stages settings runId = .ok coordinator)
    (start_eq : Run.start? coordinator.stages coordinator.settings clocks observer? batches =
      some started)
    (counted : started.executeCounted? schedule = some (reached, events))
    (ended : reached.ending? = some ending) :
    reached.workers.map Worker.stage = stages ∧ (∀ worker ∈ reached.workers, worker.Retired) ∧
      ((∀ observer ∈ observer?, observer.panics reached.told = false) →
        Countable clocks stages batches →
        ∀ later last, Session (coordinator.answer reached ending).coordinator later last →
          last.state = .completed ∨ last.state = .failed) := by
  obtain ⟨-, -, rfl⟩ := create_eq_ok created
  obtain ⟨⟨position, orderly⟩, stages_eq⟩ := (Run.Orderly.of_start start_eq).executeCounted? counted
  refine ⟨stages_eq.trans (Run.start?_stages_eq start_eq), orderly.retired_of_over ended, ?_⟩
  intro calm countable later last session
  rw [Run.executeCounted?_eq start_eq countable] at counted
  obtain ⟨observed, finished, ordinal, job?, standing⟩ :=
    Run.standing_of_over start_eq counted ended
  rw [← observed] at calm
  rcases result_of_standing _ standing calm with ⟨-, state⟩ | ⟨-, -, state, -⟩
  · obtain ⟨rfl, -⟩ := session.of_used (by rw [state]; decide)
    exact Or.inl state
  · obtain ⟨rfl, -⟩ := session.of_used (by rw [state]; decide)
    exact Or.inr state

/-- The observer would panic at another batch. -/
theorem no_run_stays_live_calm :
    ∃ coordinator started reached schedule events ending,
      create [census] Settings.standard default = .ok coordinator ∧
      Run.start? coordinator.stages coordinator.settings .still (some (.panickingAt 8))
        [⟨7, [.raw 0 "somebody"]⟩] = some started ∧
      started.executeCounted? schedule = some (reached, events) ∧
      reached.ending? = some ending ∧
      (coordinator.answer reached ending).coordinator.state = .completed ∧
      (∀ worker ∈ reached.workers, worker.Retired) ∧
      ∀ later last, Session (coordinator.answer reached ending).coordinator later last →
        last.state = .completed ∨ last.state = .failed := by
  have countable : Countable .still [census] [⟨7, [.raw 0 "somebody"]⟩] := by decide +kernel
  obtain ⟨coordinator, answer, created, ran, outcome⟩ :=
    exists_answer [census] Settings.standard
      (·.run? .still (some (.panickingAt 8)) [⟨7, [.raw 0 "somebody"]⟩])
      (fun answer => (answer.coordinator.state, (Observer.panickingAt 8).panics answer.told))
      (.completed, false) (by decide +kernel)
  obtain ⟨completed, quiet⟩ := Prod.mk.inj outcome
  have coordinator_eq := create_eq_ok created
  rcases (Answers.of_run? ran).cases created with
    ⟨-, rfl⟩ | ⟨started, schedule, events, reached, ending, start_eq, executed, ended, rfl⟩
  · obtain ⟨-, -, rfl⟩ := coordinator_eq
    cases completed
  · obtain ⟨-, -, rfl⟩ := coordinator_eq
    have calm : ∀ observer ∈ some (Observer.panickingAt 8),
        observer.panics reached.told = false := by
      rintro observer ⟨⟩
      cases ending <;> exact quiet
    rw [← Run.executeCounted?_eq start_eq countable] at executed
    obtain ⟨-, retired, settled⟩ := no_run_stays_live created start_eq executed ended
    exact ⟨_, started, reached, schedule, events, ending, created, start_eq, executed, ended,
      completed, retired, settled calm countable⟩

/-- The observer panics, and the run is seen as one in progress from then on. -/
theorem unwound_stays_running :
    ∃ coordinator answer,
      create [census] Settings.standard default = .ok coordinator ∧
      coordinator.run? .still (some (.panickingAt 7)) [⟨7, [.raw 0 "somebody"]⟩] =
        some answer ∧
      answer.result = .panic ∧
      ∀ later last, Session answer.coordinator later last → last.state = .running := by
  obtain ⟨coordinator, answer, created, ran, outcome⟩ :=
    exists_answer [census] Settings.standard
      (·.run? .still (some (.panickingAt 7)) [⟨7, [.raw 0 "somebody"]⟩])
      (fun answer => (answer.result == .panic, answer.coordinator.state))
      (true, .running) (by decide +kernel)
  obtain ⟨panicked, running⟩ := Prod.mk.inj outcome
  refine ⟨coordinator, answer, created, ran, by simpa using panicked, ?_⟩
  intro later last session
  obtain ⟨rfl, -⟩ := session.of_used (by rw [running]; decide)
  exact running

end Coordinator
end StagePipeline
