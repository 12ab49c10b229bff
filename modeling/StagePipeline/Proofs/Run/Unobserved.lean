import StagePipeline.Proofs.Run.Moves

/-!
# Runs without their observer

An observer that returns leaves no trace in a run but what it has been told: every step is
the step of the same run without it.  A schedule therefore does the same for all such
observers, and for none.
-/

namespace StagePipeline
namespace Run

/-- The run as it would be without its observer. -/
def unobserved (run : Run) : Run :=
  { run with observer? := none, told := [] }

/-- The step as it would be without the observer. -/
def Transition.unobserved (transition : Transition) : Transition :=
  { transition with next := transition.next.unobserved }

variable
  {settings : Settings}
  {clocks : Clocks}
  {stages : List Stage}
  {batches : List Batch}
  {run other next reached : Run}
  {schedule : List Action}
  {events : List Event}

/-! ## Observers stay -/

theorem Entry.observer?_eq
    {index ordinal : Nat}
    {batch : Batch}
    (entry : Entry run index ordinal batch next) :
    next.observer? = run.observer? := by
  cases entry <;> rfl

theorem completeBatch_observer? (run : Run) (index : Nat) (summary : Summary) :
    (run.completeBatch index summary).observer? = run.observer? := by
  unfold completeBatch
  split
  · rfl
  · simp only
    split <;> rfl

theorem Arrival.observer?_eq
    {worker : Worker}
    {index ordinal recordsIn : Nat}
    {reply : Reply}
    (arrival : Arrival run worker index ordinal recordsIn reply next) :
    next.observer? = run.observer? := by
  cases arrival with
  | fault => rfl
  | next routed entry => exact entry.observer?_eq
  | finished routed => exact completeBatch_observer? _ _ _
  | refused routed => rfl

/-- No step changes the observer. -/
theorem Move.observer?_eq
    {action : Action}
    {transition : Transition}
    (move : Move run action transition) :
    transition.next.observer? = run.observer? := by
  cases move with
  | take ready waiting entry => exact entry.observer?_eq
  | arrive hopping found ofCaller moved arrival => exact arrival.observer?_eq
  | _ => rfl

/-- No schedule changes the observer. -/
theorem execute?_observer?_eq (executed : run.execute? schedule = some (reached, events)) :
    reached.observer? = run.observer? := by
  induction schedule generalizing run events with
  | nil =>
      cases executed
      rfl
  | cons action rest inductionHypothesis =>
      obtain ⟨transition, later, taken, continued, -⟩ := execute?_cons_eq_some executed
      exact (inductionHypothesis continued).trans (Move.of_step taken).observer?_eq

/-- A run starts with the observer that it is given. -/
theorem start?_observer?_eq
    {observer? : Option Observer}
    (started : start? stages settings clocks observer? batches = some run) :
    run.observer? = observer? := by
  obtain ⟨workers, spawned, result⟩ := Option.bind_eq_some_iff.mp started
  cases result
  rfl

/-! ## Steps -/

/-- A batch enters a stage the same way if nobody looks on. -/
theorem enter_unobserved (run : Run) (index ordinal : Nat) (batch : Batch) :
    run.unobserved.enter index ordinal batch =
      (run.enter index ordinal batch).map unobserved := by
  have workers_eq : run.unobserved.workers = run.workers := rfl
  simp only [enter, workers_eq]
  cases run.workers[ordinal]? with
  | none => rfl
  | some worker =>
      simp only
      split <;> rfl

/-- Nothing but the observer's panic depends on what it is told. -/
theorem completeBatch_unobserved
    (run : Run)
    (index : Nat)
    (summary : Summary)
    (calm : ∀ observer ∈ run.observer?, ∀ told, observer.panics told = false) :
    run.unobserved.completeBatch index summary =
      (run.completeBatch index summary).unobserved := by
  unfold completeBatch
  cases present : run.observer? with
  | none => rfl
  | some observer =>
      simp only [calm observer present, Bool.false_eq_true, if_false]
      rfl

/-- A reply arrives the same way if nobody looks on, provided that the observer never panics.
-/
theorem arrive_unobserved
    (run : Run)
    (worker : Worker)
    (index ordinal recordsIn : Nat)
    (reply : Reply)
    (calm : ∀ observer ∈ run.observer?, ∀ told, observer.panics told = false) :
    run.unobserved.arrive worker index ordinal recordsIn reply =
      (run.arrive worker index ordinal recordsIn reply).map unobserved := by
  cases reply with
  | error fault => rfl
  | ok output =>
      have counted : run.unobserved.countHop ordinal recordsIn output.recordCount =
          (run.countHop ordinal recordsIn output.recordCount).unobserved :=
        rfl
      have workers_eq : run.unobserved.workers = run.workers := rfl
      simp only [arrive, counted, workers_eq]
      cases route index (ordinal + 1 == run.workers.length) output with
      | next batch => exact enter_unobserved _ _ _ _
      | finished summary =>
          exact congrArg some (completeBatch_unobserved
            (run.countHop ordinal recordsIn output.recordCount) index summary calm)
      | refused reason => rfl

/-- The coordinator takes the next batch the same way if nobody looks on. -/
theorem stepTake_unobserved (run : Run) :
    run.unobserved.stepTake = run.stepTake.map Transition.unobserved := by
  obtain ⟨workers, clocks, observer?, waiting, metrics, tally, summaries, told, control⟩ := run
  cases control with
  | ready =>
      cases waiting with
      | nil => rfl
      | cons batch rest =>
          have entered := enter_unobserved
            ⟨workers, clocks, observer?, rest, metrics, tally, summaries, told, .ready⟩
            batch.index 0 batch
          simp only [unobserved] at entered
          simp only [stepTake, unobserved, entered, Option.map_map]
          rfl
  | _ => rfl

theorem stepThread_unobserved (run : Run) (ordinal : Nat) (action : Worker.Action) :
    run.unobserved.stepThread ordinal action =
      (run.stepThread ordinal action).map Transition.unobserved := by
  have workers_eq : run.unobserved.workers = run.workers := rfl
  simp only [stepThread, workers_eq]
  cases run.workers[ordinal]? with
  | none => rfl
  | some worker =>
      simp only [Option.bind_eq_bind, Option.bind_some]
      split
      · cases worker.step action <;> rfl
      · rfl

/-- A call goes the same way if nobody looks on, provided that the observer never panics. -/
theorem stepCall_unobserved
    {index ordinal recordsIn : Nat}
    {action : Worker.Action}
    (calm : ∀ observer ∈ run.observer?, ∀ told, observer.panics told = false) :
    run.unobserved.stepCall index ordinal recordsIn action =
      (run.stepCall index ordinal recordsIn action).map Transition.unobserved := by
  have workers_eq : run.unobserved.workers = run.workers := rfl
  simp only [stepCall, workers_eq]
  cases run.workers[ordinal]? with
  | none => rfl
  | some worker =>
      simp only [Option.bind_eq_bind, Option.bind_some]
      split
      · cases worker.step action with
        | none => rfl
        | some transition =>
            obtain ⟨next, event?⟩ := transition
            cases event? with
            | none => rfl
            | some event =>
                cases event with
                | answered batch reply =>
                    have arrived := arrive_unobserved
                      { run with workers := run.workers.set ordinal next }
                      worker index ordinal recordsIn reply calm
                    simp only [unobserved] at arrived
                    simp only [unobserved, Option.bind_some, arrived, Option.bind_map,
                      Option.map_bind]
                    rfl
                | _ => rfl
      · rfl

theorem stepStop_unobserved
    (run : Run)
    (ending : Ending)
    (ordinal : Nat)
    (action : Worker.Action) :
    run.unobserved.stepStop ending ordinal action =
      (run.stepStop ending ordinal action).map Transition.unobserved := by
  have workers_eq : run.unobserved.workers = run.workers := rfl
  simp only [stepStop, workers_eq]
  cases run.workers[ordinal]? with
  | none => rfl
  | some worker =>
      simp only
      split
      · cases worker.step action <;> rfl
      · rfl

theorem stepRelease_unobserved (run : Run) (ending : Ending) (ordinal : Nat) :
    run.unobserved.stepRelease ending ordinal =
      (run.stepRelease ending ordinal).map Transition.unobserved := by
  have workers_eq : run.unobserved.workers = run.workers := rfl
  simp only [stepRelease, workers_eq]
  cases run.workers[ordinal]? with
  | none => rfl
  | some worker =>
      simp only
      cases worker.step .release <;> rfl

/-- Every step of a run with a calm observer is the step of the run without it. -/
theorem step_unobserved
    (calm : ∀ observer ∈ run.observer?, ∀ told, observer.panics told = false)
    (action : Action) :
    run.unobserved.step action = (run.step action).map Transition.unobserved := by
  cases action with
  | thread ordinal action => exact stepThread_unobserved run ordinal action
  | take => exact stepTake_unobserved run
  | client action =>
      have control_eq : run.unobserved.control = run.control := rfl
      simp only [step, control_eq]
      cases run.control with
      | hop index ordinal recordsIn => exact stepCall_unobserved calm
      | stopping ending ordinal => exact stepStop_unobserved run ending ordinal action
      | releasing ending ordinal => exact stepRelease_unobserved run ending ordinal
      | _ => rfl

/-! ## Schedules -/

/-- Under every schedule a run with a calm observer does what it does without it. -/
theorem execute?_unobserved
    (calm : ∀ observer ∈ run.observer?, ∀ told, observer.panics told = false)
    (schedule : List Action) :
    run.unobserved.execute? schedule =
      (run.execute? schedule).map fun (last, events) => (last.unobserved, events) := by
  induction schedule generalizing run with
  | nil => rfl
  | cons action rest inductionHypothesis =>
      rw [execute?, execute?, step_unobserved calm]
      cases taken : run.step action with
      | none => rfl
      | some transition =>
          rw [← (Move.of_step taken).observer?_eq] at calm
          simp only [Option.map_some, Transition.unobserved, inductionHypothesis calm,
            Option.map_map]
          rfl

/-- Two runs that differ in their calm observers only go through the same schedules. -/
theorem execute?_alike
    (same : other.unobserved = run.unobserved)
    (calm : ∀ observer ∈ run.observer?, ∀ told, observer.panics told = false)
    (otherCalm : ∀ observer ∈ other.observer?, ∀ told, observer.panics told = false)
    (executed : run.execute? schedule = some (reached, events)) :
    ∃ twin, other.execute? schedule = some (twin, events) ∧
      twin.unobserved = reached.unobserved := by
  have erased := execute?_unobserved otherCalm schedule
  rw [same, execute?_unobserved calm, executed] at erased
  obtain ⟨⟨twin, seen⟩, reaches, alike⟩ := Option.map_eq_some_iff.mp erased.symm
  obtain ⟨twinned, rfl⟩ : twin.unobserved = reached.unobserved ∧ seen = events :=
    Prod.mk.inj alike
  exact ⟨twin, reaches, twinned⟩

/-- Two runs that differ in their observer start as the same run without one. -/
theorem start?_unobserved
    {observer? other? : Option Observer} :
    (start? stages settings clocks other? batches).map unobserved =
      (start? stages settings clocks observer? batches).map unobserved := by
  unfold start?
  cases spawnFrom? settings clocks 0 stages <;> rfl

end Run
end StagePipeline
