import StagePipeline.Run
import StagePipeline.Proofs.Worker.Moves

/-!
# The rules of a run

The branches of `Run.step`, each with the conditions under which it is taken, and
with the rule of the worker that takes part in it.
-/

namespace StagePipeline

namespace Worker

variable {worker : Worker} {action : Action} {transition : Transition}

/-- A step of the thread follows a rule of the thread. -/
theorem Move.of_isThreadAction
    (move : Move worker action transition)
    (ofThread : Run.isThreadAction action = true) :
    ThreadMove worker action transition := by
  rcases move with move | move | move
  · cases move <;> cases ofThread
  · exact move
  · cases move <;> cases ofThread

/-- A step of a call follows a rule of the callers. -/
theorem Move.of_isCallerAction
    (move : Move worker action transition)
    (ofCaller : Run.isCallerAction action = true) :
    CallerMove worker action transition := by
  rcases move with move | move | move
  · exact move
  · cases move <;> cases ofCaller
  · cases move <;> cases ofCaller

/-- A step that stops a worker follows a rule of the owner. -/
theorem Move.of_isStopAction
    (move : Move worker action transition)
    (stops : Run.isStopAction action = true) :
    OwnerMove worker action transition := by
  rcases move with move | move | move
  · cases move <;> cases stops
  · cases move <;> cases stops
  · exact move

end Worker

namespace Run

/-- A batch is sent to the stage at a position. -/
inductive Entry (run : Run) (index ordinal : Nat) (batch : Batch) : Run → Prop where
  | nowhere :
      run.workers[ordinal]? = none →
      Entry run index ordinal batch (run.conclude (.failed noStages))
  | claim {worker : Worker} :
      run.workers[ordinal]? = some worker → worker.acceptsCalls = true → worker.call = .none →
      Entry run index ordinal batch
        { run with
          workers := run.workers.set ordinal { worker with call := .claimed batch }
          control := .hop index ordinal batch.size }
  | refuse {worker : Worker} :
      run.workers[ordinal]? = some worker → worker.call ≠ .none →
      Entry run index ordinal batch (run.conclude (.failed worker.stillBusy))

/-- A batch enters a stage by one of the rules. -/
theorem Entry.of_enter
    {run next : Run}
    {index ordinal : Nat}
    {batch : Batch}
    (entered : run.enter index ordinal batch = some next) :
    Entry run index ordinal batch next := by
  unfold enter at entered
  split at entered
  · rename_i absent
    cases entered
    exact .nowhere absent
  · rename_i worker found
    cases taken : worker.step (.submit batch) with
    | none => simp [taken] at entered
    | some transition =>
        have move := Worker.CallerMove.of_stepSubmit taken
        rw [taken] at entered
        cases move with
        | claim accepts free =>
            cases entered
            exact .claim found accepts free
        | refuse accepts claimed =>
            cases entered
            exact .refuse found claimed

/-- A hop has returned with a reply. -/
inductive Arrival (run : Run) (worker : Worker) (index ordinal recordsIn : Nat) :
    Reply → Run → Prop where
  | fault {fault : Fault} :
      Arrival run worker index ordinal recordsIn (.error fault) (run.conclude (.failed fault))
  | next {output : StageOutput} {batch : Batch} {next : Run} :
      route index (ordinal + 1 == run.workers.length) output = .next batch →
      Entry (run.countHop ordinal recordsIn output.recordCount) index (ordinal + 1) batch next →
      Arrival run worker index ordinal recordsIn (.ok output) next
  | finished {output : StageOutput} {summary : Summary} :
      route index (ordinal + 1 == run.workers.length) output = .finished summary →
      Arrival run worker index ordinal recordsIn (.ok output)
        ((run.countHop ordinal recordsIn output.recordCount).completeBatch index summary)
  | refused {output : StageOutput} {reason : String} :
      route index (ordinal + 1 == run.workers.length) output = .refused reason →
      Arrival run worker index ordinal recordsIn (.ok output)
        ((run.countHop ordinal recordsIn output.recordCount).failAt worker index reason)

/-- A reply arrives by one of the rules. -/
theorem Arrival.of_arrive
    {run arrived : Run}
    {worker : Worker}
    {index ordinal recordsIn : Nat}
    {reply : Reply}
    (arrival : run.arrive worker index ordinal recordsIn reply = some arrived) :
    Arrival run worker index ordinal recordsIn reply arrived := by
  unfold arrive at arrival
  split at arrival
  · cases arrival
    exact .fault
  · simp only at arrival
    split at arrival
    · rename_i routed
      exact .next routed (.of_enter arrival)
    · rename_i routed
      cases arrival
      exact .finished routed
    · rename_i routed
      cases arrival
      exact .refused routed

/-- A step of a run. -/
inductive Move (run : Run) : Action → Transition → Prop where
  | thread {ordinal : Nat} {action : Worker.Action} {worker : Worker}
      {transition : Worker.Transition} :
      run.workers[ordinal]? = some worker →
      Worker.ThreadMove worker action transition →
      Move run (.thread ordinal action)
        ⟨{ run with workers := run.workers.set ordinal transition.next },
          transition.event?.map (ordinal, ·)⟩
  | complete :
      run.control = .ready → run.waiting = [] →
      Move run .take ⟨run.conclude .completed, none⟩
  | take {batch : Batch} {rest : List Batch} {next : Run} :
      run.control = .ready → run.waiting = batch :: rest →
      Entry { run with waiting := rest } batch.index 0 batch next →
      Move run .take ⟨next, none⟩
  | call {index ordinal recordsIn : Nat} {action : Worker.Action} {worker : Worker}
      {transition : Worker.Transition} :
      run.control = .hop index ordinal recordsIn →
      run.workers[ordinal]? = some worker →
      isCallerAction action = true →
      Worker.CallerMove worker action transition →
      (∀ batch reply, transition.event? ≠ some (.answered batch reply)) →
      Move run (.client action)
        ⟨{ run with workers := run.workers.set ordinal transition.next },
          transition.event?.map (ordinal, ·)⟩
  | arrive {index ordinal recordsIn : Nat} {action : Worker.Action} {worker next : Worker}
      {batch : Batch} {reply : Reply} {arrived : Run} :
      run.control = .hop index ordinal recordsIn →
      run.workers[ordinal]? = some worker →
      isCallerAction action = true →
      Worker.CallerMove worker action ⟨next, some (.answered batch reply)⟩ →
      Arrival { run with workers := run.workers.set ordinal next }
        worker index ordinal recordsIn reply arrived →
      Move run (.client action) ⟨arrived, some (ordinal, .answered batch reply)⟩
  | stop {ending : Ending} {ordinal : Nat} {action : Worker.Action} {worker next : Worker} :
      run.control = .stopping ending ordinal →
      run.workers[ordinal]? = some worker →
      isStopAction action = true →
      Worker.OwnerMove worker action ⟨next, none⟩ →
      Move run (.client action) ⟨{ run with workers := run.workers.set ordinal next }, none⟩
  | stopped {ending : Ending} {ordinal : Nat} {action : Worker.Action} {worker next : Worker}
      {event : Worker.Event} :
      run.control = .stopping ending ordinal →
      run.workers[ordinal]? = some worker →
      isStopAction action = true →
      Worker.OwnerMove worker action ⟨next, some event⟩ →
      Move run (.client action)
        ⟨{ run with
            workers := run.workers.set ordinal next
            control := .stopping ending (ordinal + 1) }, some (ordinal, event)⟩
  | stoppedAll {ending : Ending} {ordinal : Nat} {action : Worker.Action} :
      run.control = .stopping ending ordinal →
      run.workers[ordinal]? = none →
      Move run (.client action) ⟨{ run with control := .releasing ending 0 }, none⟩
  | release {ending : Ending} {ordinal : Nat} {action : Worker.Action} {worker : Worker} :
      run.control = .releasing ending ordinal →
      run.workers[ordinal]? = some worker →
      worker.call = .none → worker.tenure = .closed →
      Move run (.client action)
        ⟨{ run with
            workers := run.workers.set ordinal { worker with tenure := .released, slot := none }
            control := .releasing ending (ordinal + 1) }, none⟩
  | releasedAll {ending : Ending} {ordinal : Nat} {action : Worker.Action} :
      run.control = .releasing ending ordinal →
      run.workers[ordinal]? = none →
      Move run (.client action) ⟨{ run with control := .over ending }, none⟩

theorem Move.of_stepThread
    {run : Run}
    {ordinal : Nat}
    {action : Worker.Action}
    {transition : Transition}
    (taken : run.stepThread ordinal action = some transition) :
    Move run (.thread ordinal action) transition := by
  unfold stepThread at taken
  obtain ⟨worker, found, taken⟩ := Option.bind_eq_some_iff.mp taken
  split at taken
  · rename_i ofThread
    obtain ⟨stepped, moved, result⟩ := Option.bind_eq_some_iff.mp taken
    cases result
    exact .thread found ((Worker.Move.of_step moved).of_isThreadAction ofThread)
  · cases taken

theorem Move.of_stepTake
    {run : Run}
    {transition : Transition}
    (taken : run.stepTake = some transition) :
    Move run .take transition := by
  unfold stepTake at taken
  split at taken
  · rename_i ready
    split at taken
    · rename_i exhausted
      cases taken
      exact .complete ready exhausted
    · rename_i batch rest waiting
      obtain ⟨next, entered, rfl⟩ := Option.map_eq_some_iff.mp taken
      exact .take ready waiting (.of_enter entered)
  · cases taken

theorem Move.of_stepCall
    {run : Run}
    {index ordinal recordsIn : Nat}
    {action : Worker.Action}
    {transition : Transition}
    (hopping : run.control = .hop index ordinal recordsIn)
    (taken : run.stepCall index ordinal recordsIn action = some transition) :
    Move run (.client action) transition := by
  unfold stepCall at taken
  obtain ⟨worker, found, taken⟩ := Option.bind_eq_some_iff.mp taken
  split at taken
  · rename_i ofCaller
    obtain ⟨⟨next, event?⟩, moved, taken⟩ := Option.bind_eq_some_iff.mp taken
    have move := (Worker.Move.of_step moved).of_isCallerAction ofCaller
    simp only at taken
    split at taken
    · obtain ⟨arrived, arrival, result⟩ := Option.bind_eq_some_iff.mp taken
      cases result
      exact .arrive hopping found ofCaller move (.of_arrive arrival)
    · rename_i unanswered
      cases taken
      exact .call hopping found ofCaller move unanswered
  · cases taken

theorem Move.of_stepStop
    {run : Run}
    {ending : Ending}
    {ordinal : Nat}
    {action : Worker.Action}
    {transition : Transition}
    (stopping : run.control = .stopping ending ordinal)
    (taken : run.stepStop ending ordinal action = some transition) :
    Move run (.client action) transition := by
  unfold stepStop at taken
  split at taken
  · rename_i absent
    cases taken
    exact .stoppedAll stopping absent
  · rename_i worker found
    split at taken
    · rename_i stops
      obtain ⟨⟨next, event?⟩, moved, rfl⟩ := Option.map_eq_some_iff.mp taken
      have move := (Worker.Move.of_step moved).of_isStopAction stops
      cases event? with
      | none => exact .stop stopping found stops move
      | some event => exact .stopped stopping found stops move
    · cases taken

theorem Move.of_stepRelease
    {run : Run}
    {ending : Ending}
    {ordinal : Nat}
    {action : Worker.Action}
    {transition : Transition}
    (releasing : run.control = .releasing ending ordinal)
    (taken : run.stepRelease ending ordinal = some transition) :
    Move run (.client action) transition := by
  unfold stepRelease at taken
  split at taken
  · rename_i absent
    cases taken
    exact .releasedAll releasing absent
  · rename_i worker found
    obtain ⟨stepped, moved, rfl⟩ := Option.map_eq_some_iff.mp taken
    rcases Worker.Move.of_step moved with move | move | move
    · cases move
    · cases move
    · cases move with
      | release free closed => exact .release releasing found free closed

/-- Every step follows a rule. -/
theorem Move.of_step
    {run : Run}
    {action : Action}
    {transition : Transition}
    (taken : run.step action = some transition) :
    Move run action transition := by
  cases action with
  | thread ordinal action => exact .of_stepThread taken
  | take => exact .of_stepTake taken
  | client action =>
      simp only [step] at taken
      split at taken
      · cases taken
      · rename_i hopping
        exact .of_stepCall hopping taken
      · rename_i stopping
        exact .of_stepStop stopping taken
      · rename_i releasing
        exact .of_stepRelease releasing taken
      · cases taken

/-- A schedule is executed by its first step and then by the rest of it. -/
theorem execute?_cons_eq_some
    {run reached : Run}
    {action : Action}
    {rest : List Action}
    {events : List Event}
    (executed : run.execute? (action :: rest) = some (reached, events)) :
    ∃ transition later, run.step action = some transition ∧
      transition.next.execute? rest = some (reached, later) ∧
      events = transition.event?.toList ++ later := by
  rw [execute?] at executed
  cases taken : run.step action with
  | none => simp [taken] at executed
  | some transition =>
      simp only [taken, Option.map_eq_some_iff, Prod.exists, Prod.mk.injEq] at executed
      obtain ⟨last, later, continued, rfl, rfl⟩ := executed
      exact ⟨transition, later, rfl, continued, rfl⟩

/-- A run under two schedules in a row passes through a state between them. -/
theorem execute?_append_eq_some
    {run reached : Run}
    {before after : List Action}
    {events : List Event}
    (executed : run.execute? (before ++ after) = some (reached, events)) :
    ∃ middle early late, run.execute? before = some (middle, early) ∧
      middle.execute? after = some (reached, late) ∧ events = early ++ late := by
  induction before generalizing run events with
  | nil => exact ⟨run, [], events, rfl, executed, rfl⟩
  | cons action rest inductionHypothesis =>
      obtain ⟨transition, later, taken, continued, rfl⟩ := execute?_cons_eq_some executed
      obtain ⟨middle, early, late, first, second, rfl⟩ := inductionHypothesis continued
      refine ⟨middle, transition.event?.toList ++ early, late, ?_, second, ?_⟩
      · simp only [execute?, taken, first, Option.map_some]
      · rw [List.append_assoc]

/-- A schedule can be continued by one of the state that it leads to. -/
theorem execute?_append
    {run middle reached : Run}
    {before after : List Action}
    {early late : List Event}
    (first : run.execute? before = some (middle, early))
    (second : middle.execute? after = some (reached, late)) :
    run.execute? (before ++ after) = some (reached, early ++ late) := by
  induction before generalizing run early with
  | nil =>
      cases first
      exact second
  | cons action rest inductionHypothesis =>
      obtain ⟨transition, later, taken, continued, rfl⟩ := execute?_cons_eq_some first
      simp only [List.cons_append, execute?, taken, inductionHypothesis continued,
        Option.map_some, List.append_assoc]

end Run
end StagePipeline
