import Mathlib.Tactic.Ring
import StagePipeline.Proofs.Run.Course
import StagePipeline.Proofs.Run.Effort

/-!
# No schedule is stuck

A run that is not over can always go on without letting a deadline pass: thread and
coordinator never wait for each other.  As every schedule ends, a run comes to its
end whatever the order of its steps.  Unless a stage holds a batch, the usual
schedule is one that does.
-/

namespace StagePipeline
namespace Worker

variable {worker : Worker} {action : Action} {transition : Transition}

/-- What a thread is to do next it can do. -/
theorem step_of_threadAction?
    {gateOpen : Bool}
    (next : worker.threadAction? gateOpen = some action) :
    Run.isThreadAction action = true ∧ ∃ transition, worker.step action = some transition := by
  unfold threadAction? at next
  split at next
  · rename_i receiving
    cases waiting : worker.mailbox with
    | nil =>
        simp only [waiting, List.isEmpty_nil, Bool.not_true, Bool.false_eq_true, if_false] at next
        split at next
        · rename_i closed
          cases next
          simp [Run.isThreadAction, step, stepHangUp, receiving, waiting, closed, silently]
        · cases next
    | cons command rest =>
        simp only [waiting, List.isEmpty_cons, Bool.not_false, if_true] at next
        cases next
        simp [Run.isThreadAction, step, stepReceive, receiving, waiting, silently]
  · rename_i command holding
    cases next
    refine ⟨rfl, ?_⟩
    simp only [step, stepCheck, holding]
    cases command <;> split <;> simp [silently]
  · rename_i accepted
    cases next
    simp [Run.isThreadAction, step, stepBegin, accepted, seen]
  · rename_i applying
    split at next
    · cases next
    · cases next
      refine ⟨rfl, ?_⟩
      simp only [step, stepFinish, applying]
      split <;> simp [silently]
  · rename_i finished
    cases next
    simp [Run.isThreadAction, step, stepRest, finished, silently]
  · rename_i replying
    split at next
    · rename_i free
      cases next
      refine ⟨rfl, ?_⟩
      simp only [step, stepReply, replying]
      split
      · simp [silently]
      · rename_i kept
        cases empty : worker.slot with
        | none => simp [silently]
        | some reply => simp [empty, kept] at free
    · cases next
  · rename_i leaving
    cases next
    simp [Run.isThreadAction, step, stepExit, leaving, silently]
  · cases next
  · cases next

/-- A thread that waits at an empty mailbox takes in a command. -/
theorem offer?_of_receiving
    (worker : Worker)
    (command : Command)
    (receiving : worker.phase = .receiving)
    (empty : worker.mailbox = []) :
    ∃ next, worker.offer? command = some next := by
  unfold offer?
  split
  · exact ⟨_, rfl⟩
  · have room : worker.mailbox.length < worker.capacity := by
      rw [empty, List.length_nil]
      omega
    simp [room]

theorem send_of_offer?
    {next : Worker}
    {number : UInt64}
    {batch : Batch}
    (sending : worker.call = .sending number batch)
    (present : worker.isGone = false)
    (offered : worker.offer? (.process number batch) = some next) :
    worker.callerAction? = some .send ∧
      worker.step .send = some ⟨{ next with call := .awaiting number batch }, none⟩ := by
  constructor
  · simp [callerAction?, sending, offered]
  · simp [step, stepSend, sending, present, offered, silently]

theorem collect_of_slot
    {number : UInt64}
    {batch : Batch}
    {reply : Reply}
    (awaiting : worker.call = .awaiting number batch)
    (filled : worker.slot = some (number, reply)) :
    worker.step .collect =
      some ⟨{ worker with slot := none, call := .none }, some (.answered batch reply)⟩ := by
  simp [step, stepCollect, awaiting, filled, answer, seen]

/-- A caller whose thread waits goes on by itself, unless the stage holds its batch. -/
theorem Errand.callerAction?
    {stage : Stage}
    {ordinal : Nat}
    {settings : Settings}
    {clock : UInt64 → Timestamp}
    {number : UInt64}
    {batch : Batch}
    {begun : Bool}
    (errand : Errand stage ordinal settings clock number batch begun worker)
    (waits : worker.threadAction? false = none) :
    (∃ action transition, worker.callerAction? = some action ∧
        Run.isCallerAction action = true ∧ action ≠ .expire ∧
        worker.step action = some transition) ∨
      stage.holds batch = true ∧ ∃ transition, worker.step .finish = some transition := by
  cases errand with
  | claimed => exact Or.inl ⟨.inspect, _, rfl, rfl, by simp, rfl⟩
  | sending =>
      left
      obtain ⟨next, offered⟩ := offer?_of_receiving
        { atRest stage ordinal settings clock (number + 1) with call := .sending number batch }
        (.process number batch) rfl rfl
      obtain ⟨chosen, sent⟩ := send_of_offer? rfl rfl offered
      exact ⟨.send, _, chosen, rfl, by simp, sent⟩
  | applying =>
      right
      have holds : stage.holds batch = true := by
        simpa [threadAction?, entrusted, atRest, ofStage] using waits
      refine ⟨holds, ?_⟩
      simp only [step, stepFinish]
      split <;> exact ⟨_, rfl⟩
  | replied replied =>
      exact Or.inl ⟨.collect, _, rfl, rfl, by simp, collect_of_slot rfl rfl⟩
  | dead silent => exact Or.inl ⟨.disconnect, _, rfl, rfl, by simp, rfl⟩
  | _ => cases waits

end Worker

namespace Run

variable
  {settings : Settings}
  {clocks : Clocks}
  {stages : List Stage}
  {run : Run}
  {action : Action}

/-! ## Threads -/

theorem of_threadAction?
    {ordinal : Nat}
    {workers : List Worker}
    (next : threadAction? ordinal workers = some action) :
    ∃ distance worker inner, action = .thread (ordinal + distance) inner ∧
      workers[distance]? = some worker ∧ worker.threadAction? false = some inner := by
  induction workers generalizing ordinal with
  | nil => cases next
  | cons worker rest inductionHypothesis =>
      rw [threadAction?] at next
      split at next
      · rename_i inner found
        cases next
        exact ⟨0, worker, inner, rfl, rfl, found⟩
      · obtain ⟨distance, later, inner, rfl, present, found⟩ := inductionHypothesis next
        refine ⟨distance + 1, later, inner, ?_, by simpa using present, found⟩
        rw [Nat.add_assoc, Nat.add_comm 1]

theorem of_threadAction?_eq_none
    {ordinal : Nat}
    {workers : List Worker}
    {worker : Worker}
    (waits : threadAction? ordinal workers = none)
    (present : worker ∈ workers) :
    worker.threadAction? false = none := by
  induction workers generalizing ordinal with
  | nil => cases present
  | cons first rest inductionHypothesis =>
      rw [threadAction?] at waits
      split at waits
      · cases waits
      · rename_i firstWaits
        rcases List.mem_cons.mp present with rfl | present
        · exact firstWaits
        · exact inductionHypothesis waits present

/-- The thread that is to go on next can do so. -/
theorem step_of_threadAction?
    (next : threadAction? 0 run.workers = some action) :
    action ≠ .client .expire ∧ ∃ transition, run.step action = some transition := by
  obtain ⟨distance, worker, inner, rfl, found, chosen⟩ := of_threadAction? next
  obtain ⟨ofThread, transition, taken⟩ := Worker.step_of_threadAction? chosen
  refine ⟨by simp, ?_⟩
  simp [step, stepThread, found, ofThread, taken]

/-! ## The coordinator -/

/-- A batch can be sent to a stage whose worker serves. -/
theorem enter_isSome
    (run : Run)
    (serving : ∀ worker ∈ run.workers, worker.tenure = .serving)
    (index ordinal : Nat)
    (batch : Batch) :
    ∃ next, run.enter index ordinal batch = some next := by
  unfold enter
  cases found : run.workers[ordinal]? with
  | none => exact ⟨_, rfl⟩
  | some worker =>
      have accepts : worker.acceptsCalls = true := by
        rw [Worker.acceptsCalls, serving worker (List.mem_of_getElem? found)]
      simp only [Worker.step, Worker.stepSubmit, accepts, if_true]
      cases worker.call <;> exact ⟨_, rfl⟩

theorem arrive_isSome
    (run : Run)
    (serving : ∀ worker ∈ run.workers, worker.tenure = .serving)
    (worker : Worker)
    (index ordinal recordsIn : Nat)
    (reply : Reply) :
    ∃ next, run.arrive worker index ordinal recordsIn reply = some next := by
  unfold arrive
  cases reply with
  | error fault => exact ⟨_, rfl⟩
  | ok output =>
      simp only
      split
      · exact enter_isSome (run.countHop ordinal recordsIn output.recordCount) serving _ _ _
      · exact ⟨_, rfl⟩
      · exact ⟨_, rfl⟩

/-- What a caller can do, the coordinator can do as that caller. -/
theorem stepCall_isSome
    {ordinal : Nat}
    {worker : Worker}
    {inner : Worker.Action}
    {transition : Worker.Transition}
    (serving : ∀ worker ∈ run.workers, worker.tenure = .serving)
    (found : run.workers[ordinal]? = some worker)
    (ofCaller : isCallerAction inner = true)
    (taken : worker.step inner = some transition)
    (index recordsIn : Nat) :
    ∃ next, run.stepCall index ordinal recordsIn inner = some next := by
  have kept : transition.next.tenure = .serving := by
    rw [((Worker.Move.of_step taken).of_isCallerAction ofCaller).tenure_eq]
    exact serving worker (List.mem_of_getElem? found)
  have stillServing : ∀ other ∈ run.workers.set ordinal transition.next,
      other.tenure = .serving := by
    intro other present
    rcases List.mem_or_eq_of_mem_set present with present | rfl
    · exact serving other present
    · exact kept
  obtain ⟨next, event?⟩ := transition
  simp only [stepCall, found, ofCaller, taken, Option.bind_eq_bind, Option.bind_some, if_true]
  split
  · obtain ⟨arrived, arrival⟩ := arrive_isSome
      { run with workers := run.workers.set ordinal next } stillServing worker index ordinal
      recordsIn _
    rw [arrival]
    exact ⟨_, rfl⟩
  · exact ⟨_, rfl⟩

/-! ## Every position -/

/-- An action that can be taken without a deadline passing.  It is that of the usual
schedule unless a stage holds a batch. -/
def CanGoOn (stages : List Stage) (run : Run) : Prop :=
  ∃ action transition, run.step action = some transition ∧ action ≠ .client .expire ∧
    ((∀ stage ∈ stages, ∀ batch, stage.holds batch = false) → run.usualAction? = some action)

theorem canGoOn_of_coordinator
    {transition : Transition}
    (waits : threadAction? 0 run.workers = none)
    (next : run.coordinatorAction? = some action)
    (timely : action ≠ .client .expire)
    (taken : run.step action = some transition) :
    CanGoOn stages run := by
  refine ⟨action, transition, taken, timely, fun _ => ?_⟩
  rw [usualAction?, waits, next]
  rfl

theorem Orderly.serving_of_hop
    {passage : Passage}
    {begun : Bool}
    {worker : Worker}
    (errand : Worker.Errand passage.stage passage.ordinal settings
      (clocks.stamp passage.ordinal) run.number passage.batch begun worker)
    (workers : run.workers = passage.crews settings clocks run.number worker) :
    ∀ found ∈ run.workers, found.tenure = .serving := by
  intro found present
  rw [workers, Passage.crews] at present
  rcases List.mem_append.mp present with before | present
  · exact tenure_of_mem_crew before
  · rcases List.mem_cons.mp present with rfl | behind
    · exact errand.tenure_eq
    · exact tenure_of_mem_crew behind

theorem Orderly.canGoOn_between
    (ready : run.control = .ready)
    (workers : run.workers = crew settings clocks run.number 0 stages)
    (waits : threadAction? 0 run.workers = none) :
    CanGoOn stages run := by
  have chosen : run.coordinatorAction? = some .take := by
    rw [coordinatorAction?, ready]
  have taken : ∃ transition, run.step .take = some transition := by
    rw [step, stepTake, ready]
    cases waiting : run.waiting with
    | nil => exact ⟨_, rfl⟩
    | cons batch rest =>
      have serving : ∀ worker ∈ run.workers, worker.tenure = .serving := by
        rw [workers]
        exact fun worker => tenure_of_mem_crew
      obtain ⟨next, entered⟩ :=
        enter_isSome { run with waiting := rest } serving batch.index 0 batch
      exact ⟨_, Option.map_eq_some_iff.mpr ⟨next, entered, rfl⟩⟩
  obtain ⟨transition, taken⟩ := taken
  exact canGoOn_of_coordinator waits chosen (by simp) taken

theorem Orderly.canGoOn_hop
    {passage : Passage}
    {begun : Bool}
    {worker : Worker}
    (passes : stages = passage.stages)
    (hopping : run.control = .hop passage.index passage.ordinal passage.batch.size)
    (workers : run.workers = passage.crews settings clocks run.number worker)
    (errand : Worker.Errand passage.stage passage.ordinal settings
      (clocks.stamp passage.ordinal) run.number passage.batch begun worker)
    (waits : threadAction? 0 run.workers = none) :
    CanGoOn stages run := by
  have found : run.workers[passage.ordinal]? = some worker := by
    rw [workers]
    exact passage.crews_getElem? settings clocks run.number worker
  have present := List.mem_of_getElem? found
  rcases errand.callerAction? (of_threadAction?_eq_none waits present) with
    ⟨inner, transition, chosen, ofCaller, timely, taken⟩ | ⟨holds, transition, taken⟩
  · have serving := Orderly.serving_of_hop errand workers
    obtain ⟨next, called⟩ :=
      stepCall_isSome serving found ofCaller taken passage.index passage.batch.size
    have enabled : run.step (.client inner) = some next := by
      rw [step, hopping]
      exact called
    have next : run.coordinatorAction? = some (.client inner) := by
      simp [coordinatorAction?, hopping, found, chosen]
    exact canGoOn_of_coordinator waits next (fun same => timely (Action.client.inj same)) enabled
  · refine ⟨.thread passage.ordinal .finish,
      ⟨{ run with workers := run.workers.set passage.ordinal transition.next },
        transition.event?.map (passage.ordinal, ·)⟩, ?_, by simp, fun free => ?_⟩
    · simp [step, stepThread, found, isThreadAction, taken]
    · have among : passage.stage ∈ stages := by
        rw [passes, Passage.stages]
        simp
      rw [free passage.stage among passage.batch] at holds
      cases holds

/-- The owner of a worker can always go on to stop it. -/
theorem step_stopAction
    {worker : Worker}
    (free : worker.call = .none)
    (unstopped : worker.tenure ≠ .closed ∧ worker.tenure ≠ .released) :
    isStopAction (stopAction worker) = true ∧ stopAction worker ≠ .expire ∧
      ∃ transition, worker.step (stopAction worker) = some transition := by
  cases tenure : worker.tenure with
  | serving =>
      simp [stopAction, tenure, isStopAction, Worker.step, Worker.stepTerminate, free,
        Worker.silently]
  | stopping =>
      simp [stopAction, tenure, isStopAction, Worker.step, Worker.stepClose, Worker.silently]
  | draining =>
      cases gone : worker.isGone with
      | true =>
          simp [stopAction, tenure, gone, isStopAction, Worker.step, Worker.stepJoin, Worker.seen]
      | false =>
          simp [stopAction, tenure, gone, isStopAction, Worker.step, Worker.stepAbandon,
            Worker.seen]
  | closed => exact absurd tenure unstopped.1
  | released => exact absurd tenure unstopped.2

theorem Orderly.canGoOn_ended
    {ending : Ending}
    {ordinal : Nat}
    {job? : Option Worker.Job}
    (ends : run.control.ending? = some ending)
    (workers : ∀ (position : Nat) (worker : Worker), run.workers[position]? = some worker →
      worker.Remains (position = ordinal) job? ∧ run.control.Expects position worker.tenure)
    (goesOn : run.ending? = none)
    (waits : threadAction? 0 run.workers = none) :
    CanGoOn stages run := by
  cases control : run.control with
  | ready | hop =>
      rw [control] at ends
      cases ends
  | stopping ending current =>
      cases found : run.workers[current]? with
      | none =>
          have taken : run.step (.client .terminate) =
              some ⟨{ run with control := .releasing ending 0 }, none⟩ := by
            simp [step, control, stepStop, found]
          have chosen : run.coordinatorAction? = some (.client .terminate) := by
            simp [coordinatorAction?, control, found]
          exact canGoOn_of_coordinator waits chosen (by simp) taken
      | some worker =>
          obtain ⟨remains, expects⟩ := workers current worker found
          rw [control] at expects
          obtain ⟨stops, timely, transition, taken⟩ :=
            step_stopAction remains.free (expects.2.1 rfl)
          have enabled : ∃ next, run.step (.client (stopAction worker)) = some next := by
            simp only [step, control, stepStop, found, stops, if_true, taken, Option.map_some]
            exact ⟨_, rfl⟩
          obtain ⟨next, enabled⟩ := enabled
          have chosen : run.coordinatorAction? = some (.client (stopAction worker)) := by
            simp [coordinatorAction?, control, found]
          exact canGoOn_of_coordinator waits chosen
            (fun same => timely (Action.client.inj same)) enabled
  | releasing ending current =>
      have chosen : run.coordinatorAction? = some (.client .release) := by
        rw [coordinatorAction?, control]
      cases found : run.workers[current]? with
      | none =>
          have taken : run.step (.client .release) =
              some ⟨{ run with control := .over ending }, none⟩ := by
            simp [step, control, stepRelease, found]
          exact canGoOn_of_coordinator waits chosen (by simp) taken
      | some worker =>
          obtain ⟨remains, expects⟩ := workers current worker found
          rw [control] at expects
          have closed := expects.2 (Nat.le_refl _)
          have enabled : ∃ next, run.step (.client .release) = some next := by
            simp [step, control, stepRelease, found, Worker.step, Worker.stepRelease,
              remains.free, closed, Worker.silently]
          obtain ⟨next, enabled⟩ := enabled
          exact canGoOn_of_coordinator waits chosen (by simp) enabled
  | «over» ending =>
      rw [ending?, control] at goesOn
      cases goesOn

/-- A run that is not over can go on. -/
theorem Orderly.canGoOn
    {position : Position}
    (orderly : Orderly settings clocks stages run position)
    (goesOn : run.ending? = none) :
    CanGoOn stages run := by
  cases waits : threadAction? 0 run.workers with
  | some action =>
      obtain ⟨timely, transition, taken⟩ := step_of_threadAction? waits
      refine ⟨action, transition, taken, timely, fun _ => ?_⟩
      rw [usualAction?, waits]
      rfl
  | none =>
      cases orderly with
      | between ready workers => exact Orderly.canGoOn_between ready workers waits
      | hop passes hopping workers errand =>
          exact Orderly.canGoOn_hop passes hopping workers errand waits
      | ended ends workers => exact Orderly.canGoOn_ended ends workers goesOn waits

/-! ## The usual schedule -/

theorem workersEffort_crew
    (settings : Settings)
    (clocks : Clocks)
    (number : UInt64)
    (ordinal : Nat)
    (stages : List Stage) :
    workersEffort (crew settings clocks number ordinal stages) = 13 * stages.length := by
  induction stages generalizing ordinal with
  | nil => rfl
  | cons stage rest inductionHypothesis =>
      have resting :
          (Worker.atRest stage ordinal settings (clocks.stamp ordinal) number).effort = 13 := rfl
      have others := inductionHypothesis (ordinal + 1)
      simp only [crew, workersEffort, resting, others, List.length_cons]
      omega

/-- The effort of a run that starts is within its bound. -/
theorem start_effort_le
    {observer? : Option Observer}
    {batches : List Batch}
    (started : start? stages settings clocks observer? batches = some run) :
    run.effort ≤ run.stepBound := by
  obtain ⟨workers, spawned, result⟩ := Option.bind_eq_some_iff.mp started
  cases result
  have resting := workersEffort_crew settings clocks 0 0 stages
  rw [← spawnFrom?_eq_some spawned] at resting
  have length_eq : workers.length = stages.length := by
    rw [spawnFrom?_eq_some spawned, crew_length]
  simp only [effort, stepBound, Control.effort, routingEffort, length_eq, resting]
  ring_nf
  omega

/-- No schedule takes a run that starts beyond its bound. -/
theorem length_le_stepBound
    {reached : Run}
    {observer? : Option Observer}
    {batches : List Batch}
    {schedule : List Action}
    {events : List Event}
    (started : start? stages settings clocks observer? batches = some run)
    (executed : run.execute? schedule = some (reached, events)) :
    schedule.length ≤ run.stepBound := by
  have spent := length_add_effort_le executed
  have bounded := start_effort_le started
  omega

/-- When the usual schedule has no step, the run is over. -/
theorem Orderly.over_of_usualAction?
    {position : Position}
    (orderly : Orderly settings clocks stages run position)
    (free : ∀ stage ∈ stages, ∀ batch, stage.holds batch = false)
    (stuck : run.usualAction?.bind run.step = none) :
    ∃ ending, run.ending? = some ending := by
  cases ended : run.ending? with
  | some ending => exact ⟨ending, rfl⟩
  | none =>
      obtain ⟨action, transition, taken, timely, chosen⟩ := orderly.canGoOn ended
      rw [chosen free, Option.bind_some, taken] at stuck
      cases stuck

/-- Unless a stage holds a batch, the usual schedule lets no deadline pass. -/
theorem Orderly.usualAction?_ne_expire
    {position : Position}
    (orderly : Orderly settings clocks stages run position)
    (free : ∀ stage ∈ stages, ∀ batch, stage.holds batch = false)
    (chosen : run.usualAction? = some action) :
    action ≠ .client .expire := by
  cases ended : run.ending? with
  | none =>
      obtain ⟨other, transition, taken, timely, usual⟩ := orderly.canGoOn ended
      cases chosen.symm.trans (usual free)
      exact timely
  | some ending =>
      cases waits : threadAction? 0 run.workers with
      | some thread =>
          rw [usualAction?, waits] at chosen
          cases chosen
          exact (step_of_threadAction? waits).1
      | none =>
          rw [usualAction?, waits, Option.none_or] at chosen
          unfold ending? at ended
          split at ended
          · rename_i control
            rw [coordinatorAction?, control] at chosen
            cases chosen
          · cases ended

/-- Unless a stage holds a batch, the usual schedule leads to the end of the run. -/
theorem Orderly.follow_ends
    {position : Position}
    {steps : Nat}
    (orderly : Orderly settings clocks stages run position)
    (free : ∀ stage ∈ stages, ∀ batch, stage.holds batch = false)
    (enough : run.effort ≤ steps) :
    ∃ schedule events ending, run.execute? schedule = some (follow steps run, events) ∧
      .client .expire ∉ schedule ∧ (follow steps run).ending? = some ending := by
  induction steps generalizing run position with
  | zero =>
      cases taken : run.usualAction?.bind run.step with
      | none =>
          obtain ⟨ending, ended⟩ := orderly.over_of_usualAction? free taken
          exact ⟨[], [], ending, rfl, List.not_mem_nil, ended⟩
      | some transition =>
          obtain ⟨action, chosen, taken⟩ := Option.bind_eq_some_iff.mp taken
          have lowered := (Move.of_step taken).effort_lt
          omega
  | succ steps inductionHypothesis =>
      cases taken : run.usualAction?.bind run.step with
      | none =>
          obtain ⟨ending, ended⟩ := orderly.over_of_usualAction? free taken
          rw [follow, taken]
          exact ⟨[], [], ending, rfl, List.not_mem_nil, ended⟩
      | some transition =>
          rw [follow, taken]
          obtain ⟨action, chosen, taken⟩ := Option.bind_eq_some_iff.mp taken
          have lowered := (Move.of_step taken).effort_lt
          obtain ⟨onward, turned, orderlyNext⟩ := orderly.turn (.of_step taken)
          obtain ⟨schedule, events, ending, executed, timely, ended⟩ :=
            inductionHypothesis orderlyNext (by omega)
          refine ⟨action :: schedule, transition.event?.toList ++ events, ending, ?_, ?_, ended⟩
          · simp only [execute?, taken, executed, Option.map_some]
          · rw [List.mem_cons, not_or]
            exact ⟨(orderly.usualAction?_ne_expire free chosen).symm, timely⟩

end Run
end StagePipeline
