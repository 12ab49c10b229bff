import StagePipeline.Proofs.Run.Progress

/-!
# Calls under the usual schedule

What a worker does when it is called or stopped as a whole is one of its schedules: every state
on the way is reachable, and every reply is that of a call that returns.  Thread and caller take
fewer steps between them than the bound of the worker, so that a worker which is left alone has
come as far as it can.
-/

namespace StagePipeline
namespace Worker

variable
  {worker middle reached : Worker}
  {action : Action}
  {transition : Transition}
  {policy : Worker → Option Action}
  {events later : List Event}

/-! ## Steps of thread and caller -/

/-- An action that a thread or a caller takes for a call in progress. -/
def IsUrgent (action : Action) : Prop :=
  Run.isThreadAction action = true ∨ Run.isCallerAction action = true

/-- An urgent step lowers the effort. -/
theorem Move.effort_lt
    (move : Move worker action transition)
    (urgent : IsUrgent action) :
    transition.next.effort < worker.effort := by
  rcases urgent with ofThread | ofCaller
  · exact (move.of_isThreadAction ofThread).effort_lt
  · exact (move.of_isCallerAction ofCaller).effort_lt ofCaller

theorem Call.effort_le (call : Call) : call.effort ≤ 10 := by
  cases call <;> simp [Call.effort]

theorem Tenure.effort_le (tenure : Tenure) : tenure.effort ≤ 11 := by
  cases tenure <;> simp [Tenure.effort]

/-- The bound on the steps that is run covers the effort of every worker. -/
theorem effort_le_stepBound (worker : Worker) : worker.effort ≤ worker.stepBound := by
  have phase := worker.phase.effort_le
  have call := worker.call.effort_le
  have tenure := worker.tenure.effort_le
  have slot : worker.slot.toList.length ≤ 1 := by
    cases worker.slot <;> simp
  unfold effort stepBound
  omega

/-- However thread and caller take turns, they come to an end within the bound. -/
theorem length_le_stepBound
    {schedule : List Action}
    (executed : worker.execute? schedule = some (reached, events))
    (urgent : ∀ action ∈ schedule, IsUrgent action) :
    schedule.length ≤ worker.stepBound := by
  have spent : schedule.length + reached.effort ≤ worker.effort := by
    induction schedule generalizing worker events with
    | nil =>
        cases executed
        simp
    | cons action rest inductionHypothesis =>
        obtain ⟨first, others⟩ := List.forall_mem_cons.mp urgent
        obtain ⟨transition, later, taken, continued, -⟩ := execute?_cons_eq_some executed
        have lowered := (Move.of_step taken).effort_lt first
        have followed := inductionHypothesis continued others
        rw [List.length_cons]
        omega
  have bounded := worker.effort_le_stepBound
  omega

/-! ## Policies -/

/-- A policy that asks thread and caller only. -/
def Urges (policy : Worker → Option Action) : Prop :=
  ∀ worker action, policy worker = some action → IsUrgent action

/-- What the thread is made to do is urgent, and it can be done. -/
theorem urges_threadAction? (gateOpen : Bool) : Urges (threadAction? gateOpen) :=
  fun _ _ asked => Or.inl (step_of_threadAction? asked).1

/-- What a call is made to do is urgent, and it can be done. -/
theorem urges_callerAction? : Urges callerAction? := by
  intro worker action asked
  unfold callerAction? at asked
  split at asked
  · cases asked
  · cases asked
    exact Or.inr rfl
  · split at asked
    · cases asked
      exact Or.inr rfl
    · cases asked
  · split at asked
    · cases asked
      exact Or.inr rfl
    · split at asked
      · cases asked
        exact Or.inr rfl
      · cases asked

/-- A policy that falls back on another one urges what either of them urges. -/
theorem Urges.or
    {other : Worker → Option Action}
    (urges : Urges policy)
    (otherUrges : Urges other) :
    Urges fun worker => (policy worker).or (other worker) := by
  intro worker action asked
  rcases Option.or_eq_some_iff.mp asked with first | ⟨-, second⟩
  · exact urges worker action first
  · exact otherUrges worker action second

theorem urges_urgentAction? (gateOpen : Bool) : Urges (urgentAction? gateOpen) :=
  (urges_threadAction? gateOpen).or urges_callerAction?

theorem urges_usualAction? (gateOpen : Bool) : Urges (usualAction? gateOpen) := by
  refine (urges_urgentAction? gateOpen).or fun worker action asked => ?_
  split at asked
  · cases asked
    exact Or.inr rfl
  · cases asked

/-! ## Schedules -/

/-- Some schedule leads from one state to another, and lets these events be seen. -/
def LeadsTo (worker reached : Worker) (events : List Event) : Prop :=
  ∃ schedule, worker.execute? schedule = some (reached, events)

namespace LeadsTo

theorem refl (worker : Worker) : LeadsTo worker worker [] :=
  ⟨[], rfl⟩

theorem cons
    (taken : worker.step action = some transition)
    (leads : LeadsTo transition.next reached events) :
    LeadsTo worker reached (transition.event?.toList ++ events) := by
  obtain ⟨schedule, executed⟩ := leads
  exact ⟨action :: schedule, by simp only [execute?_cons, taken, executed, Option.map_some]⟩

theorem single (taken : worker.step action = some transition) :
    LeadsTo worker transition.next transition.event?.toList := by
  have leads := cons taken (refl transition.next)
  rwa [List.append_nil] at leads

theorem trans
    (first : LeadsTo worker middle events)
    (second : LeadsTo middle reached later) :
    LeadsTo worker reached (events ++ later) := by
  obtain ⟨schedule, executed⟩ := first
  induction schedule generalizing worker events with
  | nil =>
      cases executed
      exact second
  | cons action rest inductionHypothesis =>
      obtain ⟨transition, seen, taken, continued, rfl⟩ := execute?_cons_eq_some executed
      rw [List.append_assoc]
      exact cons taken (inductionHypothesis continued)

theorem reachable (leads : LeadsTo worker reached events) : Reachable worker reached := by
  obtain ⟨schedule, executed⟩ := leads
  exact .of_execute? executed

end LeadsTo

/-- A schedule leads to this state and, if there is a reply, lets a call return with it. -/
def Answers (worker : Worker) (outcome : Worker × Option Reply) : Prop :=
  ∃ events, LeadsTo worker outcome.1 events ∧
    ∀ reply ∈ outcome.2, ∃ batch, .answered batch reply ∈ events

/-- An answer stands when the worker goes on. -/
theorem Answers.trans
    {reply? : Option Reply}
    (answers : Answers worker (middle, reply?))
    (leads : LeadsTo middle reached later) :
    Answers worker (reached, reply?) := by
  obtain ⟨events, first, answered⟩ := answers
  refine ⟨events ++ later, first.trans leads, fun reply present => ?_⟩
  obtain ⟨batch, among⟩ := answered reply present
  exact ⟨batch, List.mem_append_left _ among⟩

/-- An answer may be come to by steps in which nobody is answered. -/
theorem LeadsTo.answers
    {outcome : Worker × Option Reply}
    (first : LeadsTo worker middle events)
    (answers : Answers middle outcome) :
    Answers worker outcome := by
  obtain ⟨later, leads, answered⟩ := answers
  refine ⟨events ++ later, first.trans leads, fun reply present => ?_⟩
  obtain ⟨batch, among⟩ := answered reply present
  exact ⟨batch, List.mem_append_right _ among⟩

theorem Answers.of_answered
    {batch : Batch}
    {reply : Reply}
    (taken : worker.step action = some ⟨reached, some (.answered batch reply)⟩) :
    Answers worker (reached, some reply) := by
  refine ⟨_, .single taken, ?_⟩
  rintro other ⟨⟩
  exact ⟨batch, List.mem_cons_self⟩

/-- What comes of following a policy is a schedule. -/
theorem follow_answers (policy : Worker → Option Action) (steps : Nat) (worker : Worker) :
    Answers worker (worker.follow policy steps) := by
  induction steps generalizing worker with
  | zero => exact ⟨[], .refl worker, nofun⟩
  | succ steps inductionHypothesis =>
      rw [follow]
      split
      · exact ⟨[], .refl worker, nofun⟩
      · rename_i next batch reply asked
        obtain ⟨action, -, taken⟩ := Option.bind_eq_some_iff.mp asked
        exact .of_answered taken
      · rename_i next event? _ asked
        obtain ⟨action, -, taken⟩ := Option.bind_eq_some_iff.mp asked
        exact (LeadsTo.single taken).answers (inductionHypothesis next)

/-- Where the policy has no step left, the worker stays as it is. -/
theorem follow_of_resting
    (resting : (policy worker).bind worker.step = none)
    (steps : Nat) :
    worker.follow policy steps = (worker, none) := by
  cases steps with
  | zero => rfl
  | succ steps => rw [follow, resting]

/-- After a step that no call returns with, the policy is followed from there. -/
theorem follow_succ
    {steps : Nat}
    (asked : (policy worker).bind worker.step = some transition)
    (unanswered : ∀ batch reply, transition.event? ≠ some (.answered batch reply)) :
    worker.follow policy (steps + 1) = transition.next.follow policy steps := by
  rw [follow, asked]
  split
  · rename_i taken
    cases taken
  · rename_i batch reply taken
    cases taken
    exact absurd rfl (unanswered batch reply)
  · rename_i taken
    cases taken
    rfl

/-- Within the effort of the worker a policy is followed until a call returns or until there is
no step that it asks for. -/
theorem follow_ends
    {steps : Nat}
    (urges : Urges policy)
    (enough : worker.effort ≤ steps)
    (silent : (worker.follow policy steps).2 = none) :
    (policy (worker.follow policy steps).1).bind (worker.follow policy steps).1.step = none := by
  induction steps generalizing worker with
  | zero =>
      cases asked : (policy worker).bind worker.step with
      | none => exact asked
      | some transition =>
          obtain ⟨action, chosen, taken⟩ := Option.bind_eq_some_iff.mp asked
          have lowered := (Move.of_step taken).effort_lt (urges worker action chosen)
          omega
  | succ steps inductionHypothesis =>
      cases asked : (policy worker).bind worker.step with
      | none => rwa [follow_of_resting asked]
      | some transition =>
          obtain ⟨action, chosen, taken⟩ := Option.bind_eq_some_iff.mp asked
          have lowered := (Move.of_step taken).effort_lt (urges worker action chosen)
          by_cases answered : ∃ batch reply, transition.event? = some (.answered batch reply)
          · obtain ⟨batch, reply, event⟩ := answered
            obtain ⟨next, _⟩ := transition
            cases event
            rw [follow, asked] at silent
            cases silent
          · have unanswered : ∀ batch reply,
                transition.event? ≠ some (.answered batch reply) :=
              fun batch reply event => answered ⟨batch, reply, event⟩
            rw [follow_succ asked unanswered] at silent ⊢
            exact inductionHypothesis (by omega) silent

/-! ## Workers left alone -/

/-- The thread answers no call. -/
theorem ThreadMove.unanswered
    (move : ThreadMove worker action transition)
    (batch : Batch)
    (reply : Reply) :
    transition.event? ≠ some (.answered batch reply) := by
  cases move <;> nofun

/-- A thread that goes on by itself answers no call and leaves the owner where it is. -/
theorem follow_threadAction? (gateOpen : Bool) (steps : Nat) (worker : Worker) :
    (worker.follow (threadAction? gateOpen) steps).2 = none ∧
      (worker.follow (threadAction? gateOpen) steps).1.tenure = worker.tenure := by
  induction steps generalizing worker with
  | zero => exact ⟨rfl, rfl⟩
  | succ steps inductionHypothesis =>
      cases asked : (worker.threadAction? gateOpen).bind worker.step with
      | none =>
          rw [follow_of_resting asked]
          exact ⟨rfl, rfl⟩
      | some transition =>
          obtain ⟨action, chosen, taken⟩ := Option.bind_eq_some_iff.mp asked
          have move := (Move.of_step taken).of_isThreadAction (step_of_threadAction? chosen).1
          obtain ⟨silent, kept⟩ := inductionHypothesis transition.next
          rw [follow_succ asked move.unanswered]
          exact ⟨silent, kept.trans move.tenure_eq⟩

/-- A worker that settles takes steps of its thread, until that has to wait. -/
theorem settle_waits (gateOpen : Bool) (worker : Worker) :
    (∃ events, LeadsTo worker (worker.settle gateOpen) events) ∧
      (worker.settle gateOpen).threadAction? gateOpen = none := by
  constructor
  · obtain ⟨events, leads, -⟩ :=
      follow_answers (threadAction? gateOpen) worker.stepBound worker
    exact ⟨events, leads⟩
  · have rests := follow_ends (urges_threadAction? gateOpen) worker.effort_le_stepBound
      (follow_threadAction? gateOpen worker.stepBound worker).1
    change ((worker.settle gateOpen).threadAction? gateOpen).bind _ = none at rests
    cases chosen : (worker.settle gateOpen).threadAction? gateOpen with
    | none => rfl
    | some action =>
        obtain ⟨-, transition, taken⟩ := step_of_threadAction? chosen
        rw [chosen, Option.bind_some] at rests
        cases rests.symm.trans taken

/-- To let the thread go on leads to where it leaves the worker. -/
theorem settleIfHeld_leadsTo (gateOpen : Bool) (worker : Worker) :
    ∃ events, LeadsTo worker (worker.settleIfHeld gateOpen) events := by
  unfold settleIfHeld
  simp only
  split
  · exact (worker.settle_waits gateOpen).1
  · exact ⟨[], .refl worker⟩

/-! ## Calls -/

/-- Unless it has no time at all, a call that is pursued or concluded returns, or leaves thread
and caller without a step. -/
theorem pursue_answers (gateOpen : Bool) (worker : Worker) :
    Answers worker (worker.pursue gateOpen) ∧
      ((worker.pursue gateOpen).2 = none →
        ((worker.pursue gateOpen).1.urgentAction? gateOpen).bind
          (worker.pursue gateOpen).1.step = none) :=
  ⟨follow_answers _ _ worker,
    follow_ends (urges_urgentAction? gateOpen) worker.effort_le_stepBound⟩

/-- A call that is not answered waits: the policy has no step left. -/
theorem conclude_waits
    {gateOpen : Bool}
    (patient : worker.isRushed = false)
    (silent : (worker.conclude gateOpen).2 = none) :
    ((worker.conclude gateOpen).1.usualAction? gateOpen).bind
      (worker.conclude gateOpen).1.step = none := by
  rw [conclude, patient] at silent ⊢
  exact follow_ends (urges_usualAction? gateOpen) worker.effort_le_stepBound silent

/-- The answer that is given in the end is that of a schedule. -/
theorem conclude_answers (gateOpen : Bool) (worker : Worker) :
    Answers worker (worker.conclude gateOpen) := by
  unfold conclude
  split
  · obtain ⟨events, leads⟩ := settleIfHeld_leadsTo gateOpen
      (worker.follow (rushedAction? gateOpen) worker.stepBound).1
    exact (follow_answers (rushedAction? gateOpen) worker.stepBound worker).trans leads
  · exact follow_answers (usualAction? gateOpen) worker.stepBound worker

/-- A call begins by steps of a schedule, and may be refused at once. -/
theorem beginCall_answers (worker : Worker) (batch : Batch) :
    Answers worker (worker.beginCall batch) := by
  unfold beginCall
  split
  · rename_i taken
    exact .of_answered taken
  · rename_i next event? _ taken
    exact ⟨_, .single taken, nofun⟩
  · exact ⟨[], .refl worker, nofun⟩

/-- A submission is a schedule in which a call returns with the reply. -/
theorem submit_answers (gateOpen : Bool) (worker : Worker) (batch : Batch) :
    Answers worker (worker.submit gateOpen batch) := by
  have begins := worker.beginCall_answers batch
  unfold submit
  split
  · rename_i begun
    rwa [begun] at begins
  · rename_i next begun
    rw [begun] at begins
    obtain ⟨events, first, -⟩ := begins
    exact first.answers (next.conclude_answers gateOpen)

/-! ## Stopping -/

theorem step_close_of_stopping (stopping : worker.tenure = .stopping) :
    ∃ next, worker.step .close = some ⟨next, none⟩ ∧ next.tenure = .draining := by
  simp [step, stepClose, stopping, silently]

/-- Once the mailbox is closed, the owner sees the thread exit or stops waiting. -/
theorem step_of_draining (draining : worker.tenure = .draining) :
    worker.step (if worker.isGone then .join else .abandon) =
      some ⟨{ worker with tenure := .closed }, some (.terminated worker.isGone)⟩ := by
  cases gone : worker.isGone with
  | true => simp [step, stepJoin, draining, gone, seen]
  | false => simp [step, stepAbandon, draining, seen]

/-- To stop a worker between calls is a schedule that closes it, and whose last event tells
whether its thread has exited. -/
theorem stop_terminates
    (gateOpen : Bool)
    (free : worker.call = .none)
    (held : worker.tenure = .serving ∨ worker.tenure = .closed) :
    (worker.stop gateOpen).1.tenure = .closed ∧
      ∃ events, LeadsTo worker (worker.stop gateOpen).1
        (events ++ [.terminated (worker.stop gateOpen).2]) := by
  rcases held with serving | closed
  · have begins : worker.step .terminate =
        some ⟨{ worker with tenure := .stopping }, none⟩ := by
      simp [step, stepTerminate, free, serving, silently]
    obtain ⟨next, closes, draining⟩ :=
      step_close_of_stopping (rfl : { worker with tenure := .stopping }.tenure = .stopping)
    obtain ⟨events, settles⟩ := (next.settle_waits gateOpen).1
    have still : (next.settle gateOpen).tenure = .draining :=
      (follow_threadAction? gateOpen next.stepBound next).2.trans draining
    have ends := step_of_draining still
    have stopped : worker.stop gateOpen =
        ({ next.settle gateOpen with tenure := .closed }, (next.settle gateOpen).isGone) := by
      simp only [stop, begins, closes, ends]
    rw [stopped]
    exact ⟨rfl, events, .cons begins (.cons closes (settles.trans (.single ends)))⟩
  · have again : worker.step .terminate = some ⟨worker, some (.terminated true)⟩ := by
      simp [step, stepTerminate, free, closed, seen]
    have stopped : worker.stop gateOpen = (worker, true) := by
      simp only [stop, again]
    rw [stopped]
    exact ⟨closed, [], .single again⟩

end Worker
end StagePipeline
