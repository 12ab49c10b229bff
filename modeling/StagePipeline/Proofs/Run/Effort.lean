import StagePipeline.Proofs.Run.Moves

/-!
# Every schedule ends

The effort of a run bounds the steps that it has ahead of it, whatever the order in
which they are taken: every step lowers it.  No run goes on for ever.
-/

namespace StagePipeline

/-! ## The effort of a worker -/

namespace Worker

/-- The steps that a thread has ahead of it, with its reply in the slot as one more. -/
def Phase.effort : Phase → Nat
  | .receiving => 2
  | .holding _ => 8
  | .admitted _ _ => 7
  | .applying _ _ => 6
  | .finished _ _ => 5
  | .replying _ _ => 4
  | .leaving => 1
  | .exited => 0
  | .dead => 0

theorem Phase.effort_le (phase : Phase) : phase.effort ≤ 8 := by
  cases phase <;> simp [Phase.effort]

/-- The steps that a call has ahead of it, with those of its command. -/
def Call.effort : Call → Nat
  | .none => 0
  | .claimed _ => 10
  | .sending _ _ => 9
  | .awaiting _ _ => 1

/-- The steps that the owner has ahead of it, with those of its last command. -/
def Tenure.effort : Tenure → Nat
  | .serving => 11
  | .stopping => 10
  | .draining => 2
  | .closed => 1
  | .released => 0

/-- A bound on the steps of thread, caller and owner together. -/
def effort (worker : Worker) : Nat :=
  7 * worker.mailbox.length + worker.slot.toList.length + worker.phase.effort +
    worker.call.effort + worker.tenure.effort

variable {worker : Worker} {action : Action} {transition : Transition}

/-- Every step of the thread lowers the effort. -/
theorem ThreadMove.effort_lt (move : ThreadMove worker action transition) :
    transition.next.effort < worker.effort := by
  cases move with
  | receive known waiting =>
      simp only [effort, Phase.effort, known, waiting, List.length_cons]
      omega
  | deliver known _ empty =>
      simp only [effort, Phase.effort, known, empty, Option.toList_some, Option.toList_none,
        List.length_singleton, List.length_nil]
      omega
  | hangUp known | accept known | heed known | begin known | finish known | rest known
  | giveUp known =>
      simp only [effort, Phase.effort, known]
      omega
  | die known | exit known =>
      simp only [effort, Phase.effort, known, List.length_nil]
      omega

/-- Every step of a call lowers the effort, once it is in progress. -/
theorem CallerMove.effort_lt
    (move : CallerMove worker action transition)
    (inProgress : Run.isCallerAction action = true) :
    transition.next.effort < worker.effort := by
  cases move with
  | claim => cases inProgress
  | refuse => cases inProgress
  | enqueue sending present room =>
      simp only [effort, sending, Call.effort, List.length_append, List.length_singleton]
      omega
  | takeReply awaiting filled =>
      simp only [effort, awaiting, filled, Call.effort, Option.toList_some, Option.toList_none,
        List.length_singleton, List.length_nil]
      omega
  | dropReply _ filled => simp [effort, filled]
  | handOver sending _ receiving => simp [effort, Phase.effort, Call.effort, sending, receiving]
  | number known | findBusy known | findStopped known | findClosed known | expire known
  | disconnect known => simp [effort, Call.effort, known]

/-- The owner comes nearer to its end, unless it terminates a worker for another time. -/
theorem OwnerMove.spent (move : OwnerMove worker action transition) :
    transition.next.effort < worker.effort ∨
      transition.next = worker ∧ transition.event? = some (.terminated true) := by
  cases move with
  | terminateAgain => exact Or.inr ⟨rfl, rfl⟩
  | closeWithHandOver known _ receiving =>
      refine Or.inl ?_
      simp only [effort, Phase.effort, Tenure.effort, known, receiving]
      omega
  | closeWithCommand known =>
      refine Or.inl ?_
      simp only [effort, Tenure.effort, known, List.length_append, List.length_singleton]
      omega
  | terminate _ known | close known | join known | abandon known =>
      refine Or.inl ?_
      simp only [effort, Tenure.effort, known]
      omega
  | release _ known =>
      refine Or.inl ?_
      simp only [effort, Tenure.effort, known, Option.toList_none, List.length_nil]
      omega

/-- No step of the owner raises the effort. -/
theorem OwnerMove.effort_le (move : OwnerMove worker action transition) :
    transition.next.effort ≤ worker.effort := by
  rcases move.spent with spent | ⟨unchanged, -⟩
  · exact Nat.le_of_lt spent
  · exact Nat.le_of_eq (congrArg effort unchanged)

/-- A step of the owner that is not seen lowers the effort. -/
theorem OwnerMove.effort_lt
    (move : OwnerMove worker action transition)
    (unseen : transition.event? = none) :
    transition.next.effort < worker.effort := by
  rcases move.spent with spent | ⟨-, seen⟩
  · exact spent
  · rw [unseen] at seen
    cases seen

end Worker

/-! ## The effort of a run -/

namespace Run

/-- The steps of the coordinator for batches that wait, and those to end the run. -/
def routingEffort (stages waiting : Nat) : Nat :=
  waiting * (11 * stages + 1) + (2 * stages + 3)

/-- To end a run costs less than to go on. -/
theorem stopping_lt_routingEffort (stages waiting : Nat) :
    2 * stages + 2 < routingEffort stages waiting := by
  unfold routingEffort
  omega

/-- The steps that the coordinator has ahead of it.  A hop costs eleven, as it makes a
call of effort ten. -/
def Control.effort (stages waiting : Nat) : Control → Nat
  | .ready => routingEffort stages waiting
  | .hop _ ordinal _ => 11 * (stages - 1 - ordinal) + routingEffort stages waiting
  | .stopping _ ordinal => (stages - ordinal) + stages + 2
  | .releasing _ ordinal => (stages - ordinal) + 1
  | .over _ => 0

/-- The effort of all workers. -/
def workersEffort : List Worker → Nat
  | [] => 0
  | worker :: rest => worker.effort + workersEffort rest

/-- A bound on the steps that are ahead of a run. -/
def effort (run : Run) : Nat :=
  workersEffort run.workers + run.control.effort run.workers.length run.waiting.length

/-- The effort of all workers changes with that of one of them. -/
theorem workersEffort_set
    {workers : List Worker}
    {ordinal : Nat}
    {worker : Worker}
    (found : workers[ordinal]? = some worker)
    (next : Worker) :
    workersEffort (workers.set ordinal next) + worker.effort =
      workersEffort workers + next.effort := by
  induction workers generalizing ordinal with
  | nil => cases found
  | cons first rest inductionHypothesis =>
      cases ordinal with
      | zero =>
          cases found
          simp only [workersEffort, List.set_cons_zero]
          omega
      | succ ordinal =>
          have behind : rest[ordinal]? = some worker := by simpa using found
          have tail := inductionHypothesis behind
          simp only [workersEffort, List.set_cons_succ]
          omega

@[simp] theorem conclude_effort (run : Run) (ending : Ending) :
    (run.conclude ending).effort = workersEffort run.workers + (2 * run.workers.length + 2) := by
  simp only [effort, conclude, Control.effort]
  omega

theorem completeBatch_effort_le (run : Run) (index : Nat) (summary : Summary) :
    (run.completeBatch index summary).effort ≤
      workersEffort run.workers + routingEffort run.workers.length run.waiting.length := by
  have stopping_lt := stopping_lt_routingEffort run.workers.length run.waiting.length
  unfold completeBatch
  split
  · exact Nat.le_refl _
  · simp only
    split
    · rw [conclude_effort]
      exact Nat.add_le_add_left (Nat.le_of_lt stopping_lt) _
    · exact Nat.le_refl _

/-- To send a batch to a stage costs less than a hop. -/
theorem Entry.effort_lt
    {run next : Run}
    {index ordinal : Nat}
    {batch : Batch}
    (entry : Entry run index ordinal batch next) :
    next.effort < workersEffort run.workers + 11 * (run.workers.length - ordinal) +
      routingEffort run.workers.length run.waiting.length := by
  have stopping_lt := stopping_lt_routingEffort run.workers.length run.waiting.length
  cases entry with
  | nowhere absent =>
      rw [conclude_effort]
      omega
  | @claim worker found accepts free =>
      have inside : ordinal < run.workers.length := (List.getElem?_eq_some_iff.mp found).1
      have replaced := workersEffort_set found { worker with call := .claimed batch }
      have claimed :
          { worker with call := .claimed batch }.effort = worker.effort + 10 := by
        simp only [Worker.effort, free, Worker.Call.effort]
        omega
      simp only [effort, Control.effort, List.length_set]
      omega
  | refuse found claimed =>
      rw [conclude_effort]
      omega

/-- A hop that returns costs no more than what its call has saved. -/
theorem Arrival.effort_le
    {run next : Run}
    {worker : Worker}
    {index ordinal recordsIn : Nat}
    {reply : Reply}
    (arrival : Arrival run worker index ordinal recordsIn reply next) :
    next.effort ≤ workersEffort run.workers + 11 * (run.workers.length - 1 - ordinal) +
      routingEffort run.workers.length run.waiting.length := by
  have stopping_lt := stopping_lt_routingEffort run.workers.length run.waiting.length
  cases arrival with
  | fault =>
      rw [conclude_effort]
      omega
  | next routed entry =>
      have entered := entry.effort_lt
      simp only [countHop] at entered
      omega
  | @finished output summary routed =>
      have completed := completeBatch_effort_le
        (run.countHop ordinal recordsIn output.recordCount) index summary
      simp only [countHop] at completed ⊢
      omega
  | refused routed =>
      simp only [failAt, conclude_effort, countHop]
      omega

/-- Every step lowers the effort. -/
theorem Move.effort_lt
    {run : Run}
    {action : Action}
    {transition : Transition}
    (move : Move run action transition) :
    transition.next.effort < run.effort := by
  cases move with
  | @thread ordinal action worker transition found move =>
      have replaced := workersEffort_set found transition.next
      have lowered := move.effort_lt
      simp only [effort, List.length_set]
      omega
  | complete ready exhausted =>
      rw [conclude_effort]
      simp only [effort, ready, Control.effort, routingEffort]
      omega
  | @take batch rest next ready waiting entry =>
      have entered := entry.effort_lt
      simp only [effort, ready, waiting, Control.effort, routingEffort, List.length_cons,
        Nat.add_mul, Nat.sub_zero] at entered ⊢
      omega
  | @call index ordinal recordsIn action worker transition hopping found ofCaller move =>
      have replaced := workersEffort_set found transition.next
      have lowered := move.effort_lt ofCaller
      simp only [effort, List.length_set]
      omega
  | @arrive index ordinal recordsIn action worker next batch reply arrived hopping found
      ofCaller move arrival =>
      have replaced := workersEffort_set found next
      have lowered := move.effort_lt ofCaller
      have arrived_le := arrival.effort_le
      simp only [effort, hopping, Control.effort, List.length_set] at lowered arrived_le ⊢
      omega
  | @stop ending ordinal action worker next stopping found stops move =>
      have replaced := workersEffort_set found next
      have lowered : next.effort < worker.effort := move.effort_lt rfl
      simp only [effort, List.length_set]
      omega
  | @stopped ending ordinal action worker next event stopping found stops move =>
      have inside : ordinal < run.workers.length := (List.getElem?_eq_some_iff.mp found).1
      have replaced := workersEffort_set found next
      have lowered := move.effort_le
      simp only [effort, stopping, Control.effort, List.length_set] at lowered ⊢
      omega
  | stoppedAll stopping absent =>
      simp only [effort, stopping, Control.effort]
      omega
  | @release ending ordinal action worker releasing found free closed =>
      have inside : ordinal < run.workers.length := (List.getElem?_eq_some_iff.mp found).1
      have replaced := workersEffort_set found { worker with tenure := .released, slot := none }
      have lowered := (Worker.OwnerMove.release free closed).effort_lt rfl
      simp only [effort, releasing, Control.effort, List.length_set] at lowered ⊢
      omega
  | releasedAll releasing absent =>
      simp only [effort, releasing, Control.effort]
      omega

/-- A schedule is no longer than the effort that it has used up. -/
theorem length_add_effort_le
    {run reached : Run}
    {schedule : List Action}
    {events : List Event}
    (executed : run.execute? schedule = some (reached, events)) :
    schedule.length + reached.effort ≤ run.effort := by
  induction schedule generalizing run events with
  | nil =>
      cases executed
      simp
  | cons action rest inductionHypothesis =>
      obtain ⟨transition, later, taken, continued, rfl⟩ := execute?_cons_eq_some executed
      have lowered := (Move.of_step taken).effort_lt
      have followed := inductionHypothesis continued
      rw [List.length_cons]
      omega

end Run
end StagePipeline
