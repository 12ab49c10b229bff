import StagePipeline.Proofs.Worker.Moves

/-!
# Jobs, replies and receipts

A job is a sequence number and the batch that goes with it.  A call owns at most
one job; the job waits to be begun, is begun, and is answered, and a reply bears
the number of its job.  When a call returns it leaves a receipt.  This module says
what a single step does to the jobs, the replies and the receipts of a worker.
-/

namespace StagePipeline

/-- Whether a reply comes from the stage: an output, or a fault of the stage. -/
def Reply.isOfStage : Reply → Bool
  | .ok _ => true
  | .error (.parseFailed ..) => true
  | .error (.stageFailed ..) => true
  | .error _ => false

/-- What a stage replies is told apart from what a worker replies by itself. -/
theorem Reply.isOfStage_of_reply?
    {stage : Stage}
    {now : Timestamp}
    {batch : Batch}
    {reply : Reply}
    (replied : stage.reply? now batch = some reply) :
    reply.isOfStage = true := by
  unfold Stage.reply? at replied
  split at replied
  · cases replied
    rfl
  · rename_i failure _
    cases replied
    cases failure <;> rfl
  · cases replied
    rfl
  · cases replied

/-- Only a stage that takes its thread down leaves a call without a reply. -/
theorem Stage.apply_of_reply?_eq_none
    {stage : Stage}
    {now : Timestamp}
    {batch : Batch}
    (silent : stage.reply? now batch = none) :
    stage.apply now batch = .death := by
  unfold Stage.reply? at silent
  split at silent
  · cases silent
  · cases silent
  · cases silent
  · assumption

namespace Worker

/-- A sequence number and the batch that goes with it. -/
abbrev Job := UInt64 × Batch

/-- The job of a command. -/
def Command.job? : Command → Option Job
  | .process number batch => some (number, batch)
  | .shutdown => none

/-- The job that the thread has in hand and has not begun. -/
def Phase.job? : Phase → Option Job
  | .holding command => command.job?
  | .admitted number batch => some (number, batch)
  | _ => none

/-- The job of a call, once it has taken a number. -/
def Call.job? : Call → Option Job
  | .none => Option.none
  | .claimed _ => Option.none
  | .sending number batch => some (number, batch)
  | .awaiting number batch => some (number, batch)

/-- The job of a call that has not put it into the mailbox. -/
def Call.unsent? : Call → Option Job
  | .sending number batch => some (number, batch)
  | _ => Option.none

/-- The job whose begin an event tells. -/
def Event.job? : Event → Option Job
  | .began number batch => some (number, batch)
  | _ => none

/-- The jobs that have been sent and not begun, in the order in which they will be. -/
def waitingJobs (worker : Worker) : List Job :=
  worker.phase.job?.toList ++ worker.mailbox.filterMap Command.job?

/-- The jobs that have not been begun. -/
def jobs (worker : Worker) : List Job :=
  worker.waitingJobs ++ worker.call.unsent?.toList

/-- The replies that have not been collected. -/
def replies (worker : Worker) : List (UInt64 × Reply) :=
  worker.slot.toList ++
    match worker.phase with
    | .finished number reply => [(number, reply)]
    | .replying number reply => [(number, reply)]
    | _ => []

theorem mem_replies_of_slot
    {worker : Worker}
    {number : UInt64}
    {reply : Reply}
    (filled : worker.slot = some (number, reply)) :
    (number, reply) ∈ worker.replies := by
  rw [replies, filled]
  exact List.mem_cons_self

theorem filterMap_toList {α β : Type} (f : α → Option β) (option : Option α) :
    option.toList.filterMap f = (option.bind f).toList := by
  cases option with
  | none => rfl
  | some value => cases image : f value <;> simp [image]

/-- The jobs that have been begun, in order. -/
def begun (events : List Event) : List Job :=
  events.filterMap Event.job?

/-! ## Receipts -/

/-- How a call has returned: its batch, the sequence number that it took, if it took
one, and its answer. -/
structure Receipt where
  batch : Batch
  number? : Option UInt64
  reply : Reply

namespace Receipt

/-- The job of a call that has returned. -/
def job? (receipt : Receipt) : Option Job :=
  receipt.number?.map fun number => (number, receipt.batch)

/-- The event that a return is. -/
def event (receipt : Receipt) : Event :=
  .answered receipt.batch receipt.reply

end Receipt

/-- Whether an action is a new call. -/
def Action.isSubmit : Action → Bool
  | .submit _ => true
  | _ => false

/-- The receipt of the call that an action lets return.  A new call that returns at
once has taken no number; any other return is that of the call in progress. -/
def receipt? (worker : Worker) (action : Action) : Option Event → Option Receipt
  | some (.answered batch reply) =>
      some ⟨batch, if action.isSubmit then none else worker.call.job?.map Prod.fst, reply⟩
  | _ => none

/-- The receipts of all calls that return under a schedule, in order. -/
def receipts (worker : Worker) : List Action → List Receipt
  | [] => []
  | action :: rest =>
      match worker.step action with
      | none => []
      | some transition =>
          (worker.receipt? action transition.event?).toList ++ transition.next.receipts rest

/-- Whether an event is the return of a call. -/
def Event.isAnswer : Event → Bool
  | .answered _ _ => true
  | _ => false

/-- The receipt of a step shows the answer that the step tells. -/
theorem receipt?_event
    (worker : Worker)
    (action : Action)
    (event? : Option Event) :
    (worker.receipt? action event?).toList.map Receipt.event =
      event?.toList.filter Event.isAnswer := by
  cases event? with
  | none => rfl
  | some event => cases event <;> rfl

/-- Every return of a call has its receipt. -/
theorem receipts_event
    {worker reached : Worker}
    {schedule : List Action}
    {events : List Event}
    (executed : worker.execute? schedule = some (reached, events)) :
    (worker.receipts schedule).map Receipt.event = events.filter Event.isAnswer := by
  induction schedule generalizing worker events with
  | nil =>
      cases executed
      rfl
  | cons action rest inductionHypothesis =>
      obtain ⟨transition, later, taken, continued, rfl⟩ := execute?_cons_eq_some executed
      simp only [receipts, taken, List.map_append, List.filter_append, receipt?_event,
        inductionHypothesis continued]

/-! ## Jobs and replies under a step -/

section Steps

variable {worker : Worker} {action : Action} {transition : Transition}

/-- What a worker is, as opposed to what it does, never changes. -/
theorem Move.fixed (move : Move worker action transition) :
    transition.next.stage = worker.stage ∧ transition.next.clock = worker.clock ∧
      transition.next.ordinal = worker.ordinal ∧
      transition.next.capacity = worker.capacity ∧ transition.next.limit? = worker.limit? := by
  rcases move with move | move | move <;> cases move <;> simp

/-- No step changes how much the mailbox holds. -/
theorem Move.capacity_eq (move : Move worker action transition) :
    transition.next.capacity = worker.capacity :=
  move.fixed.2.2.2.1

/-- A worker whose mailbox has no room keeps no commands in it. -/
def Roomless (worker : Worker) : Prop :=
  worker.capacity = 0 → worker.mailbox = []

/-- A mailbox without room stays empty. -/
theorem Move.roomless
    (move : Move worker action transition)
    (roomless : worker.Roomless) :
    transition.next.Roomless := by
  rcases move with move | move | move
  · cases move with
    | enqueue sending present room =>
        intro noRoom
        have noRoom : worker.capacity = 0 := noRoom
        omega
    | _ => exact roomless
  · cases move with
    | receive receiving waiting =>
        intro noRoom
        have empty := roomless noRoom
        rw [waiting] at empty
        cases empty
    | die => exact fun _ => rfl
    | exit => exact fun _ => rfl
    | _ => exact roomless
  · cases move with
    | closeWithCommand stopping present room =>
        intro noRoom
        have noRoom : worker.capacity = 0 := noRoom
        omega
    | _ => exact roomless

/-- The thread begins the first job that waits, passes jobs on, or loses them. -/
theorem ThreadMove.waitingJobs_sublist (move : ThreadMove worker action transition) :
    List.Sublist
      ((transition.event?.bind Event.job?).toList ++ transition.next.waitingJobs)
      worker.waitingJobs := by
  cases move with
  | @receive command rest receiving waiting =>
      cases command <;>
        simp [waitingJobs, Command.job?, Phase.job?, receiving, waiting, List.filterMap_cons]
  | accept holding => simp [waitingJobs, Command.job?, Phase.job?, holding]
  | heed holding => simp [waitingJobs, Phase.job?, holding]
  | begin admitted => simp [waitingJobs, Event.job?, Phase.job?, admitted]
  | hangUp known | finish known | rest known | deliver known | giveUp known =>
      simp [waitingJobs, Phase.job?, known]
  | die | exit => simp [waitingJobs, Phase.job?]

/-- The owner leaves the jobs that wait alone. -/
theorem OwnerMove.waitingJobs_eq (move : OwnerMove worker action transition) :
    transition.next.waitingJobs = worker.waitingJobs := by
  cases move with
  | closeWithHandOver _ _ receiving => simp [waitingJobs, Command.job?, Phase.job?, receiving]
  | closeWithCommand => simp [waitingJobs, Command.job?]
  | terminate | terminateAgain | close | join | abandon | release => rfl

theorem ThreadMove.call_eq (move : ThreadMove worker action transition) :
    transition.next.call = worker.call := by
  cases move <;> rfl

theorem OwnerMove.call_eq (move : OwnerMove worker action transition) :
    transition.next.call = worker.call := by
  cases move <;> rfl

/-- Only a step of a caller lets a call return. -/
theorem ThreadMove.receipt?_eq_none (move : ThreadMove worker action transition) :
    worker.receipt? action transition.event? = none := by
  cases move <;> rfl

theorem OwnerMove.receipt?_eq_none (move : OwnerMove worker action transition) :
    worker.receipt? action transition.event? = none := by
  cases move <;> rfl

theorem CallerMove.tenure_eq (move : CallerMove worker action transition) :
    transition.next.tenure = worker.tenure := by
  cases move <;> rfl

theorem ThreadMove.tenure_eq (move : ThreadMove worker action transition) :
    transition.next.tenure = worker.tenure := by
  cases move <;> rfl

/-- The owner begins no job. -/
theorem OwnerMove.unbegun (move : OwnerMove worker action transition) :
    transition.event?.bind Event.job? = none := by
  cases move <;> rfl

/-- No step but that of taking a number makes a job.  The others begin the first
job, pass jobs on, or lose them. -/
theorem Move.jobs_sublist
    (move : Move worker action transition)
    (roomless : worker.Roomless)
    (unnumbered : transition.next.next = worker.next) :
    List.Sublist
      ((transition.event?.bind Event.job?).toList ++ transition.next.jobs) worker.jobs := by
  rcases move with move | move | move
  · cases move with
    | number claimed => simp at unnumbered
    | handOver sending noRoom receiving =>
        simp [jobs, waitingJobs, Command.job?, Phase.job?, Call.unsent?, sending, receiving,
          roomless noRoom]
    | enqueue sending => simp [jobs, waitingJobs, Command.job?, Call.unsent?, sending]
    | refuse | dropReply => simp [jobs, waitingJobs, Event.job?]
    | claim _ known | findBusy known | findStopped known | findClosed known | takeReply known
    | expire known | disconnect known =>
        simp [jobs, waitingJobs, Event.job?, Call.unsent?, known]
  · rw [jobs, jobs, move.call_eq, ← List.append_assoc]
    exact move.waitingJobs_sublist.append_right _
  · rw [jobs, jobs, move.call_eq, move.waitingJobs_eq, move.unbegun]
    exact List.Sublist.refl _

/-- No step but that of taking a number changes whose jobs there are.  When a call
returns, its job is that of its receipt. -/
theorem Move.owner_eq
    (move : Move worker action transition)
    (unnumbered : transition.next.next = worker.next) :
    ((worker.receipt? action transition.event?).bind Receipt.job?).toList ++
      transition.next.call.job?.toList = worker.call.job?.toList := by
  rcases move with move | move | move
  · cases move with
    | number claimed => simp at unnumbered
    | refuse | dropReply => simp [receipt?, Receipt.job?, Action.isSubmit]
    | claim _ known | findBusy known | findStopped known | findClosed known | handOver known
    | enqueue known | takeReply known | expire known | disconnect known =>
        simp [receipt?, Receipt.job?, Call.job?, Action.isSubmit, known]
  · cases move <;> simp [receipt?]
  · cases move <;> simp [receipt?]

/-- A reply is made when the stage ends, and is passed on or lost by all other steps. -/
theorem Move.replies
    (move : Move worker action transition)
    {number : UInt64}
    {reply : Reply}
    (present : (number, reply) ∈ transition.next.replies) :
    (number, reply) ∈ worker.replies ∨
      ∃ batch, worker.phase = .applying number batch ∧
        worker.stage.reply? (worker.clock number) batch = some reply := by
  rcases move with move | move | move
  · cases move with
    | handOver _ _ receiving => exact Or.inl (by simpa [Worker.replies, receiving] using present)
    | takeReply | dropReply =>
        refine Or.inl ?_
        simp only [Worker.replies, Option.toList_none, List.nil_append] at present
        exact List.mem_append_right _ present
    | claim | refuse | number | findBusy | findStopped | findClosed | enqueue | expire
    | disconnect => exact Or.inl present
  · cases move with
    | finish applying replied =>
        simp only [Worker.replies, List.mem_append, List.mem_singleton, Prod.mk.injEq] at present
        rcases present with inSlot | ⟨rfl, rfl⟩
        · exact Or.inl (List.mem_append_left _ inSlot)
        · exact Or.inr ⟨_, applying, replied⟩
    | rest finished => exact Or.inl (by simpa [Worker.replies, finished] using present)
    | deliver replying =>
        refine Or.inl (List.mem_append_right _ ?_)
        simpa [Worker.replies, replying] using present
    | receive known | hangUp known | accept known | heed known | begin known | die known
    | giveUp known | exit known =>
        refine Or.inl (List.mem_append_left _ ?_)
        simpa [Worker.replies] using present
  · cases move with
    | closeWithHandOver _ _ receiving =>
        exact Or.inl (by simpa [Worker.replies, receiving] using present)
    | release =>
        refine Or.inl ?_
        simp only [Worker.replies, Option.toList_none, List.nil_append] at present
        exact List.mem_append_right _ present
    | terminate | terminateAgain | close | closeWithCommand | join | abandon =>
        exact Or.inl present

/-- The thread applies its stage from the step on that tells so. -/
theorem Move.applying
    (move : Move worker action transition)
    {number : UInt64}
    {batch : Batch}
    (applying : transition.next.phase = .applying number batch) :
    worker.phase = .applying number batch ∨ transition.event? = some (.began number batch) := by
  rcases move with move | move | move
  · cases move with
    | handOver => cases applying
    | claim | refuse | number | findBusy | findStopped | findClosed | enqueue | takeReply
    | dropReply | expire | disconnect => exact Or.inl applying
  · cases move with
    | begin =>
        cases applying
        exact Or.inr rfl
    | receive | hangUp | accept | heed | finish | die | rest | deliver | giveUp | exit =>
        cases applying
  · cases move with
    | closeWithHandOver => cases applying
    | terminate | terminateAgain | close | closeWithCommand | join | abandon | release =>
        exact Or.inl applying

/-- The one step that moves the next number on. -/
theorem Move.of_next_ne
    (move : Move worker action transition)
    (numbered : transition.next.next ≠ worker.next) :
    ∃ batch, worker.call = .claimed batch ∧ action = .inspect ∧
      transition = ⟨{ worker with
        call := .sending worker.next batch
        next := worker.next + 1 }, none⟩ := by
  rcases move with move | move | move
  · cases move with
    | number claimed => exact ⟨_, claimed, rfl, rfl⟩
    | _ => exact absurd rfl numbered
  · cases move <;> exact absurd rfl numbered
  · cases move <;> exact absurd rfl numbered

/-- How many numbers the call in progress has yet to take. -/
def Call.unnumbered : Call → Nat
  | .claimed _ => 1
  | _ => 0

/-- How many calls an action makes. -/
def Action.calls (action : Action) : Nat :=
  if action.isSubmit then 1 else 0

theorem countP_isSubmit_cons (action : Action) (rest : List Action) :
    (action :: rest).countP Action.isSubmit = action.calls + rest.countP Action.isSubmit := by
  rw [List.countP_cons, Nat.add_comm, Action.calls]

/-- Only a new call has a number to take. -/
theorem Move.unnumbered_le
    (move : Move worker action transition)
    (unnumbered : transition.next.next = worker.next) :
    transition.next.call.unnumbered ≤ worker.call.unnumbered + action.calls := by
  rcases move with move | move | move
  · cases move with
    | number claimed => simp at unnumbered
    | claim | refuse => simp [Call.unnumbered, Action.calls, Action.isSubmit]
    | findBusy | findStopped | findClosed | handOver | enqueue | takeReply | expire
    | disconnect => exact Nat.zero_le _
    | dropReply => exact Nat.le_add_right _ _
  · cases move <;> simp [Action.calls, Action.isSubmit]
  · cases move <;> simp [Action.calls, Action.isSubmit]

end Steps

end Worker
end StagePipeline
