import StagePipeline.Worker

/-!
# The rules of a worker

`Worker.step` is a function with many branches.  Here every branch that leads
somewhere is a rule of its own, with the conditions under which it applies: rules
of the callers, of the thread and of the owner.  A property of all steps is then
proved rule by rule.
-/

namespace StagePipeline
namespace Worker

/-- The steps of the callers. -/
inductive CallerMove (worker : Worker) : Action → Transition → Prop where
  | claim {batch : Batch} :
      worker.acceptsCalls = true → worker.call = .none →
      CallerMove worker (.submit batch) ⟨{ worker with call := .claimed batch }, none⟩
  | refuse {batch : Batch} :
      worker.acceptsCalls = true → worker.call ≠ .none →
      CallerMove worker (.submit batch) ⟨worker, some (.answered batch (.error worker.stillBusy))⟩
  | number {batch : Batch} :
      worker.call = .claimed batch → worker.tenure = .serving → worker.mark = .idle →
      CallerMove worker .inspect
        ⟨{ worker with call := .sending worker.next batch, next := worker.next + 1 }, none⟩
  | findBusy {batch : Batch} :
      worker.call = .claimed batch → worker.tenure = .serving → worker.mark = .busy →
      CallerMove worker .inspect
        ⟨{ worker with call := .none }, some (.answered batch (.error worker.stillBusy))⟩
  | findStopped {batch : Batch} :
      worker.call = .claimed batch → worker.tenure ≠ .serving ∨ worker.mark = .terminated →
      CallerMove worker .inspect
        ⟨{ worker with call := .none }, some (.answered batch (.error worker.stopped))⟩
  | findClosed {number : UInt64} {batch : Batch} :
      worker.call = .sending number batch → worker.isGone = true →
      CallerMove worker .send
        ⟨{ worker with call := .none }, some (.answered batch (.error worker.mailboxClosed))⟩
  | handOver {number : UInt64} {batch : Batch} :
      worker.call = .sending number batch → worker.capacity = 0 → worker.phase = .receiving →
      CallerMove worker .send
        ⟨{ worker with
            call := .awaiting number batch
            phase := .holding (.process number batch) }, none⟩
  | enqueue {number : UInt64} {batch : Batch} :
      worker.call = .sending number batch → worker.isGone = false →
      worker.mailbox.length < worker.capacity →
      CallerMove worker .send
        ⟨{ worker with
            call := .awaiting number batch
            mailbox := worker.mailbox ++ [.process number batch] }, none⟩
  | takeReply {number : UInt64} {batch : Batch} {reply : Reply} :
      worker.call = .awaiting number batch → worker.slot = some (number, reply) →
      CallerMove worker .collect
        ⟨{ worker with slot := none, call := .none }, some (.answered batch reply)⟩
  | dropReply {number late : UInt64} {batch : Batch} {reply : Reply} :
      worker.call = .awaiting number batch → worker.slot = some (late, reply) → late ≠ number →
      CallerMove worker .collect ⟨{ worker with slot := none }, some (.dropped late)⟩
  | expire {number : UInt64} {batch : Batch} {limit : Duration} :
      worker.call = .awaiting number batch → worker.limit? = some limit → worker.slot = none →
      worker.isGone = false →
      CallerMove worker .expire
        ⟨{ worker with call := .none },
          some (.answered batch (.error (.timedOut worker.name batch.index limit)))⟩
  | disconnect {number : UInt64} {batch : Batch} :
      worker.call = .awaiting number batch → worker.slot = none → worker.isGone = true →
      CallerMove worker .disconnect
        ⟨{ worker with call := .none }, some (.answered batch (.error worker.threadGone))⟩

/-- The steps of the thread. -/
inductive ThreadMove (worker : Worker) : Action → Transition → Prop where
  | receive {command : Command} {rest : List Command} :
      worker.phase = .receiving → worker.mailbox = command :: rest →
      ThreadMove worker .receive
        ⟨{ worker with phase := .holding command, mailbox := rest }, none⟩
  | hangUp :
      worker.phase = .receiving → worker.mailbox = [] → worker.isClosed = true →
      ThreadMove worker .hangUp ⟨{ worker with phase := .leaving }, none⟩
  | accept {number : UInt64} {batch : Batch} :
      worker.phase = .holding (.process number batch) → worker.tenure = .serving →
      ThreadMove worker .check ⟨{ worker with phase := .admitted number batch }, none⟩
  | heed {command : Command} :
      worker.phase = .holding command → worker.tenure ≠ .serving ∨ command = .shutdown →
      ThreadMove worker .check ⟨{ worker with phase := .leaving }, none⟩
  | begin {number : UInt64} {batch : Batch} :
      worker.phase = .admitted number batch →
      ThreadMove worker .begin
        ⟨{ worker with phase := .applying number batch, mark := .busy },
          some (.began number batch)⟩
  | finish {number : UInt64} {batch : Batch} {reply : Reply} :
      worker.phase = .applying number batch →
      worker.stage.reply? (worker.clock number) batch = some reply →
      ThreadMove worker .finish ⟨{ worker with phase := .finished number reply }, none⟩
  | die {number : UInt64} {batch : Batch} :
      worker.phase = .applying number batch →
      worker.stage.reply? (worker.clock number) batch = none →
      ThreadMove worker .finish ⟨{ worker with phase := .dead, mailbox := [] }, none⟩
  | rest {number : UInt64} {reply : Reply} :
      worker.phase = .finished number reply →
      ThreadMove worker .rest
        ⟨{ worker with phase := .replying number reply, mark := .idle }, none⟩
  | deliver {number : UInt64} {reply : Reply} :
      worker.phase = .replying number reply → worker.tenure ≠ .released → worker.slot = none →
      ThreadMove worker .reply
        ⟨{ worker with phase := .receiving, slot := some (number, reply) }, none⟩
  | giveUp {number : UInt64} {reply : Reply} :
      worker.phase = .replying number reply → worker.tenure = .released →
      ThreadMove worker .reply ⟨{ worker with phase := .leaving }, none⟩
  | exit :
      worker.phase = .leaving →
      ThreadMove worker .exit
        ⟨{ worker with phase := .exited, mark := .terminated, mailbox := [] }, none⟩

/-- The steps of the owner. -/
inductive OwnerMove (worker : Worker) : Action → Transition → Prop where
  | terminate :
      worker.call = .none → worker.tenure = .serving →
      OwnerMove worker .terminate ⟨{ worker with tenure := .stopping }, none⟩
  | terminateAgain :
      worker.call = .none → worker.tenure = .closed →
      OwnerMove worker .terminate ⟨worker, some (.terminated true)⟩
  | close :
      worker.tenure = .stopping →
      OwnerMove worker .close ⟨{ worker with tenure := .draining }, none⟩
  | closeWithHandOver :
      worker.tenure = .stopping → worker.capacity = 0 → worker.phase = .receiving →
      OwnerMove worker .close
        ⟨{ worker with tenure := .draining, phase := .holding .shutdown }, none⟩
  | closeWithCommand :
      worker.tenure = .stopping → worker.isGone = false →
      worker.mailbox.length < worker.capacity →
      OwnerMove worker .close
        ⟨{ worker with tenure := .draining, mailbox := worker.mailbox ++ [.shutdown] }, none⟩
  | join :
      worker.tenure = .draining → worker.isGone = true →
      OwnerMove worker .join ⟨{ worker with tenure := .closed }, some (.terminated true)⟩
  | abandon :
      worker.tenure = .draining →
      OwnerMove worker .abandon ⟨{ worker with tenure := .closed }, some (.terminated false)⟩
  | release :
      worker.call = .none → worker.tenure = .closed →
      OwnerMove worker .release ⟨{ worker with tenure := .released, slot := none }, none⟩

/-- A step follows one of the rules. -/
inductive Move (worker : Worker) (action : Action) (transition : Transition) : Prop where
  | caller : CallerMove worker action transition → Move worker action transition
  | thread : ThreadMove worker action transition → Move worker action transition
  | owner : OwnerMove worker action transition → Move worker action transition

/-- A command that has been taken in was put into the hand of a waiting thread, or
into a mailbox with room. -/
theorem offer?_eq_some
    {worker next : Worker}
    {command : Command}
    (offered : worker.offer? command = some next) :
    (worker.capacity = 0 ∧ worker.phase = .receiving ∧
        next = { worker with phase := .holding command }) ∨
      (worker.mailbox.length < worker.capacity ∧
        next = { worker with mailbox := worker.mailbox ++ [command] }) := by
  unfold offer? at offered
  split at offered
  · rename_i roomless
    split at offered
    · rename_i waits
      exact Or.inl ⟨roomless, waits, (Option.some.inj offered).symm⟩
    · cases offered
  · split at offered
    · rename_i room
      exact Or.inr ⟨room, (Option.some.inj offered).symm⟩
    · cases offered

/-- A call that is made follows one of two rules: it claims the worker or is refused. -/
theorem CallerMove.of_stepSubmit
    {worker : Worker}
    {batch : Batch}
    {transition : Transition}
    (taken : worker.stepSubmit batch = some transition) :
    CallerMove worker (.submit batch) transition := by
  unfold stepSubmit at taken
  split at taken
  · rename_i accepts
    split at taken
    · rename_i free
      cases taken
      exact .claim accepts free
    · rename_i claimed
      cases taken
      exact .refuse accepts claimed
  · cases taken

/-- A call that looks at the mark follows one of three rules. -/
theorem CallerMove.of_stepInspect
    {worker : Worker}
    {transition : Transition}
    (taken : worker.stepInspect = some transition) :
    CallerMove worker .inspect transition := by
  unfold stepInspect at taken
  split at taken
  · rename_i batch claimed
    split at taken
    · rename_i serving
      split at taken
      · rename_i idle
        cases taken
        exact .number claimed serving idle
      · rename_i busy
        cases taken
        exact .findBusy claimed serving busy
      · rename_i terminated
        cases taken
        exact .findStopped claimed (Or.inr terminated)
    · rename_i stopped
      cases taken
      exact .findStopped claimed (Or.inl stopped)
  · cases taken

/-- A command is handed over, put into the mailbox, or finds it closed. -/
theorem CallerMove.of_stepSend
    {worker : Worker}
    {transition : Transition}
    (taken : worker.stepSend = some transition) :
    CallerMove worker .send transition := by
  unfold stepSend at taken
  split at taken
  · rename_i number batch sending
    split at taken
    · rename_i gone
      cases taken
      exact .findClosed sending gone
    · rename_i present
      split at taken
      · rename_i next offered
        cases taken
        rcases offer?_eq_some offered with ⟨roomless, waits, rfl⟩ | ⟨room, rfl⟩
        · exact .handOver sending roomless waits
        · exact .enqueue sending (by simpa using present) room
      · cases taken
  · cases taken

/-- A reply is collected by its own call or dropped by another one. -/
theorem CallerMove.of_stepCollect
    {worker : Worker}
    {transition : Transition}
    (taken : worker.stepCollect = some transition) :
    CallerMove worker .collect transition := by
  unfold stepCollect at taken
  split at taken
  · rename_i number batch answered reply awaiting filled
    simp only at taken
    split at taken
    · rename_i own
      subst own
      cases taken
      exact .takeReply awaiting filled
    · rename_i late
      cases taken
      exact .dropReply awaiting filled late
  · cases taken

theorem CallerMove.of_stepExpire
    {worker : Worker}
    {transition : Transition}
    (taken : worker.stepExpire = some transition) :
    CallerMove worker .expire transition := by
  unfold stepExpire at taken
  split at taken
  · rename_i number batch limit awaiting limited empty
    split at taken
    · cases taken
    · rename_i present
      cases taken
      exact .expire awaiting limited empty (by simpa using present)
  · cases taken

theorem CallerMove.of_stepDisconnect
    {worker : Worker}
    {transition : Transition}
    (taken : worker.stepDisconnect = some transition) :
    CallerMove worker .disconnect transition := by
  unfold stepDisconnect at taken
  split at taken
  · rename_i number batch awaiting empty
    split at taken
    · rename_i gone
      cases taken
      exact .disconnect awaiting empty gone
    · cases taken
  · cases taken

/-- The thread lets a command pass or leaves its loop. -/
theorem ThreadMove.of_stepCheck
    {worker : Worker}
    {transition : Transition}
    (taken : worker.stepCheck = some transition) :
    ThreadMove worker .check transition := by
  unfold stepCheck at taken
  split at taken
  · rename_i command holding
    split at taken
    · rename_i serving
      split at taken
      · cases taken
        exact .accept holding serving
      · cases taken
        exact .heed holding (Or.inr rfl)
    · rename_i stopped
      cases taken
      exact .heed holding (Or.inl stopped)
  · cases taken

/-- The thread finishes a batch or dies of it. -/
theorem ThreadMove.of_stepFinish
    {worker : Worker}
    {transition : Transition}
    (taken : worker.stepFinish = some transition) :
    ThreadMove worker .finish transition := by
  unfold stepFinish at taken
  split at taken
  · rename_i number batch applying
    split at taken
    · rename_i reply replied
      cases taken
      exact .finish applying replied
    · rename_i silent
      cases taken
      exact .die applying silent
  · cases taken

/-- The thread delivers its reply, or gives up with its worker. -/
theorem ThreadMove.of_stepReply
    {worker : Worker}
    {transition : Transition}
    (taken : worker.stepReply = some transition) :
    ThreadMove worker .reply transition := by
  unfold stepReply at taken
  split at taken
  · rename_i number reply replying
    split at taken
    · rename_i released
      cases taken
      exact .giveUp replying released
    · rename_i kept
      split at taken
      · rename_i empty
        cases taken
        exact .deliver replying kept empty
      · cases taken
  · cases taken

/-- The owner closes the mailbox with a command, or without one if there is no room. -/
theorem OwnerMove.of_stepClose
    {worker : Worker}
    {transition : Transition}
    (taken : worker.stepClose = some transition) :
    OwnerMove worker .close transition := by
  unfold stepClose at taken
  split at taken
  · rename_i stopping
    cases gone : worker.isGone with
    | true =>
        simp only [gone, if_true] at taken
        cases taken
        exact .close stopping
    | false =>
        simp only [gone, Bool.false_eq_true, if_false] at taken
        cases offered : worker.offer? .shutdown with
        | none =>
            simp only [offered, Option.getD_none] at taken
            cases taken
            exact .close stopping
        | some next =>
            simp only [offered, Option.getD_some] at taken
            cases taken
            rcases offer?_eq_some offered with ⟨roomless, waits, rfl⟩ | ⟨room, rfl⟩
            · exact .closeWithHandOver stopping roomless waits
            · exact .closeWithCommand stopping gone room
  · cases taken

/-- Every step follows a rule. -/
theorem Move.of_step
    {worker : Worker}
    {action : Action}
    {transition : Transition}
    (taken : worker.step action = some transition) :
    Move worker action transition := by
  cases action with
  | submit batch => exact .caller (.of_stepSubmit taken)
  | inspect => exact .caller (.of_stepInspect taken)
  | send => exact .caller (.of_stepSend taken)
  | collect => exact .caller (.of_stepCollect taken)
  | expire => exact .caller (.of_stepExpire taken)
  | disconnect => exact .caller (.of_stepDisconnect taken)
  | receive =>
      simp only [step, stepReceive] at taken
      split at taken
      · rename_i command rest receiving waiting
        cases taken
        exact .thread (.receive receiving waiting)
      · cases taken
  | hangUp =>
      simp only [step, stepHangUp] at taken
      split at taken
      · rename_i receiving empty
        split at taken
        · rename_i closed
          cases taken
          exact .thread (.hangUp receiving empty closed)
        · cases taken
      · cases taken
  | check => exact .thread (.of_stepCheck taken)
  | begin =>
      simp only [step, stepBegin] at taken
      split at taken
      · rename_i number batch admitted
        cases taken
        exact .thread (.begin admitted)
      · cases taken
  | finish => exact .thread (.of_stepFinish taken)
  | rest =>
      simp only [step, stepRest] at taken
      split at taken
      · rename_i number reply finished
        cases taken
        exact .thread (.rest finished)
      · cases taken
  | reply => exact .thread (.of_stepReply taken)
  | exit =>
      simp only [step, stepExit] at taken
      split at taken
      · rename_i leaving
        cases taken
        exact .thread (.exit leaving)
      · cases taken
  | terminate =>
      simp only [step, stepTerminate] at taken
      split at taken
      · rename_i free serving
        cases taken
        exact .owner (.terminate free serving)
      · rename_i free closed
        cases taken
        exact .owner (.terminateAgain free closed)
      · cases taken
  | close => exact .owner (.of_stepClose taken)
  | join =>
      simp only [step, stepJoin] at taken
      split at taken
      · rename_i draining
        split at taken
        · rename_i gone
          cases taken
          exact .owner (.join draining gone)
        · cases taken
      · cases taken
  | abandon =>
      simp only [step, stepAbandon] at taken
      split at taken
      · rename_i draining
        cases taken
        exact .owner (.abandon draining)
      · cases taken
  | release =>
      simp only [step, stepRelease] at taken
      split at taken
      · rename_i free closed
        cases taken
        exact .owner (.release free closed)
      · cases taken

/-! ## Steps of the thread by phase -/

namespace ThreadMove

variable {worker : Worker} {action : Action} {transition : Transition} {number : UInt64}
  {batch : Batch} {reply : Reply}

/-- A thread that waits takes a command, or hangs up. -/
theorem of_receiving
    (move : ThreadMove worker action transition)
    (receiving : worker.phase = .receiving) :
    (∃ command rest, worker.mailbox = command :: rest ∧ action = .receive ∧
        transition = ⟨{ worker with phase := .holding command, mailbox := rest }, none⟩) ∨
      (worker.mailbox = [] ∧ worker.isClosed = true ∧ action = .hangUp ∧
        transition = ⟨{ worker with phase := .leaving }, none⟩) := by
  cases move with
  | receive _ waiting => exact Or.inl ⟨_, _, waiting, rfl, rfl⟩
  | hangUp _ empty closed => exact Or.inr ⟨empty, closed, rfl, rfl⟩
  | accept other | heed other | begin other | finish other | die other | rest other
  | deliver other | giveUp other | exit other => cases receiving.symm.trans other

/-- A thread waits at an empty mailbox that is not closed. -/
theorem not_waiting
    (move : ThreadMove worker action transition)
    (receiving : worker.phase = .receiving)
    (empty : worker.mailbox = [])
    (opened : worker.isClosed = false) :
    False := by
  rcases move.of_receiving receiving with ⟨_, _, waiting, -, -⟩ | ⟨-, closed, -, -⟩
  · cases empty.symm.trans waiting
  · cases opened.symm.trans closed

/-- A thread with a command in hand looks at the stop flag. -/
theorem of_holding
    {command : Command}
    (move : ThreadMove worker action transition)
    (holding : worker.phase = .holding command) :
    action = .check ∧
      ((∃ number batch, command = .process number batch ∧ worker.tenure = .serving ∧
          transition = ⟨{ worker with phase := .admitted number batch }, none⟩) ∨
        ((worker.tenure ≠ .serving ∨ command = .shutdown) ∧
          transition = ⟨{ worker with phase := .leaving }, none⟩)) := by
  cases move with
  | accept held serving =>
      cases holding.symm.trans held
      exact ⟨rfl, Or.inl ⟨_, _, rfl, serving, rfl⟩⟩
  | heed held ended =>
      cases holding.symm.trans held
      exact ⟨rfl, Or.inr ⟨ended, rfl⟩⟩
  | receive other | hangUp other | begin other | finish other | die other | rest other
  | deliver other | giveUp other | exit other => cases holding.symm.trans other

/-- A thread that has let a batch pass begins it. -/
theorem of_admitted
    (move : ThreadMove worker action transition)
    (admitted : worker.phase = .admitted number batch) :
    action = .begin ∧
      transition = ⟨{ worker with phase := .applying number batch, mark := .busy },
        some (.began number batch)⟩ := by
  cases move with
  | begin accepted =>
      cases admitted.symm.trans accepted
      exact ⟨rfl, rfl⟩
  | receive other | hangUp other | accept other | heed other | finish other | die other
  | rest other | deliver other | giveUp other | exit other => cases admitted.symm.trans other

/-- A thread that applies its stage finishes the batch or dies of it. -/
theorem of_applying
    (move : ThreadMove worker action transition)
    (applying : worker.phase = .applying number batch) :
    action = .finish ∧
      ((∃ reply, worker.stage.reply? (worker.clock number) batch = some reply ∧
          transition = ⟨{ worker with phase := .finished number reply }, none⟩) ∨
        (worker.stage.reply? (worker.clock number) batch = none ∧
          transition = ⟨{ worker with phase := .dead, mailbox := [] }, none⟩)) := by
  cases move with
  | finish applied replied =>
      cases applying.symm.trans applied
      exact ⟨rfl, Or.inl ⟨_, replied, rfl⟩⟩
  | die applied silent =>
      cases applying.symm.trans applied
      exact ⟨rfl, Or.inr ⟨silent, rfl⟩⟩
  | receive other | hangUp other | accept other | heed other | begin other | rest other
  | deliver other | giveUp other | exit other => cases applying.symm.trans other

/-- A thread that has finished marks itself idle. -/
theorem of_finished
    (move : ThreadMove worker action transition)
    (finished : worker.phase = .finished number reply) :
    action = .rest ∧
      transition = ⟨{ worker with phase := .replying number reply, mark := .idle }, none⟩ := by
  cases move with
  | rest done =>
      cases finished.symm.trans done
      exact ⟨rfl, rfl⟩
  | receive other | hangUp other | accept other | heed other | begin other | finish other
  | die other | deliver other | giveUp other | exit other => cases finished.symm.trans other

/-- A thread that owes a reply delivers it, or gives up with its worker. -/
theorem of_replying
    (move : ThreadMove worker action transition)
    (replying : worker.phase = .replying number reply) :
    action = .reply ∧
      ((worker.tenure ≠ .released ∧ worker.slot = none ∧
          transition =
            ⟨{ worker with phase := .receiving, slot := some (number, reply) }, none⟩) ∨
        (worker.tenure = .released ∧
          transition = ⟨{ worker with phase := .leaving }, none⟩)) := by
  cases move with
  | deliver owed kept empty =>
      cases replying.symm.trans owed
      exact ⟨rfl, Or.inl ⟨kept, empty, rfl⟩⟩
  | giveUp owed released =>
      cases replying.symm.trans owed
      exact ⟨rfl, Or.inr ⟨released, rfl⟩⟩
  | receive other | hangUp other | accept other | heed other | begin other | finish other
  | die other | rest other | exit other => cases replying.symm.trans other

/-- A thread that is gone takes no step. -/
theorem present (move : ThreadMove worker action transition) : worker.isGone = false := by
  cases move with
  | receive known | hangUp known | accept known | heed known | begin known | finish known
  | die known | rest known | deliver known | giveUp known | exit known =>
      rw [isGone, known]

end ThreadMove

/-! ## Steps of the callers and of the owner -/

/-- A caller leaves the thread where it is, unless it puts its command into its hand. -/
theorem CallerMove.phase_eq_or
    {worker : Worker}
    {action : Action}
    {transition : Transition}
    (move : CallerMove worker action transition) :
    transition.next.phase = worker.phase ∨
      worker.phase = .receiving ∧ ∃ command, transition.next.phase = .holding command := by
  cases move with
  | handOver _ _ receiving => exact Or.inr ⟨receiving, _, rfl⟩
  | claim | refuse | number | findBusy | findStopped | findClosed | enqueue | takeReply
  | dropReply | expire | disconnect => exact Or.inl rfl

/-- The owner leaves the thread where it is, unless the closing command is put into its
hand. -/
theorem OwnerMove.phase_eq_or
    {worker : Worker}
    {action : Action}
    {transition : Transition}
    (move : OwnerMove worker action transition) :
    transition.next.phase = worker.phase ∨
      worker.phase = .receiving ∧ transition.next.phase = .holding .shutdown := by
  cases move with
  | closeWithHandOver _ _ receiving => exact Or.inr ⟨receiving, rfl⟩
  | terminate | terminateAgain | close | closeWithCommand | join | abandon | release =>
      exact Or.inl rfl

/-- A thread that does not wait stays where it is. -/
theorem CallerMove.phase_eq
    {worker : Worker}
    {action : Action}
    {transition : Transition}
    (move : CallerMove worker action transition)
    (occupied : worker.phase ≠ .receiving) :
    transition.next.phase = worker.phase :=
  move.phase_eq_or.resolve_right fun handed => occupied handed.1

theorem OwnerMove.phase_eq
    {worker : Worker}
    {action : Action}
    {transition : Transition}
    (move : OwnerMove worker action transition)
    (occupied : worker.phase ≠ .receiving) :
    transition.next.phase = worker.phase :=
  move.phase_eq_or.resolve_right fun handed => occupied handed.1

/-- The mailbox of a thread that is gone is empty: it was dropped with the receiver. -/
theorem ThreadMove.mailbox_of_gone
    {worker : Worker}
    {action : Action}
    {transition : Transition}
    (move : ThreadMove worker action transition)
    (gone : transition.next.isGone = true) :
    transition.next.mailbox = [] := by
  cases move with
  | die | exit => rfl
  | receive | hangUp | accept | heed | begin | finish | rest | deliver | giveUp => cases gone

/-- The owner puts nothing into the mailbox of a thread that is gone. -/
theorem OwnerMove.mailbox_of_gone
    {worker : Worker}
    {action : Action}
    {transition : Transition}
    (move : OwnerMove worker action transition)
    (empty : worker.isGone = true → worker.mailbox = [])
    (gone : transition.next.isGone = true) :
    transition.next.mailbox = [] := by
  cases move with
  | closeWithHandOver => cases gone
  | closeWithCommand _ present => cases present.symm.trans gone
  | terminate | terminateAgain | close | join | abandon | release => exact empty gone

/-- The owner begins to stop a worker between two calls, and does nothing else before. -/
theorem OwnerMove.free_or_ended
    {worker : Worker}
    {action : Action}
    {transition : Transition}
    (move : OwnerMove worker action transition) :
    worker.call = .none ∨ worker.tenure ≠ .serving := by
  cases move with
  | terminate free | terminateAgain free | release free => exact Or.inl free
  | close known | closeWithHandOver known | closeWithCommand known | join known
  | abandon known => exact Or.inr (by simp [known])

/-- A call claims the worker unless another one is in progress. -/
theorem step_submit_of_free
    {worker : Worker}
    (accepts : worker.acceptsCalls = true)
    (free : worker.call = .none)
    (batch : Batch) :
    worker.step (.submit batch) = some ⟨{ worker with call := .claimed batch }, none⟩ := by
  simp only [step, stepSubmit, accepts, free, if_true]
  rfl

/-- A schedule is executed by its first step and then by the rest of it. -/
theorem execute?_cons_eq_some
    {worker reached : Worker}
    {action : Action}
    {rest : List Action}
    {events : List Event}
    (executed : worker.execute? (action :: rest) = some (reached, events)) :
    ∃ transition later, worker.step action = some transition ∧
      transition.next.execute? rest = some (reached, later) ∧
      events = transition.event?.toList ++ later := by
  rw [execute?_cons] at executed
  cases taken : worker.step action with
  | none => simp [taken] at executed
  | some transition =>
      simp only [taken, Option.map_eq_some_iff, Prod.exists, Prod.mk.injEq] at executed
      obtain ⟨last, later, continued, rfl, rfl⟩ := executed
      exact ⟨transition, later, rfl, continued, rfl⟩

theorem Reachable.trans
    {initial worker reached : Worker}
    (first : Reachable initial worker)
    (second : Reachable worker reached) :
    Reachable initial reached := by
  induction second with
  | refl => exact first
  | step _ taken inductionHypothesis => exact inductionHypothesis.step taken

/-- A schedule leads to a reachable state. -/
theorem Reachable.of_execute?
    {worker reached : Worker}
    {schedule : List Action}
    {events : List Event}
    (executed : worker.execute? schedule = some (reached, events)) :
    Reachable worker reached := by
  induction schedule generalizing worker events with
  | nil =>
      cases executed
      exact .refl
  | cons action rest inductionHypothesis =>
      obtain ⟨transition, later, taken, continued, -⟩ := execute?_cons_eq_some executed
      exact (Reachable.refl.step taken).trans (inductionHypothesis continued)

end Worker
end StagePipeline
