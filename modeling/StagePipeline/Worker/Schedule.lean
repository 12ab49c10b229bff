import StagePipeline.Worker

/-!
# The usual schedule of a worker

Of the many orders in which the steps of a worker may be taken, the usual one
lets the thread go as far as it can, then the caller, and lets a deadline pass
only when nothing else can happen.  A stage that holds a batch goes on once its
gate is open.  A call that has no time at all is the exception: it is over before
the thread has woken up.
-/

namespace StagePipeline
namespace Worker

/-- The next step of the thread, unless it has to wait. -/
def threadAction? (gateOpen : Bool) (worker : Worker) : Option Action :=
  match worker.phase with
  | .receiving =>
      if !worker.mailbox.isEmpty then some .receive
      else if worker.isClosed then some .hangUp
      else none
  | .holding _ => some .check
  | .admitted _ _ => some .begin
  | .applying _ batch => if worker.stage.holds batch && !gateOpen then none else some .finish
  | .finished _ _ => some .rest
  | .replying _ _ =>
      if worker.slot.isNone || worker.tenure == .released then some .reply else none
  | .leaving => some .exit
  | .exited => none
  | .dead => none

/-- The next step of the caller, unless it has to wait. -/
def callerAction? (worker : Worker) : Option Action :=
  match worker.call with
  | .none => none
  | .claimed _ => some .inspect
  | .sending sequence batch =>
      if worker.isGone || (worker.offer? (.process sequence batch)).isSome then some .send
      else none
  | .awaiting _ _ =>
      if worker.slot.isSome then some .collect
      else if worker.isGone then some .disconnect
      else none

/-- The next step of thread or caller. -/
def urgentAction? (gateOpen : Bool) (worker : Worker) : Option Action :=
  (worker.threadAction? gateOpen).or worker.callerAction?

/-- The next step of thread or caller, or else the end of the caller's time. -/
def usualAction? (gateOpen : Bool) (worker : Worker) : Option Action :=
  (worker.urgentAction? gateOpen).or (if worker.limit?.isSome then some .expire else none)

/-- Take the steps that a policy asks for until it asks for none, or until a call
returns. -/
def follow (policy : Worker → Option Action) : Nat → Worker → Worker × Option Reply
  | 0, worker => (worker, none)
  | steps + 1, worker =>
      match (policy worker).bind worker.step with
      | none => (worker, none)
      | some ⟨next, some (.answered _ reply)⟩ => (next, some reply)
      | some ⟨next, _⟩ => follow policy steps next

/-- More steps than thread and caller can take between them: less than ten for
every command that waits, is in hand or comes next. -/
def stepBound (worker : Worker) : Nat :=
  10 * (worker.mailbox.length + 4)

/-- Let the thread go as far as it can. -/
def settle (gateOpen : Bool) (worker : Worker) : Worker :=
  (worker.follow (threadAction? gateOpen) worker.stepBound).1

/-- Let thread and caller go as far as they can without a deadline. -/
def pursue (gateOpen : Bool) (worker : Worker) : Worker × Option Reply :=
  worker.follow (urgentAction? gateOpen) worker.stepBound

/-- Whether calls give up as soon as their command is in the mailbox.  Where the thread
takes it out of the caller's hand, the thread is awake. -/
def isRushed (worker : Worker) : Bool :=
  worker.limit? == some ⟨0⟩ && worker.capacity != 0

/-- The next step of a caller without time, or else that of the thread. -/
def rushedAction? (gateOpen : Bool) (worker : Worker) : Option Action :=
  worker.callerAction?.or <|
    match worker.call with
    | .awaiting _ _ => some .expire
    | _ => worker.threadAction? gateOpen

/-- Let the thread go as far as it can if its stage then holds a batch. -/
def settleIfHeld (gateOpen : Bool) (worker : Worker) : Worker :=
  let settled := worker.settle gateOpen
  match settled.phase with
  | .applying _ _ => settled
  | _ => worker

/-- Let the call in progress come to its end. -/
def conclude (gateOpen : Bool) (worker : Worker) : Worker × Option Reply :=
  if worker.isRushed then
    let (next, reply) := worker.follow (rushedAction? gateOpen) worker.stepBound
    (next.settleIfHeld gateOpen, reply)
  else worker.follow (usualAction? gateOpen) worker.stepBound

/-- Begin a call.  If another one is in progress the answer is there at once. -/
def beginCall (worker : Worker) (batch : Batch) : Worker × Option Reply :=
  match worker.step (.submit batch) with
  | some ⟨next, some (.answered _ reply)⟩ => (next, some reply)
  | some ⟨next, _⟩ => (next, none)
  | none => (worker, none)

/-- Submit a batch and wait for the answer.  There is none if the stage holds the
batch, the gate stays closed and the call has no deadline. -/
def submit (gateOpen : Bool) (worker : Worker) (batch : Batch) : Worker × Option Reply :=
  match worker.beginCall batch with
  | (next, some reply) => (next, some reply)
  | (next, none) => next.conclude gateOpen

/-- Stop a worker.  The answer tells whether its thread has exited in time, and
for a worker that was stopped before it is affirmative. -/
def stop (gateOpen : Bool) (worker : Worker) : Worker × Bool :=
  match worker.step .terminate with
  | some ⟨next, none⟩ =>
      match next.step .close with
      | some ⟨closed, _⟩ =>
          let settled := closed.settle gateOpen
          match settled.step (if settled.isGone then .join else .abandon) with
          | some ⟨last, some (.terminated exited)⟩ => (last, exited)
          | _ => (settled, false)
      | none => (next, false)
  | some ⟨next, some (.terminated exited)⟩ => (next, exited)
  | _ => (worker, false)

end Worker
end StagePipeline
