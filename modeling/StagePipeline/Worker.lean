import StagePipeline.Settings
import StagePipeline.Stage

/-!
# Workers

A worker hosts one stage on a thread of its own.  Clients hand it batches
through a bounded mailbox and take replies from a slot that holds one reply.
Every command carries a sequence number, and so does its reply, so that a reply
that comes too late for its own call can be told from the one that is awaited.

A worker is a machine.  Its state is everything that clients, the thread and the
owner share or keep, and `Worker.step` says what each of them may do next.  The
steps may be taken in any order: a sequence of actions is one schedule.
-/

namespace StagePipeline

/-- What can be seen of a worker from outside. -/
inductive WorkerState where
  /-- It waits for a batch. -/
  | idle
  /-- It applies its stage, or a call is in progress. -/
  | busy
  /-- Its thread has exited, or the worker has been told to stop. -/
  | terminated
  deriving DecidableEq, Repr

namespace WorkerState

/-- The name of a state. -/
def name : WorkerState → String
  | idle => "Idle"
  | busy => "Busy"
  | terminated => "Terminated"

/-- The number of a state. -/
def number : WorkerState → Nat
  | idle => 0
  | busy => 1
  | terminated => 2

end WorkerState

/-- What a worker answers to a batch. -/
abbrev Reply := Except Fault StageOutput

instance : DecidableEq Reply := fun left right =>
  match left, right with
  | .ok output, .ok other =>
      if same : output = other then .isTrue (by rw [same]) else .isFalse (by simpa using same)
  | .error fault, .error other =>
      if same : fault = other then .isTrue (by rw [same]) else .isFalse (by simpa using same)
  | .ok _, .error _ => .isFalse (by simp)
  | .error _, .ok _ => .isFalse (by simp)

namespace Worker

/-- A command in a mailbox. -/
inductive Command where
  | process (sequence : UInt64) (batch : Batch)
  | shutdown
  deriving DecidableEq

/-- Where the thread is in its loop. -/
inductive Phase where
  /-- It waits for a command. -/
  | receiving
  /-- It has taken a command, and has not looked at the stop flag yet. -/
  | holding (command : Command)
  /-- It will process a batch, and has not marked itself busy yet. -/
  | admitted (sequence : UInt64) (batch : Batch)
  /-- It applies the stage. -/
  | applying (sequence : UInt64) (batch : Batch)
  /-- The stage has returned, and the thread is still marked busy. -/
  | finished (sequence : UInt64) (reply : Reply)
  /-- It is marked idle, and has not delivered its reply yet. -/
  | replying (sequence : UInt64) (reply : Reply)
  /-- It has left the loop, and is not marked terminated yet. -/
  | leaving
  /-- It has exited. -/
  | exited
  /-- A panic took it down, and its last mark remains. -/
  | dead
  deriving DecidableEq

/-- The one call that may be in progress. -/
inductive Call where
  | none
  /-- It has claimed the worker, and has not looked at the thread's mark yet. -/
  | claimed (batch : Batch)
  /-- It waits for room in the mailbox. -/
  | sending (sequence : UInt64) (batch : Batch)
  /-- It waits for the reply with its sequence number. -/
  | awaiting (sequence : UInt64) (batch : Batch)
  deriving DecidableEq

/-- How far the owner has come in stopping the worker. -/
inductive Tenure where
  /-- The worker serves. -/
  | serving
  /-- The stop flag is up. -/
  | stopping
  /-- The mailbox is closed, and the owner waits for the thread to exit. -/
  | draining
  /-- The owner has stopped waiting. -/
  | closed
  /-- The owner has given up the worker, and with it the reply slot. -/
  | released
  deriving DecidableEq

end Worker

/-- The state of a worker.  The first five fields never change. -/
structure Worker where
  stage : Stage
  ordinal : Nat
  /-- The room in the mailbox.  Without room a command goes from hand to hand. -/
  capacity : Nat
  /-- The time that a call waits for its reply, if it is limited. -/
  limit? : Option Duration
  /-- The time at which the stage is applied to each command. -/
  clock : UInt64 → Timestamp
  mailbox : List Worker.Command
  slot : Option (UInt64 × Reply)
  phase : Worker.Phase
  /-- The mark that the thread has set last. -/
  mark : WorkerState
  call : Worker.Call
  /-- The sequence number of the next command. -/
  next : UInt64
  tenure : Worker.Tenure

namespace Worker

/-- The name of the hosted stage. -/
def name (worker : Worker) : String :=
  worker.stage.name

/-- A new worker, whose thread waits for its first command. -/
def ofStage
    (stage : Stage)
    (ordinal : Nat)
    (settings : Settings)
    (clock : UInt64 → Timestamp) :
    Worker :=
  { stage
    ordinal
    capacity := settings.mailboxCapacity
    limit? := settings.stageLimit?
    clock
    mailbox := []
    slot := none
    phase := .receiving
    mark := .idle
    call := .none
    next := 0
    tenure := .serving }

/-- Whether a thread can bear a name: it must not hold a zero character. -/
def acceptsThreadName (name : String) : Bool :=
  !name.toList.contains '\x00'

/-- The bytes that a command takes in a mailbox. -/
def commandBytes : Nat := 48

/-- Start a worker.  There is none if its mailbox cannot be addressed, or if its
thread cannot bear its name. -/
def spawn?
    (stage : Stage)
    (ordinal : Nat)
    (settings : Settings)
    (clock : UInt64 → Timestamp) :
    Option Worker :=
  if Word.fitsBuffer settings.mailboxCapacity commandBytes &&
      acceptsThreadName (settings.threadName stage.name) then
    some (ofStage stage ordinal settings clock)
  else none

/-- What is seen of a worker: it counts as busy while a call is in progress, and
as terminated as soon as it is told to stop. -/
def state (worker : Worker) : WorkerState :=
  if worker.tenure ≠ .serving then .terminated
  else
    match worker.mark with
    | .idle => if worker.call = .none then .idle else .busy
    | mark => mark

/-- Whether a worker is seen as terminated. -/
def isTerminated (worker : Worker) : Bool :=
  worker.state == .terminated

/-- Whether the thread is gone, and its ends of mailbox and slot with it. -/
def isGone (worker : Worker) : Bool :=
  match worker.phase with
  | .exited => true
  | .dead => true
  | _ => false

/-! ## Refusals -/

/-- The fault of a worker that cannot take or answer a batch. -/
def unavailable (worker : Worker) (reason : String) : Fault :=
  .workerUnavailable worker.name reason

/-- An earlier batch is still in progress. -/
def stillBusy (worker : Worker) : Fault :=
  worker.unavailable "worker is still busy with an earlier batch"

/-- The worker has stopped, or has been told to. -/
def stopped (worker : Worker) : Fault :=
  worker.unavailable "worker is terminated"

/-- The thread is gone and takes no commands. -/
def mailboxClosed (worker : Worker) : Fault :=
  worker.unavailable "worker mailbox is closed"

/-- The thread is gone and will not reply. -/
def threadGone (worker : Worker) : Fault :=
  worker.unavailable "worker thread exited before replying"

/-! ## Steps -/

/-- What a client, the thread or the owner does next. -/
inductive Action where
  /-- A client calls; the worker is claimed for it if no call is in progress. -/
  | submit (batch : Batch)
  /-- The caller looks at the thread's mark. -/
  | inspect
  /-- The caller puts its command into the mailbox. -/
  | send
  /-- The caller takes a reply from the slot, and drops it if it is not its own. -/
  | collect
  /-- The caller's time is over. -/
  | expire
  /-- The caller finds that the thread is gone. -/
  | disconnect
  /-- The thread takes a command. -/
  | receive
  /-- The thread finds that its mailbox is closed and empty. -/
  | hangUp
  /-- The thread looks at the stop flag and at its command. -/
  | check
  /-- The thread marks itself busy and begins to apply its stage. -/
  | begin
  /-- The stage ends. -/
  | finish
  /-- The thread marks itself idle. -/
  | rest
  /-- The thread delivers its reply. -/
  | reply
  /-- The thread marks itself terminated and exits. -/
  | exit
  /-- The owner takes the thread's handle and raises the stop flag. -/
  | terminate
  /-- The owner offers a last command and closes the mailbox. -/
  | close
  /-- The owner sees the thread exit. -/
  | join
  /-- The owner stops waiting for the thread. -/
  | abandon
  /-- The owner gives the worker up. -/
  | release
  deriving DecidableEq

/-- What a step lets be seen. -/
inductive Event where
  /-- The stage begins to be applied. -/
  | began (sequence : UInt64) (batch : Batch)
  /-- A call for a batch returns. -/
  | answered (batch : Batch) (reply : Reply)
  /-- A call drops a reply that is not its own. -/
  | dropped (sequence : UInt64)
  /-- The owner has stopped the worker, with the thread's exit or without. -/
  | terminated (exited : Bool)
  deriving DecidableEq

/-- A state and what is seen on the way to it. -/
structure Transition where
  next : Worker
  event? : Option Event

/-- Go to a state unseen. -/
def silently (next : Worker) : Option Transition :=
  some ⟨next, none⟩

/-- Go to a state, and let something be seen. -/
def seen (next : Worker) (event : Event) : Option Transition :=
  some ⟨next, some event⟩

/-- End the call in progress with an answer. -/
def answer (worker : Worker) (batch : Batch) (reply : Reply) : Option Transition :=
  seen { worker with call := .none } (.answered batch reply)

/-- Whether clients may call: not while the owner is stopping the worker. -/
def acceptsCalls (worker : Worker) : Bool :=
  match worker.tenure with
  | .serving => true
  | .closed => true
  | _ => false

/-- A client calls. -/
def stepSubmit (worker : Worker) (batch : Batch) : Option Transition :=
  if worker.acceptsCalls then
    match worker.call with
    | .none => silently { worker with call := .claimed batch }
    | _ => seen worker (.answered batch (.error worker.stillBusy))
  else none

/-- The caller looks at the thread's mark, and takes a sequence number if the
thread is idle. -/
def stepInspect (worker : Worker) : Option Transition :=
  match worker.call with
  | .claimed batch =>
      if worker.tenure = .serving then
        match worker.mark with
        | .idle =>
            silently { worker with
              call := .sending worker.next batch
              next := worker.next + 1 }
        | .busy => worker.answer batch (.error worker.stillBusy)
        | .terminated => worker.answer batch (.error worker.stopped)
      else worker.answer batch (.error worker.stopped)
  | _ => none

/-- Put a command into the mailbox if there is room, or into the hand of a
waiting thread if the mailbox has no room at all. -/
def offer? (worker : Worker) (command : Command) : Option Worker :=
  if worker.capacity = 0 then
    if worker.phase = .receiving then some { worker with phase := .holding command } else none
  else if worker.mailbox.length < worker.capacity then
    some { worker with mailbox := worker.mailbox ++ [command] }
  else none

/-- The caller puts its command into the mailbox. -/
def stepSend (worker : Worker) : Option Transition :=
  match worker.call with
  | .sending sequence batch =>
      if worker.isGone then worker.answer batch (.error worker.mailboxClosed)
      else
        match worker.offer? (.process sequence batch) with
        | some next => silently { next with call := .awaiting sequence batch }
        | none => none
  | _ => none

/-- The caller takes a reply from the slot. -/
def stepCollect (worker : Worker) : Option Transition :=
  match worker.call, worker.slot with
  | .awaiting sequence batch, some (answered, reply) =>
      let emptied := { worker with slot := none }
      if answered = sequence then emptied.answer batch reply
      else seen emptied (.dropped answered)
  | _, _ => none

/-- The caller's time is over.  A reply that is there is taken first, and a thread
that is gone is noticed first. -/
def stepExpire (worker : Worker) : Option Transition :=
  match worker.call, worker.limit?, worker.slot with
  | .awaiting _ batch, some limit, none =>
      if worker.isGone then none
      else worker.answer batch (.error (.timedOut worker.name batch.index limit))
  | _, _, _ => none

/-- The caller finds that no reply is there and the thread is gone. -/
def stepDisconnect (worker : Worker) : Option Transition :=
  match worker.call, worker.slot with
  | .awaiting _ batch, none =>
      if worker.isGone then worker.answer batch (.error worker.threadGone) else none
  | _, _ => none

/-- Whether the mailbox is closed on the side of the clients. -/
def isClosed (worker : Worker) : Bool :=
  match worker.tenure with
  | .serving => false
  | .stopping => false
  | _ => true

/-- The thread takes a command. -/
def stepReceive (worker : Worker) : Option Transition :=
  match worker.phase, worker.mailbox with
  | .receiving, command :: rest =>
      silently { worker with phase := .holding command, mailbox := rest }
  | _, _ => none

/-- The thread finds its mailbox closed and empty. -/
def stepHangUp (worker : Worker) : Option Transition :=
  match worker.phase, worker.mailbox with
  | .receiving, [] =>
      if worker.isClosed then silently { worker with phase := .leaving } else none
  | _, _ => none

/-- The thread looks at the stop flag and at its command. -/
def stepCheck (worker : Worker) : Option Transition :=
  match worker.phase with
  | .holding command =>
      if worker.tenure = .serving then
        match command with
        | .process sequence batch => silently { worker with phase := .admitted sequence batch }
        | .shutdown => silently { worker with phase := .leaving }
      else silently { worker with phase := .leaving }
  | _ => none

/-- The thread begins to apply its stage. -/
def stepBegin (worker : Worker) : Option Transition :=
  match worker.phase with
  | .admitted sequence batch =>
      seen { worker with phase := .applying sequence batch, mark := .busy }
        (.began sequence batch)
  | _ => none

/-- The stage ends: with a reply, or with the death of the thread, which drops
all commands in its mailbox. -/
def stepFinish (worker : Worker) : Option Transition :=
  match worker.phase with
  | .applying sequence batch =>
      match worker.stage.reply? (worker.clock sequence) batch with
      | some reply => silently { worker with phase := .finished sequence reply }
      | none => silently { worker with phase := .dead, mailbox := [] }
  | _ => none

/-- The thread marks itself idle. -/
def stepRest (worker : Worker) : Option Transition :=
  match worker.phase with
  | .finished sequence reply =>
      silently { worker with phase := .replying sequence reply, mark := .idle }
  | _ => none

/-- The thread delivers its reply as soon as the slot is empty; if the slot has
been given up it leaves. -/
def stepReply (worker : Worker) : Option Transition :=
  match worker.phase with
  | .replying sequence reply =>
      if worker.tenure = .released then silently { worker with phase := .leaving }
      else
        match worker.slot with
        | none => silently { worker with phase := .receiving, slot := some (sequence, reply) }
        | some _ => none
  | _ => none

/-- The thread exits and drops all commands in its mailbox. -/
def stepExit (worker : Worker) : Option Transition :=
  match worker.phase with
  | .leaving => silently { worker with phase := .exited, mark := .terminated, mailbox := [] }
  | _ => none

/-- The owner begins to stop the worker, which it can only do between calls.  A
worker that has been stopped before is left as it is. -/
def stepTerminate (worker : Worker) : Option Transition :=
  match worker.call, worker.tenure with
  | .none, .serving => silently { worker with tenure := .stopping }
  | .none, .closed => seen worker (.terminated true)
  | _, _ => none

/-- The owner closes the mailbox, after a last command if there is room. -/
def stepClose (worker : Worker) : Option Transition :=
  match worker.tenure with
  | .stopping =>
      let offered :=
        if worker.isGone then worker else (worker.offer? .shutdown).getD worker
      silently { offered with tenure := .draining }
  | _ => none

/-- The owner sees the thread exit. -/
def stepJoin (worker : Worker) : Option Transition :=
  match worker.tenure with
  | .draining =>
      if worker.isGone then seen { worker with tenure := .closed } (.terminated true) else none
  | _ => none

/-- The owner stops waiting for the thread. -/
def stepAbandon (worker : Worker) : Option Transition :=
  match worker.tenure with
  | .draining => seen { worker with tenure := .closed } (.terminated false)
  | _ => none

/-- The owner gives up a worker that it has stopped. -/
def stepRelease (worker : Worker) : Option Transition :=
  match worker.call, worker.tenure with
  | .none, .closed => silently { worker with tenure := .released, slot := none }
  | _, _ => none

/-- What comes of an action, if it can be taken. -/
def step (worker : Worker) : Action → Option Transition
  | .submit batch => worker.stepSubmit batch
  | .inspect => worker.stepInspect
  | .send => worker.stepSend
  | .collect => worker.stepCollect
  | .expire => worker.stepExpire
  | .disconnect => worker.stepDisconnect
  | .receive => worker.stepReceive
  | .hangUp => worker.stepHangUp
  | .check => worker.stepCheck
  | .begin => worker.stepBegin
  | .finish => worker.stepFinish
  | .rest => worker.stepRest
  | .reply => worker.stepReply
  | .exit => worker.stepExit
  | .terminate => worker.stepTerminate
  | .close => worker.stepClose
  | .join => worker.stepJoin
  | .abandon => worker.stepAbandon
  | .release => worker.stepRelease

/-- The state after a schedule and all that is seen on the way, if every action
can be taken in its turn. -/
def execute? (worker : Worker) : List Action → Option (Worker × List Event)
  | [] => some (worker, [])
  | action :: rest =>
      match worker.step action with
      | none => none
      | some transition =>
          (transition.next.execute? rest).map fun (last, events) =>
            (last, transition.event?.toList ++ events)

@[simp] theorem execute?_nil (worker : Worker) :
    worker.execute? [] = some (worker, []) :=
  rfl

@[simp] theorem execute?_cons
    (worker : Worker)
    (action : Action)
    (rest : List Action) :
    worker.execute? (action :: rest) =
      match worker.step action with
      | none => none
      | some transition =>
          (transition.next.execute? rest).map fun (last, events) =>
            (last, transition.event?.toList ++ events) :=
  rfl

/-- The states that a worker can come to from a given one. -/
inductive Reachable (initial : Worker) : Worker → Prop where
  | refl : Reachable initial initial
  | step {worker : Worker} {action : Action} {transition : Transition} :
      Reachable initial worker → worker.step action = some transition →
        Reachable initial transition.next

end Worker
end StagePipeline
