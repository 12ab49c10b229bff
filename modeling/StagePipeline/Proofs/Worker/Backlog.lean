import StagePipeline.Proofs.Worker.Receipts

/-!
# The backlog of a worker

A call that gives up leaves its command behind, and later its reply, so that a worker may
have more to do than the one call in progress.  The backlog lists what it still has: the
reply in the slot, the command in the hand of the thread, and the commands in the mailbox,
oldest first.  Its length is bounded by the room in the mailbox, and from this it follows
that mailbox and slot never block each other.
-/

namespace StagePipeline
namespace Worker

/-- The number of a command. -/
def Command.number? : Command → Option UInt64
  | .process number _ => some number
  | .shutdown => none

/-- The number of the command that the thread has taken and not replied to. -/
def Phase.number? : Phase → Option UInt64
  | .holding command => command.number?
  | .admitted number _ => some number
  | .applying number _ => some number
  | .finished number _ => some number
  | .replying number _ => some number
  | .receiving | .leaving | .exited | .dead => none

/-- The numbers of the reply in the slot, of the command in hand and of the commands in
the mailbox, in the order in which they were taken. -/
def backlog (worker : Worker) : List UInt64 :=
  (worker.slot.map Prod.fst).toList ++ worker.phase.number?.toList ++
    worker.mailbox.filterMap Command.number?

/-- How many commands the thread has taken and not replied to: none or one. -/
def inHand (worker : Worker) : Nat :=
  match worker.phase with
  | .holding _ | .admitted _ _ | .applying _ _ | .finished _ _ | .replying _ _ => 1
  | .receiving | .leaving | .exited | .dead => 0

/-- How many replies nobody has collected: none or one. -/
def undelivered (worker : Worker) : Nat :=
  worker.slot.toList.length

/-- A call waits for room in the mailbox. -/
def SendBlocked (worker : Worker) : Prop :=
  (∃ number batch, worker.call = .sending number batch) ∧ worker.step .send = none

/-- The thread waits for the slot to be emptied. -/
def ReplyBlocked (worker : Worker) : Prop :=
  (∃ number reply, worker.phase = .replying number reply) ∧ worker.step .reply = none

/-- The thread can take a step of its own. -/
def ThreadReady (worker : Worker) : Prop :=
  ∃ action ∈ [Action.receive, .hangUp, .check, .begin, .finish, .rest, .reply, .exit],
    ∃ transition, worker.step action = some transition

variable {initial worker : Worker} {action : Action} {transition : Transition}

theorem Phase.number?_length_le (phase : Phase) : phase.number?.toList.length ≤ 1 := by
  cases phase.number? <;> simp

theorem filterMap_number?_length_le (commands : List Command) :
    (commands.filterMap Command.number?).length ≤ commands.length :=
  List.length_filterMap_le _ _

theorem filterMap_number?_length_eq
    {commands : List Command}
    (unclosed : .shutdown ∉ commands) :
    (commands.filterMap Command.number?).length = commands.length := by
  rw [List.filterMap_length_eq_length]
  intro command present
  cases command with
  | shutdown => exact absurd present unclosed
  | process number batch => rfl

/-- Until the mailbox has been closed, every command is that of a call. -/
theorem backlog_length
    (unclosed : .shutdown ∉ worker.mailbox)
    (free : worker.phase ≠ .holding .shutdown) :
    worker.backlog.length = worker.mailbox.length + worker.inHand + worker.undelivered := by
  have hand : worker.phase.number?.toList.length = worker.inHand := by
    unfold inHand
    cases phase : worker.phase with
    | holding command =>
        cases command with
        | shutdown => exact absurd phase free
        | process number batch => rfl
    | _ => rfl
  have slot : (worker.slot.map Prod.fst).toList.length = worker.undelivered := by
    unfold undelivered
    cases worker.slot <;> rfl
  rw [backlog, List.length_append, List.length_append, hand, slot,
    filterMap_number?_length_eq unclosed]
  omega

/-- With an empty slot, the backlog is what the mailbox and the hand of the thread hold. -/
theorem backlog_length_le
    (room : worker.mailbox.length ≤ worker.capacity)
    (empty : worker.slot = none) :
    worker.backlog.length ≤ worker.capacity + 1 := by
  have hand := worker.phase.number?_length_le
  have waiting := filterMap_number?_length_le worker.mailbox
  rw [backlog, empty, List.length_append, List.length_append]
  simp only [Option.map_none, Option.toList_none, List.length_nil]
  omega

/-! ## The backlog under a step -/

/-- The thread works off the backlog, or drops what is left of it when it leaves. -/
theorem ThreadMove.backlog_sublist (move : ThreadMove worker action transition) :
    transition.next.backlog.Sublist worker.backlog := by
  cases move with
  | @receive command rest receiving waiting =>
      cases command <;>
        simp [backlog, Phase.number?, Command.number?, receiving, waiting, List.filterMap_cons]
  | heed known | die known | giveUp known => simp [backlog, Phase.number?, known]
  | hangUp known _ | accept known | begin known | finish known | rest known | exit known =>
      simp [backlog, Phase.number?, Command.number?, known]
  | deliver known _ empty => simp [backlog, Phase.number?, known, empty]

/-- A thread that goes on drops nothing. -/
theorem ThreadMove.backlog_eq
    (move : ThreadMove worker action transition)
    (stays : transition.next.phase ≠ .leaving)
    (present : transition.next.isGone = false) :
    transition.next.backlog = worker.backlog := by
  cases move with
  | @receive command rest receiving waiting =>
      cases command <;>
        simp [backlog, Phase.number?, Command.number?, receiving, waiting, List.filterMap_cons]
  | hangUp | heed | giveUp => exact absurd rfl stays
  | die | exit => cases present
  | accept known | begin known | finish known | rest known =>
      simp [backlog, Phase.number?, Command.number?, known]
  | deliver known _ empty => simp [backlog, Phase.number?, known, empty]

/-- The owner adds no number, and drops at most the reply in the slot. -/
theorem OwnerMove.backlog_sublist (move : OwnerMove worker action transition) :
    transition.next.backlog.Sublist worker.backlog := by
  cases move with
  | closeWithHandOver _ _ receiving =>
      simp [backlog, Phase.number?, Command.number?, receiving]
  | closeWithCommand => simp [backlog, Command.number?]
  | release => simp [backlog]
  | terminate | terminateAgain | close | join | abandon => exact List.Sublist.refl _

/-- A command that is put into the hand of a waiting thread comes last, as nothing is in
the mailbox. -/
theorem backlog_handOver
    (receiving : worker.phase = .receiving)
    (empty : worker.mailbox = [])
    (number : UInt64)
    (batch : Batch)
    (call : Call) :
    { worker with call, phase := .holding (.process number batch) }.backlog =
      worker.backlog ++ [number] := by
  simp [backlog, Phase.number?, Command.number?, receiving, empty]

/-- A command that is put into the mailbox comes last. -/
theorem backlog_enqueue
    (worker : Worker)
    (number : UInt64)
    (batch : Batch)
    (call : Call) :
    { worker with
        call
        mailbox := worker.mailbox ++ [Command.process number batch] }.backlog =
      worker.backlog ++ [number] := by
  simp [backlog, Command.number?]

/-! ## Bounds -/

/-- What bounds the backlog of a worker. -/
structure WithinBounds (worker : Worker) : Prop where
  room : worker.mailbox.length ≤ worker.capacity
  /-- Only the owner sends the last command, and only when it closes the mailbox. -/
  unclosed : worker.isClosed = false →
    .shutdown ∉ worker.mailbox ∧ worker.phase ≠ .holding .shutdown
  /-- The owner lets a call that has taken a number come to its end. -/
  engaged : ∀ job, worker.call.job? = some job → worker.tenure = .serving
  /-- A call that has sent its command stays until the slot is empty. -/
  bounded : (∀ number batch, worker.call ≠ .awaiting number batch) →
    worker.backlog.length ≤ worker.capacity + 1

namespace WithinBounds

theorem ofStage
    (stage : Stage)
    (ordinal : Nat)
    (settings : Settings)
    (clock : UInt64 → Timestamp) :
    (ofStage stage ordinal settings clock).WithinBounds where
  room := Nat.zero_le _
  unclosed _ := ⟨List.not_mem_nil, nofun⟩
  engaged := nofun
  bounded _ := Nat.zero_le _

/-- Once the owner has begun to stop the worker, no call has a number. -/
theorem unnumbered
    (bounds : worker.WithinBounds)
    (ended : worker.tenure ≠ .serving) :
    worker.call.job? = none := by
  rw [Option.eq_none_iff_forall_ne_some]
  exact fun job own => ended (bounds.engaged job own)

/-- A mailbox without room stays empty. -/
theorem mailbox_eq_nil
    (bounds : worker.WithinBounds)
    (noRoom : worker.capacity = 0) :
    worker.mailbox = [] := by
  have room := bounds.room
  rw [noRoom] at room
  exact List.length_eq_zero_iff.mp (Nat.le_zero.mp room)

/-- A step of a caller.  A command goes into a mailbox with room, and the call that has
sent it ends with an empty slot. -/
theorem caller
    (bounds : worker.WithinBounds)
    (move : CallerMove worker action transition) :
    transition.next.WithinBounds := by
  obtain ⟨room, unclosed, engaged, bounded⟩ := bounds
  cases move with
  | claim accepts free =>
      refine ⟨room, unclosed, nofun, fun _ => bounded ?_⟩
      simp [free]
  | refuse accepts claimed => exact ⟨room, unclosed, engaged, bounded⟩
  | number claimed serving idle =>
      refine ⟨room, unclosed, fun _ _ => serving, fun _ => bounded ?_⟩
      simp [claimed]
  | findBusy claimed serving busy =>
      refine ⟨room, unclosed, nofun, fun _ => bounded ?_⟩
      simp [claimed]
  | findStopped claimed stopped =>
      refine ⟨room, unclosed, nofun, fun _ => bounded ?_⟩
      simp [claimed]
  | findClosed sending gone =>
      refine ⟨room, unclosed, nofun, fun _ => bounded ?_⟩
      simp [sending]
  | @handOver number batch sending noRoom receiving =>
      have serving := engaged (number, batch) (by rw [sending]; rfl)
      refine ⟨room, fun opened => ⟨(unclosed opened).1, by simp⟩, fun _ _ => serving, ?_⟩
      intro free
      exact absurd rfl (free number batch)
  | @enqueue number batch sending present space =>
      have serving := engaged (number, batch) (by rw [sending]; rfl)
      refine ⟨?_, fun opened => ⟨?_, (unclosed opened).2⟩, fun _ _ => serving, ?_⟩
      · rw [List.length_append]
        exact space
      · simpa using (unclosed opened).1
      · intro free
        exact absurd rfl (free number batch)
  | takeReply awaiting filled =>
      exact ⟨room, unclosed, nofun, fun _ => backlog_length_le room rfl⟩
  | dropReply awaiting filled late =>
      exact ⟨room, unclosed, engaged, fun _ => backlog_length_le room rfl⟩
  | expire awaiting limited empty present =>
      exact ⟨room, unclosed, nofun, fun _ => backlog_length_le room empty⟩
  | disconnect awaiting empty gone =>
      exact ⟨room, unclosed, nofun, fun _ => backlog_length_le room empty⟩

/-- A step of the thread, which works off the backlog and leaves the calls alone. -/
theorem thread
    (bounds : worker.WithinBounds)
    (move : ThreadMove worker action transition) :
    transition.next.WithinBounds := by
  obtain ⟨room, unclosed, engaged, bounded⟩ := bounds
  have shorter := move.backlog_sublist.length_le
  have sameCall := move.call_eq
  have sameTenure := move.tenure_eq
  have sameCapacity := (Move.thread move).capacity_eq
  refine ⟨?_, ?_, ?_, ?_⟩
  · cases move with
    | receive receiving waiting =>
        rw [waiting] at room
        exact Nat.le_of_succ_le room
    | die => exact Nat.zero_le _
    | exit => exact Nat.zero_le _
    | _ => exact room
  · intro opened
    have opened : worker.isClosed = false := by
      rw [← opened, isClosed, isClosed, sameTenure]
    obtain ⟨queued, held⟩ := unclosed opened
    cases move with
    | receive receiving waiting =>
        rw [waiting, List.mem_cons, not_or] at queued
        exact ⟨queued.2, fun held => queued.1 (Phase.holding.inj held).symm⟩
    | die | exit => exact ⟨List.not_mem_nil, nofun⟩
    | hangUp | accept | heed | begin | finish | rest | deliver | giveUp =>
        exact ⟨queued, nofun⟩
  · rw [sameCall, sameTenure]
    exact engaged
  · rw [sameCall, sameCapacity]
    exact fun free => Nat.le_trans shorter (bounded free)

/-- A step of the owner, who adds to the mailbox only what no reply will follow. -/
theorem owner
    (bounds : worker.WithinBounds)
    (move : OwnerMove worker action transition) :
    transition.next.WithinBounds := by
  obtain ⟨room, unclosed, engaged, bounded⟩ := bounds
  have shorter := move.backlog_sublist.length_le
  have sameCall := move.call_eq
  have sameCapacity := (Move.owner move).capacity_eq
  refine ⟨?_, ?_, ?_, ?_⟩
  · cases move with
    | closeWithCommand stopping present space =>
        rw [List.length_append]
        exact space
    | _ => exact room
  · cases move with
    | terminate _ serving => exact fun _ => unclosed (by rw [isClosed, serving])
    | terminateAgain => exact unclosed
    | close | closeWithHandOver | closeWithCommand | join | abandon | release => exact nofun
  · rw [sameCall]
    intro job own
    rcases move.free_or_ended with free | ended
    · rw [free] at own
      cases own
    · exact absurd (engaged job own) ended
  · rw [sameCall, sameCapacity]
    exact fun free => Nat.le_trans shorter (bounded free)

theorem step
    (bounds : worker.WithinBounds)
    (taken : worker.step action = some transition) :
    transition.next.WithinBounds := by
  rcases Move.of_step taken with move | move | move
  · exact bounds.caller move
  · exact bounds.thread move
  · exact bounds.owner move

/-- Wherever a worker can come to, its backlog is bounded. -/
theorem reachable
    (bounds : initial.WithinBounds)
    (reachable : Reachable initial worker) :
    worker.WithinBounds := by
  induction reachable with
  | refl => exact bounds
  | step _ taken inductionHypothesis => exact inductionHypothesis.step taken

end WithinBounds

theorem Reachable.fixed (reachable : Reachable initial worker) :
    worker.stage = initial.stage ∧ worker.clock = initial.clock ∧
      worker.ordinal = initial.ordinal ∧
      worker.capacity = initial.capacity ∧ worker.limit? = initial.limit? := by
  induction reachable with
  | refl => exact ⟨rfl, rfl, rfl, rfl, rfl⟩
  | step _ taken inductionHypothesis =>
      have same := (Move.of_step taken).fixed
      rwa [same.1, same.2.1, same.2.2.1, same.2.2.2.1, same.2.2.2.2]

theorem Reachable.capacity_eq (reachable : Reachable initial worker) :
    worker.capacity = initial.capacity :=
  reachable.fixed.2.2.2.1

/-- A mailbox that can be addressed has less room than there are numbers. -/
theorem narrow_of_spawn?
    {stage : Stage}
    {ordinal : Nat}
    {settings : Settings}
    {clock : UInt64 → Timestamp}
    (spawned : spawn? stage ordinal settings clock = some worker) :
    worker = ofStage stage ordinal settings clock ∧
      settings.mailboxCapacity + 1 < Word.limit := by
  unfold spawn? at spawned
  split at spawned
  · rename_i possible
    cases spawned
    have fits : settings.mailboxCapacity * 48 ≤ 2 ^ 63 - 1 :=
      of_decide_eq_true (Bool.and_eq_true_iff.mp possible).1
    refine ⟨rfl, ?_⟩
    change settings.mailboxCapacity + 1 < 2 ^ 64
    omega
  · cases spawned

/-! ## Nobody waits for ever -/

theorem SendBlocked.offer?_eq_none
    {number : UInt64}
    {batch : Batch}
    (blocked : worker.SendBlocked)
    (sending : worker.call = .sending number batch) :
    worker.isGone = false ∧ worker.offer? (.process number batch) = none := by
  obtain ⟨-, stuck⟩ := blocked
  rw [step, stepSend, sending] at stuck
  simp only at stuck
  split at stuck
  · cases stuck
  · rename_i present
    split at stuck
    · cases stuck
    · rename_i refused
      exact ⟨by simpa using present, refused⟩

/-- A call waits for room only if the mailbox is full and the thread is not waiting for a
command. -/
theorem SendBlocked.full (blocked : worker.SendBlocked) :
    worker.isGone = false ∧ worker.capacity ≤ worker.mailbox.length ∧
      (worker.phase = .receiving → worker.mailbox ≠ []) := by
  obtain ⟨number, batch, sending⟩ := blocked.1
  obtain ⟨present, refused⟩ := blocked.offer?_eq_none sending
  unfold offer? at refused
  split at refused
  · rename_i roomless
    split at refused
    · cases refused
    · rename_i occupied
      exact ⟨present, by omega, fun receiving => absurd receiving occupied⟩
  · rename_i room
    split at refused
    · cases refused
    · rename_i full
      refine ⟨present, by omega, fun _ empty => full ?_⟩
      rw [empty]
      exact Nat.pos_of_ne_zero room

/-- The thread waits with its reply only if there is another one in the slot. -/
theorem ReplyBlocked.filled (blocked : worker.ReplyBlocked) :
    ∃ number reply other, worker.phase = .replying number reply ∧ worker.slot = some other := by
  obtain ⟨⟨number, reply, replying⟩, stuck⟩ := blocked
  rw [step, stepReply, replying] at stuck
  simp only at stuck
  split at stuck
  · cases stuck
  · split at stuck
    · cases stuck
    · rename_i other filled
      exact ⟨number, reply, other, replying, filled⟩

/-- The mailbox and the slot are not both full with somebody waiting at either: the
backlog would be too long. -/
theorem WithinBounds.not_both_blocked
    (bounds : worker.WithinBounds) :
    ¬(worker.SendBlocked ∧ worker.ReplyBlocked) := by
  rintro ⟨sendBlocked, replyBlocked⟩
  obtain ⟨-, full, -⟩ := sendBlocked.full
  obtain ⟨number, reply, other, replying, filled⟩ := replyBlocked.filled
  obtain ⟨own, batch, sending⟩ := sendBlocked.1
  have serving := bounds.engaged (own, batch) (by simp [sending, Call.job?])
  obtain ⟨unclosed, free⟩ := bounds.unclosed (by simp [isClosed, serving])
  have short := bounds.bounded (by simp [sending])
  have hand : worker.inHand = 1 := by simp [inHand, replying]
  have slot : worker.undelivered = 1 := by simp [undelivered, filled]
  rw [backlog_length unclosed free, hand, slot] at short
  omega

/-- The thread can go on, unless it is gone, waits for a command, or waits with its
reply. -/
theorem threadReady
    (present : worker.isGone = false)
    (busy : worker.phase = .receiving → worker.mailbox ≠ [])
    (unblocked : ¬worker.ReplyBlocked) :
    worker.ThreadReady := by
  cases phase : worker.phase with
  | receiving =>
      obtain ⟨command, rest, waiting⟩ := List.exists_cons_of_ne_nil (busy phase)
      exact ⟨.receive, by simp, _, by rw [step, stepReceive, phase, waiting]; rfl⟩
  | holding command =>
      refine ⟨.check, by simp, Option.isSome_iff_exists.mp ?_⟩
      rw [step, stepCheck, phase]
      cases command <;> simp only <;> split <;> rfl
  | admitted number batch =>
      exact ⟨.begin, by simp, _, by rw [step, stepBegin, phase]; rfl⟩
  | applying number batch =>
      refine ⟨.finish, by simp, Option.isSome_iff_exists.mp ?_⟩
      rw [step, stepFinish, phase]
      simp only
      split <;> rfl
  | finished number reply =>
      exact ⟨.rest, by simp, _, by rw [step, stepRest, phase]; rfl⟩
  | replying number reply =>
      refine ⟨.reply, by simp, Option.ne_none_iff_exists'.mp fun stuck => unblocked ?_⟩
      exact ⟨⟨number, reply, phase⟩, stuck⟩
  | leaving => exact ⟨.exit, by simp, _, by rw [step, stepExit, phase]; rfl⟩
  | exited => simp [isGone, phase] at present
  | dead => simp [isGone, phase] at present

/-- For every room in the mailbox, and under every schedule of callers, thread and owner:
between two calls a worker has at most one command or reply more than its mailbox has
room, so that a call never waits for room while the thread waits for the slot.  While a
call waits for room the thread can go on.  The command by which the owner closes the
mailbox is sent once, after all calls, and is not part of the backlog. -/
theorem channels_never_deadlock
    (stage : Stage)
    (ordinal : Nat)
    (settings : Settings)
    (clock : UInt64 → Timestamp)
    (reached : Worker)
    (reachable : Reachable (ofStage stage ordinal settings clock) reached) :
    (reached.call = .none → reached.backlog.length ≤ settings.mailboxCapacity + 1) ∧
    (reached.call = .none → reached.isClosed = false →
      reached.mailbox.length + reached.inHand + reached.undelivered ≤
        settings.mailboxCapacity + 1) ∧
    ¬(reached.SendBlocked ∧ reached.ReplyBlocked) ∧
    (reached.SendBlocked → reached.ThreadReady) := by
  have bounds := (WithinBounds.ofStage stage ordinal settings clock).reachable reachable
  have sameCapacity : reached.capacity = settings.mailboxCapacity := reachable.capacity_eq
  have short : reached.call = .none →
      reached.backlog.length ≤ settings.mailboxCapacity + 1 := by
    intro free
    rw [← sameCapacity]
    exact bounds.bounded (by simp [free])
  refine ⟨short, ?_, bounds.not_both_blocked, ?_⟩
  · intro free opened
    obtain ⟨unclosed, held⟩ := bounds.unclosed opened
    rw [← backlog_length unclosed held]
    exact short free
  · intro blocked
    obtain ⟨present, -, busy⟩ := blocked.full
    exact threadReady present busy fun replyBlocked =>
      bounds.not_both_blocked ⟨blocked, replyBlocked⟩

/-- Settings under which a call gives up at once, with this much room in a mailbox. -/
def hurried (room : Nat) : Settings :=
  { Settings.standard with mailboxCapacity := room, stageTimeout := some 0 }

/-- Two calls give up, one of them while the thread has taken its command, and a third
one finds no room. -/
def jam : List Action :=
  [.submit ⟨1, []⟩, .inspect, .send, .expire, .receive,
    .submit ⟨2, []⟩, .inspect, .send, .expire, .submit ⟨3, []⟩, .inspect]

theorem channels_never_deadlock_jam :
    ∃ reached,
      Reachable (ofStage .filter 0 (hurried 1) fun _ => default) reached ∧
      reached.SendBlocked ∧ reached.backlog = [0, 1] ∧
      ¬(reached.SendBlocked ∧ reached.ReplyBlocked) ∧ reached.ThreadReady := by
  have executed : (ofStage .filter 0 (hurried 1) fun _ => default).execute? jam = some (_, _) :=
    rfl
  have reachable := Reachable.of_execute? executed
  obtain ⟨-, -, unblocked, ready⟩ := channels_never_deadlock _ _ _ _ _ reachable
  exact ⟨_, reachable, ⟨⟨2, _, rfl⟩, rfl⟩, rfl, unblocked, ready ⟨⟨2, _, rfl⟩, rfl⟩⟩

end Worker
end StagePipeline
