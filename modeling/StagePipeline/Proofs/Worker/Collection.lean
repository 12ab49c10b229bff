import StagePipeline.Proofs.Worker.Account
import StagePipeline.Proofs.Worker.Wait

/-!
# The replies that calls take

A call that waits takes replies from the slot until it meets its own, and drops those of
calls that have given up before it.  All calls together take replies in the order in which
the thread has begun their jobs, so that the numbers increase over the life of a worker.
When a call has sent its command, no more is left before its own reply than fits into the
mailbox, the hand of the thread and the slot, and nothing comes in between: this bounds
what it drops.
-/

namespace StagePipeline
namespace Worker

/-- A reply that a call takes from the slot: the numbers of the two. -/
structure Pickup where
  call : UInt64
  reply : UInt64
  deriving DecidableEq

namespace Pickup

/-- Whether the reply is that of another call. -/
def isForeign (pickup : Pickup) : Bool :=
  pickup.reply != pickup.call

@[simp] theorem isForeign_mk (call reply : UInt64) :
    (Pickup.mk call reply).isForeign = (reply != call) :=
  rfl

end Pickup

/-- The reply that an action takes from the slot. -/
def pickup? (worker : Worker) (action : Action) : Option Pickup :=
  match action, worker.call, worker.slot with
  | .collect, .awaiting number _, some (answered, _) => some ⟨number, answered⟩
  | _, _, _ => none

/-- The replies that calls take from the slot under a schedule, in order. -/
def pickups (worker : Worker) : List Action → List Pickup
  | [] => []
  | action :: rest =>
      match worker.step action with
      | none => []
      | some transition => (worker.pickup? action).toList ++ transition.next.pickups rest

/-- How many replies of others a call has taken, and so dropped. -/
def dropCount (pickups : List Pickup) (number : UInt64) : Nat :=
  pickups.countP fun pickup => pickup.isForeign && pickup.call == number

/-- The number of the reply that an event tells to be dropped. -/
def Event.dropped? : Event → Option UInt64
  | .dropped number => some number
  | _ => none

/-- The number of a call that has returned with a reply of the stage. -/
def Receipt.served? (receipt : Receipt) : Option UInt64 :=
  if receipt.reply.isOfStage then receipt.number? else none

/-- The number of the job that the thread has begun and not replied to. -/
def Phase.begun? : Phase → Option UInt64
  | .applying number _ | .finished number _ | .replying number _ => some number
  | _ => none

/-- The numbers of the jobs that have been begun and whose replies may still be taken,
oldest first. -/
def owed (worker : Worker) : List UInt64 :=
  (worker.slot.map Prod.fst).toList ++ worker.phase.begun?.toList

/-- How many numbers in the backlog are not that of a call. -/
def ahead (worker : Worker) (number : UInt64) : Nat :=
  worker.backlog.countP (· != number)

variable {initial worker : Worker} {action : Action} {transition : Transition}

/-! ## Replies that are taken -/

theorem ThreadMove.pickup?_eq_none (move : ThreadMove worker action transition) :
    worker.pickup? action = none := by
  cases move <;> rfl

theorem OwnerMove.pickup?_eq_none (move : OwnerMove worker action transition) :
    worker.pickup? action = none := by
  cases move <;> rfl

theorem pickup?_eq_some
    {pickup : Pickup}
    (picked : worker.pickup? action = some pickup) :
    ∃ batch reply, worker.call = .awaiting pickup.call batch ∧
      worker.slot = some (pickup.reply, reply) := by
  unfold pickup? at picked
  split at picked
  · rename_i number batch answered reply awaiting filled
    cases picked
    exact ⟨batch, reply, awaiting, filled⟩
  · cases picked

/-- A drop is seen in the step in which a call takes the reply of another one. -/
theorem Move.dropped?_eq (move : Move worker action transition) :
    (transition.event?.bind Event.dropped?).toList =
      ((worker.pickup? action).toList.filter Pickup.isForeign).map Pickup.reply := by
  rcases move with move | move | move
  · cases move with
    | takeReply awaiting filled => simp [pickup?, awaiting, filled, Event.dropped?]
    | dropReply awaiting filled late =>
        simp [pickup?, awaiting, filled, Event.dropped?, List.filter_cons, late]
    | _ => rfl
  · rw [move.pickup?_eq_none]
    cases move <;> rfl
  · rw [move.pickup?_eq_none]
    cases move <;> rfl

/-- A call returns with a reply of the stage in the step in which it takes its own from the
slot. -/
theorem Move.served?_eq
    (move : Move worker action transition)
    (sequenced : worker.Sequenced) :
    ((worker.receipt? action transition.event?).bind Receipt.served?).toList =
      ((worker.pickup? action).toList.filter fun pickup => !pickup.isForeign).map
        Pickup.call := by
  rcases move with move | move | move
  · cases move with
    | @takeReply number batch reply awaiting filled =>
        have genuine := sequenced.genuine number reply (mem_replies_of_slot filled)
        simp [receipt?, Receipt.served?, pickup?, awaiting, filled, genuine, Action.isSubmit,
          Call.job?]
    | dropReply awaiting filled late => simp [receipt?, pickup?, awaiting, filled, late]
    | _ => rfl
  · rw [move.pickup?_eq_none, move.receipt?_eq_none]
    rfl
  · rw [move.pickup?_eq_none, move.receipt?_eq_none]
    rfl

/-- The replies that are seen to be dropped are those that calls take from others. -/
theorem pickups_dropped
    {schedule : List Action}
    {reached : Worker}
    {events : List Event}
    (executed : worker.execute? schedule = some (reached, events)) :
    events.filterMap Event.dropped? =
      ((worker.pickups schedule).filter Pickup.isForeign).map Pickup.reply := by
  induction schedule generalizing worker events with
  | nil =>
      cases executed
      rfl
  | cons action rest inductionHypothesis =>
      obtain ⟨transition, later, taken, continued, rfl⟩ := execute?_cons_eq_some executed
      simp only [pickups, taken, List.filterMap_append, List.filter_append, List.map_append,
        filterMap_toList, (Move.of_step taken).dropped?_eq, inductionHypothesis continued]

/-- The calls that the stage has answered are those that have taken their own reply. -/
theorem pickups_served
    {schedule : List Action}
    {reached : Worker}
    {events : List Event}
    (sequenced : worker.Sequenced)
    (bounds : worker.WithinBounds)
    (executed : worker.execute? schedule = some (reached, events)) :
    (worker.receipts schedule).filterMap Receipt.served? =
      ((worker.pickups schedule).filter fun pickup => !pickup.isForeign).map Pickup.call := by
  induction schedule generalizing worker events with
  | nil => rfl
  | cons action rest inductionHypothesis =>
      obtain ⟨transition, later, taken, continued, rfl⟩ := execute?_cons_eq_some executed
      have followed :=
        inductionHypothesis (sequenced.step bounds taken) (bounds.step taken) continued
      simp only [receipts, pickups, taken, List.filterMap_append, List.filter_append,
        List.map_append, filterMap_toList, (Move.of_step taken).served?_eq sequenced, followed]

/-! ## The order of the replies -/

/-- A reply is owed from the step on that begins its job, and taken before those that are
begun later. -/
theorem Move.owed_sublist (move : Move worker action transition) :
    List.Sublist
      ((worker.pickup? action).toList.map Pickup.reply ++ transition.next.owed)
      (worker.owed ++ (begun transition.event?.toList).map Prod.fst) := by
  rcases move with move | move | move
  · cases move with
    | handOver _ _ receiving => simp [owed, pickup?, begun, Phase.begun?, receiving]
    | takeReply awaiting filled | dropReply awaiting filled =>
        simp [owed, pickup?, begun, Event.job?, awaiting, filled]
    | claim | refuse | number | findBusy | findStopped | findClosed | enqueue | expire
    | disconnect => simp [owed, pickup?, begun, Event.job?]
  · rw [move.pickup?_eq_none]
    cases move with
    | begin known => simp [owed, begun, Event.job?, Phase.begun?, known]
    | deliver known _ empty => simp [owed, begun, Phase.begun?, known, empty]
    | receive known | hangUp known | accept known | heed known | finish known | die known
    | rest known | giveUp known | exit known => simp [owed, begun, Phase.begun?, known]
  · rw [move.pickup?_eq_none]
    cases move with
    | closeWithHandOver _ _ receiving => simp [owed, begun, Phase.begun?, receiving]
    | terminate | terminateAgain | close | closeWithCommand | join | abandon | release =>
        simp [owed, begun, Event.job?]

namespace Account

variable
  {events : List Event}
  {receipts : List Receipt}
  {calls : Nat}

/-- A reply that the call in progress does not wait for is that of an earlier call, which
has returned. -/
theorem late
    {number late : UInt64}
    {batch : Batch}
    {reply : Reply}
    (account : Account initial worker events receipts calls)
    (awaiting : worker.call = .awaiting number batch)
    (filled : worker.slot = some (late, reply))
    (foreign : late ≠ number) :
    late < number ∧ ∃ receipt ∈ receipts, receipt.number? = some late := by
  obtain ⟨other, applied, -⟩ := account.replied late reply (mem_replies_of_slot filled)
  have owned := account.owned _ (List.mem_append_left worker.jobs applied)
  have numbered := account.numbered
  rw [owners, awaiting] at owned numbered
  rcases List.mem_append.mp owned with returned | own
  · have earlier := (List.pairwise_append.mp (List.map_append ▸ numbered)).2.2 late
      (List.mem_map_of_mem returned) number List.mem_cons_self
    obtain ⟨receipt, issued, job⟩ := List.mem_filterMap.mp returned
    simp only [Receipt.job?, Option.map_eq_some_iff, Prod.mk.injEq] at job
    obtain ⟨_, numbered, rfl, -⟩ := job
    exact ⟨earlier, receipt, issued, numbered⟩
  · simp only [Call.job?, Option.toList_some, List.mem_singleton, Prod.mk.injEq] at own
    exact absurd own.1 foreign

/-- The numbers of later calls are larger. -/
theorem next_lt
    (account : Account initial worker events receipts calls)
    (few : calls < Word.limit)
    (move : Move worker action transition)
    (numbered : transition.next.next ≠ worker.next) :
    worker.next < transition.next.next := by
  obtain ⟨batch, claimed, rfl, rfl⟩ := move.of_next_ne numbered
  exact (account.number claimed few).taken (worker.next, batch) (by simp [owners, Call.job?])

/-- A call that takes a reply has taken a number before. -/
theorem pickup_lt
    {pickup : Pickup}
    (account : Account initial worker events receipts calls)
    (picked : worker.pickup? action = some pickup) :
    pickup.call < worker.next := by
  obtain ⟨batch, reply, awaiting, -⟩ := pickup?_eq_some picked
  exact account.taken (pickup.call, batch) (by simp [owners, awaiting, Call.job?])

end Account

/-! ## How many replies a call drops -/

theorem dropCount_append (pickups later : List Pickup) (number : UInt64) :
    dropCount (pickups ++ later) number = dropCount pickups number + dropCount later number :=
  List.countP_append

theorem dropCount_eq_zero
    {pickups : List Pickup}
    {number : UInt64}
    (earlier : ∀ pickup ∈ pickups, pickup.call < number) :
    dropCount pickups number = 0 := by
  rw [dropCount, List.countP_eq_zero]
  intro pickup taken
  simp [UInt64.ne_of_lt (earlier pickup taken)]

/-- A call that takes the reply of another one has one number less ahead. -/
theorem ahead_of_filled
    {number late : UInt64}
    {reply : Reply}
    (filled : worker.slot = some (late, reply))
    (foreign : late ≠ number) :
    worker.ahead number = { worker with slot := none }.ahead number + 1 := by
  simp [ahead, backlog, filled, foreign]

/-- A call that sends its command has no more ahead than there is already. -/
theorem ahead_concat_le
    {next : Worker}
    {number : UInt64}
    (sent : next.backlog = worker.backlog ++ [number]) :
    next.ahead number ≤ worker.backlog.length := by
  rw [ahead, sent, List.countP_append]
  simpa using List.countP_le_length

/-- What the calls have dropped, and what the call in progress may still drop, stays within
the room of mailbox, thread and slot. -/
structure Rationed (worker : Worker) (pickups : List Pickup) : Prop where
  earlier : ∀ pickup ∈ pickups, pickup.call < worker.next
  /-- A call takes replies only after it has sent its command. -/
  unsent : ∀ number batch, worker.call = .sending number batch →
    ∀ pickup ∈ pickups, pickup.call < number
  few : ∀ number, dropCount pickups number ≤ worker.capacity + 1
  spare : ∀ number batch, worker.call = .awaiting number batch →
    dropCount pickups number + worker.ahead number ≤ worker.capacity + 1

namespace Rationed

variable {pickups : List Pickup}

/-- A call without a number may drop nothing. -/
theorem withCall
    {call : Call}
    (rationed : worker.Rationed pickups)
    (unnumbered : call.job? = none) :
    { worker with call }.Rationed pickups := by
  refine ⟨rationed.earlier, ?_, rationed.few, ?_⟩
  · rintro number batch rfl
    cases unnumbered
  · rintro number batch rfl
    cases unnumbered

/-- A command that is sent has at most the former backlog ahead of it. -/
theorem send
    {next : Worker}
    {number : UInt64}
    {batch : Batch}
    (rationed : worker.Rationed pickups)
    (bounds : worker.WithinBounds)
    (sending : worker.call = .sending number batch)
    (sent : next.backlog = worker.backlog ++ [number])
    (awaiting : next.call = .awaiting number batch)
    (sameNext : next.next = worker.next)
    (sameCapacity : next.capacity = worker.capacity) :
    next.Rationed pickups := by
  refine ⟨sameNext ▸ rationed.earlier, by simp [awaiting], sameCapacity ▸ rationed.few, ?_⟩
  rw [awaiting, sameCapacity]
  rintro _ _ ⟨⟩
  rw [dropCount_eq_zero (rationed.unsent number batch sending), Nat.zero_add]
  exact Nat.le_trans (ahead_concat_le sent) (bounds.bounded (by simp [sending]))

/-- A step that leaves the calls alone adds nothing to the backlog. -/
theorem unmoved
    {next : Worker}
    (rationed : worker.Rationed pickups)
    (sameCall : next.call = worker.call)
    (sameNext : next.next = worker.next)
    (sameCapacity : next.capacity = worker.capacity)
    (fewer : next.backlog.Sublist worker.backlog) :
    next.Rationed pickups := by
  refine ⟨sameNext ▸ rationed.earlier, sameCall ▸ rationed.unsent,
    sameCapacity ▸ rationed.few, ?_⟩
  rw [sameCall, sameCapacity]
  intro number batch awaiting
  exact Nat.le_trans (Nat.add_le_add_left fewer.countP_le _)
    (rationed.spare number batch awaiting)

/-- A step of a caller that takes no reply. -/
theorem caller
    (rationed : worker.Rationed pickups)
    (bounds : worker.WithinBounds)
    (move : CallerMove worker action transition)
    (unpicked : worker.pickup? action = none)
    (onward : transition.next.next ≠ worker.next → worker.next < transition.next.next) :
    transition.next.Rationed pickups := by
  cases move with
  | claim | findBusy | findStopped | findClosed | expire | disconnect =>
      exact rationed.withCall rfl
  | refuse => exact rationed
  | number claimed =>
      refine ⟨fun pickup taken => ?_, ?_, rationed.few, nofun⟩
      · exact UInt64.lt_trans (rationed.earlier pickup taken) (onward (by simp))
      · rintro _ _ ⟨⟩
        exact rationed.earlier
  | handOver sending noRoom receiving =>
      have sent := backlog_handOver receiving (bounds.mailbox_eq_nil noRoom)
      exact rationed.send bounds sending (sent _ _ _) rfl rfl rfl
  | enqueue sending =>
      exact rationed.send bounds sending (backlog_enqueue _ _ _ _) rfl rfl rfl
  | takeReply awaiting filled | dropReply awaiting filled =>
      simp [pickup?, awaiting, filled] at unpicked

/-- A call takes its own reply, and returns. -/
theorem takeOwn
    {number : UInt64}
    (rationed : worker.Rationed pickups)
    (taken : number < worker.next) :
    { worker with slot := none, call := .none }.Rationed
      (pickups ++ [Pickup.mk number number]) := by
  refine ⟨?_, nofun, fun other => ?_, nofun⟩
  · rw [List.forall_mem_append, List.forall_mem_singleton]
    exact ⟨rationed.earlier, taken⟩
  · simpa [dropCount_append, dropCount] using rationed.few other

/-- A call drops the reply of another one, and has one less ahead of its own.  Only the count
of the call in progress grows. -/
theorem dropOther
    {number late : UInt64}
    {batch : Batch}
    {reply : Reply}
    (rationed : worker.Rationed pickups)
    (taken : number < worker.next)
    (awaiting : worker.call = .awaiting number batch)
    (filled : worker.slot = some (late, reply))
    (foreign : late ≠ number) :
    { worker with slot := none }.Rationed (pickups ++ [Pickup.mk number late]) := by
  have one : ∀ other, dropCount [⟨number, late⟩] other = if number = other then 1 else 0 := by
    simp [dropCount, List.countP_cons, foreign]
  have spare := rationed.spare number batch awaiting
  rw [ahead_of_filled filled foreign] at spare
  refine ⟨?_, by simp [awaiting], fun other => ?_, ?_⟩
  · rw [List.forall_mem_append, List.forall_mem_singleton]
    exact ⟨rationed.earlier, taken⟩
  · rw [dropCount_append, one]
    split
    · rename_i same
      subst same
      change _ ≤ worker.capacity + 1
      omega
    · exact rationed.few other
  · intro own content same
    cases awaiting.symm.trans same
    rw [dropCount_append, one, if_pos rfl, Nat.add_right_comm, Nat.add_assoc]
    exact spare

/-- A step of a caller that takes a reply. -/
theorem pick
    {pickup : Pickup}
    (rationed : worker.Rationed pickups)
    (move : CallerMove worker action transition)
    (picked : worker.pickup? action = some pickup)
    (taken : pickup.call < worker.next) :
    transition.next.Rationed (pickups ++ [pickup]) := by
  cases move with
  | takeReply awaiting filled =>
      simp only [pickup?, awaiting, filled, Option.some.injEq] at picked
      subst picked
      exact rationed.takeOwn taken
  | dropReply awaiting filled foreign =>
      simp only [pickup?, awaiting, filled, Option.some.injEq] at picked
      subst picked
      exact rationed.dropOther taken awaiting filled foreign
  | _ => cases picked

end Rationed

/-! ## What holds of all replies that have been taken -/

/-- What holds of the replies that calls have taken so far. -/
structure Collected
    (worker : Worker)
    (events : List Event)
    (receipts : List Receipt)
    (pickups : List Pickup) :
    Prop where
  /-- Replies are taken in the order in which their jobs have been begun. -/
  inOrder : List.Sublist (pickups.map Pickup.reply ++ worker.owed) ((begun events).map Prod.fst)
  /-- A reply that is dropped is that of an earlier call, which has returned. -/
  past : ∀ pickup ∈ pickups, pickup.isForeign = true →
    pickup.reply < pickup.call ∧ ∃ receipt ∈ receipts, receipt.number? = some pickup.reply
  rationed : worker.Rationed pickups

namespace Collected

variable
  {events : List Event}
  {receipts : List Receipt}
  {pickups : List Pickup}
  {calls : Nat}

theorem ofStage
    (stage : Stage)
    (ordinal : Nat)
    (settings : Settings)
    (clock : UInt64 → Timestamp) :
    Collected (ofStage stage ordinal settings clock) [] [] [] where
  inOrder := .slnil
  past := nofun
  rationed := ⟨nofun, nofun, fun _ => Nat.zero_le _, nofun⟩

theorem step
    (collected : Collected worker events receipts pickups)
    (account : Account initial worker events receipts calls)
    (bounds : worker.WithinBounds)
    (taken : worker.step action = some transition)
    (few : calls < Word.limit) :
    Collected transition.next (events ++ transition.event?.toList)
      (receipts ++ (worker.receipt? action transition.event?).toList)
      (pickups ++ (worker.pickup? action).toList) := by
  have ⟨inOrder, past, rationed⟩ := collected
  have move := Move.of_step taken
  refine ⟨?_, ?_, ?_⟩
  · rw [begun_append, List.map_append, List.map_append, List.append_assoc]
    refine (move.owed_sublist.append_left _).trans ?_
    rw [← List.append_assoc]
    exact inOrder.append_right _
  · intro pickup present foreign
    rcases List.mem_append.mp present with old | new
    · obtain ⟨earlier, receipt, issued, numbered⟩ := past pickup old foreign
      exact ⟨earlier, receipt, List.mem_append_left _ issued, numbered⟩
    · obtain ⟨batch, reply, awaiting, filled⟩ := pickup?_eq_some (Option.mem_toList.mp new)
      obtain ⟨earlier, receipt, issued, numbered⟩ :=
        account.late awaiting filled (by simpa [Pickup.isForeign] using foreign)
      exact ⟨earlier, receipt, List.mem_append_left _ issued, numbered⟩
  · rcases move with move | move | move
    · cases picked : worker.pickup? action with
      | none =>
          rw [Option.toList_none, List.append_nil]
          exact rationed.caller bounds move picked (account.next_lt few (.caller move))
      | some pickup => exact rationed.pick move picked (account.pickup_lt picked)
    · rw [move.pickup?_eq_none, Option.toList_none, List.append_nil]
      exact rationed.unmoved move.call_eq (by cases move <;> rfl) (Move.thread move).capacity_eq
        move.backlog_sublist
    · rw [move.pickup?_eq_none, Option.toList_none, List.append_nil]
      exact rationed.unmoved move.call_eq (by cases move <;> rfl) (Move.owner move).capacity_eq
        move.backlog_sublist

theorem execute
    (collected : Collected worker events receipts pickups)
    (account : Account initial worker events receipts calls)
    (bounds : worker.WithinBounds)
    {schedule : List Action}
    {reached : Worker}
    {later : List Event}
    (executed : worker.execute? schedule = some (reached, later))
    (few : calls + schedule.countP Action.isSubmit < Word.limit) :
    Collected reached (events ++ later) (receipts ++ worker.receipts schedule)
      (pickups ++ worker.pickups schedule) := by
  induction schedule generalizing worker events receipts pickups calls later with
  | nil =>
      cases executed
      simpa [Worker.receipts, Worker.pickups] using collected
  | cons action rest inductionHypothesis =>
      obtain ⟨transition, following, taken, continued, rfl⟩ := execute?_cons_eq_some executed
      rw [countP_isSubmit_cons, ← Nat.add_assoc] at few
      have nowFew : calls < Word.limit := by omega
      have followed := inductionHypothesis (collected.step account bounds taken nowFew)
        (account.step taken nowFew) (bounds.step taken) continued few
      simpa [Worker.receipts, Worker.pickups, taken, List.append_assoc] using followed

end Collected

/-! ## Calls drop the past -/

/-- Later calls bear larger numbers, and so do the replies that calls take later from a
worker.  A call returns with a reply of the stage if it has taken its own, and drops all
others that it takes.  What it drops are replies to calls before it, which have returned,
and there are at most as many as the mailbox has room and one more.  Its wait is over when
it has taken its own reply, when its time is over, or when it finds the thread gone; until
then somebody can go on, and caller and thread have few steps ahead of them. -/
theorem drops_only_past
    (stage : Stage)
    (ordinal : Nat)
    (settings : Settings)
    (clock : UInt64 → Timestamp)
    (schedule : List Action)
    (reached : Worker)
    (events : List Event)
    (executed :
      (ofStage stage ordinal settings clock).execute? schedule = some (reached, events))
    (few : schedule.countP Action.isSubmit < Word.limit) :
    let worker := ofStage stage ordinal settings clock
    let pickups := worker.pickups schedule
    let receipts := worker.receipts schedule
    (receipts.filterMap Receipt.number? ++ (reached.call.job?.map Prod.fst).toList).Pairwise
      (· < ·) ∧
    (pickups.map Pickup.reply).Pairwise (· < ·) ∧
    receipts.filterMap Receipt.served? =
      (pickups.filter fun pickup => !pickup.isForeign).map Pickup.call ∧
    events.filterMap Event.dropped? = (pickups.filter Pickup.isForeign).map Pickup.reply ∧
    (∀ pickup ∈ pickups, pickup.isForeign = true →
      pickup.reply < pickup.call ∧ ∃ receipt ∈ receipts, receipt.number? = some pickup.reply) ∧
    (∀ number, dropCount pickups number ≤ settings.mailboxCapacity + 1) ∧
    (∀ number batch, reached.call = .awaiting number batch → reached.WaitEnds number batch) := by
  intro worker pickups receipts
  have account := (Account.ofStage stage ordinal settings clock).execute executed
    (by simpa using few)
  have bounds := WithinBounds.ofStage stage ordinal settings clock
  have sequenced := Sequenced.ofStage stage ordinal settings clock
  have reachable := Reachable.of_execute? executed
  have collected := (Collected.ofStage stage ordinal settings clock).execute
    (Account.ofStage stage ordinal settings clock) bounds executed (by simpa using few)
  simp only [List.nil_append, Nat.zero_add] at account collected
  refine ⟨?_, ?_, pickups_served sequenced bounds executed, pickups_dropped executed,
    collected.past, ?_, ?_⟩
  · have numbered := account.numbered
    rw [owners, List.map_append, map_fst_filterMap_job] at numbered
    rw [Option.toList_map]
    exact numbered
  · have increasing := account.ordered
    rw [List.map_append] at increasing
    exact (List.pairwise_append.mp increasing).1.sublist
      ((List.sublist_append_left _ _).trans collected.inOrder)
  · have sameCapacity : reached.capacity = settings.mailboxCapacity := reachable.capacity_eq
    rw [← sameCapacity]
    exact collected.rationed.few
  · intro number batch awaiting
    exact (bounds.reachable reachable).waitEnds (sequenced.reachable bounds reachable) awaiting

/-- A worker with room for one command, whose calls give up at once. -/
def cramped : Worker :=
  ofStage .filter 0 (hurried 1) fun _ => default

/-- Two calls give up, and the third one meets both their replies before its own. -/
def sifting : List Action :=
  jam ++ [.check, .begin, .finish, .rest, .reply, .receive, .send, .collect, .check, .begin,
    .finish, .rest, .reply, .collect, .receive, .check, .begin, .finish, .rest, .reply]

/-- A call drops as many replies as there can be. -/
theorem drops_only_past_sifting :
    ∃ reached events,
      cramped.execute? sifting = some (reached, events) ∧
      sifting.countP Action.isSubmit < Word.limit ∧
      cramped.pickups sifting = [⟨2, 0⟩, ⟨2, 1⟩] ∧
      dropCount (cramped.pickups sifting) 2 = cramped.capacity + 1 ∧
      (∀ pickup ∈ cramped.pickups sifting, pickup.isForeign = true →
        pickup.reply < pickup.call) ∧
      reached.call = .awaiting 2 ⟨3, []⟩ ∧ reached.WaitEnds 2 ⟨3, []⟩ := by
  have executed : cramped.execute? sifting = some (_, _) := rfl
  have few : sifting.countP Action.isSubmit < Word.limit := by decide
  obtain ⟨-, -, -, -, past, -, waitEnds⟩ := drops_only_past _ _ _ _ sifting _ _ executed few
  exact ⟨_, _, executed, few, rfl, rfl, fun pickup taken foreign => (past pickup taken foreign).1,
    rfl, waitEnds 2 _ rfl⟩

end Worker
end StagePipeline
