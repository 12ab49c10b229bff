import StagePipeline.Proofs.Worker.Sequence

/-!
# When a worker accepts the next call

A worker whose last accepted call has been answered by the stage is at rest, whatever
calls gave up before it.  From there on only the next call can move it, and that call
gets as far as its command: nobody refuses it.
-/

namespace StagePipeline
namespace Worker

variable {worker : Worker} {action : Action} {transition : Transition}

/-! ## At rest -/

namespace Rests

/-- The thread of a worker at rest waits. -/
theorem no_thread_move (rests : worker.Rests) : ¬ThreadMove worker action transition := by
  intro move
  exact move.not_waiting rests.receiving rests.mailbox (by rw [isClosed, rests.serving])

/-- The owner of a worker at rest waits for the call in progress. -/
theorem no_owner_move
    (rests : worker.Rests)
    (called : worker.call ≠ .none) :
    ¬OwnerMove worker action transition := by
  intro move
  rcases move.free_or_ended with free | ended
  · exact called free
  · exact ended rests.serving

theorem isGone_eq_false (rests : worker.Rests) : worker.isGone = false := by
  rw [isGone, rests.receiving]

/-- A call at a worker at rest makes no difference before it sends its command. -/
theorem withCall
    {call : Call}
    {next : UInt64}
    (rests : worker.Rests) :
    { worker with call, next }.Rests :=
  ⟨rests.receiving, rests.mailbox, rests.slot, rests.mark, rests.serving⟩

theorem state_eq_idle
    (rests : worker.Rests)
    (free : worker.call = .none) :
    worker.state = .idle := by
  rw [state, if_neg (not_not_intro rests.serving), rests.mark]
  exact if_pos free

/-- A worker at rest takes a call. -/
theorem step_submit
    (rests : worker.Rests)
    (free : worker.call = .none)
    (batch : Batch) :
    worker.step (.submit batch) = some ⟨{ worker with call := .claimed batch }, none⟩ :=
  step_submit_of_free (by rw [acceptsCalls, rests.serving]) free batch

/-- A call at a worker at rest is given the next number. -/
theorem step_inspect
    {batch : Batch}
    (rests : worker.Rests)
    (claimed : worker.call = .claimed batch) :
    worker.step .inspect =
      some ⟨{ worker with call := .sending worker.next batch, next := worker.next + 1 }, none⟩ := by
  simp [step, stepInspect, claimed, rests.serving, rests.mark, silently]

/-- The command of a call gets into the empty mailbox, or into the hand of the thread. -/
theorem step_send
    {number : UInt64}
    {batch : Batch}
    (rests : worker.Rests)
    (sending : worker.call = .sending number batch) :
    ∃ accepted, worker.step .send = some ⟨accepted, none⟩ ∧
      accepted.call = .awaiting number batch := by
  have present := rests.isGone_eq_false
  by_cases noRoom : worker.capacity = 0
  · simp [step, stepSend, sending, present, offer?, noRoom, rests.receiving, silently]
  · have space : 0 < worker.capacity := Nat.pos_of_ne_zero noRoom
    simp [step, stepSend, sending, present, offer?, noRoom, rests.mailbox, space, silently]

end Rests

/-! ## The last call that was accepted -/

/-- The receipt of the last call that took a number, as all calls do that are not
refused. -/
def lastAccepted? (receipts : List Receipt) : Option Receipt :=
  (receipts.filter fun receipt => receipt.number?.isSome).getLast?

theorem lastAccepted?_append_refused
    (receipts : List Receipt)
    {receipt : Receipt}
    (refused : receipt.number? = none) :
    lastAccepted? (receipts ++ [receipt]) = lastAccepted? receipts := by
  simp [lastAccepted?, refused]

theorem lastAccepted?_append_accepted
    (receipts : List Receipt)
    {receipt : Receipt}
    (accepted : receipt.number?.isSome = true) :
    lastAccepted? (receipts ++ [receipt]) = some receipt := by
  simp [lastAccepted?, accepted]

/-- If the stage has answered the last call that was accepted, the worker is at rest. -/
def Settled (worker : Worker) (receipts : List Receipt) : Prop :=
  ∀ receipt, lastAccepted? receipts = some receipt → receipt.reply.isOfStage = true →
    worker.call.job? = none → worker.tenure = .serving → worker.isGone = false → worker.Rests

namespace Settled

variable {receipts : List Receipt}

/-- A step of a caller.  The call that the stage answers leaves the worker at rest, and a
call that is refused leaves it there. -/
theorem caller
    (settled : worker.Settled receipts)
    (sequenced : worker.Sequenced)
    (bounds : worker.WithinBounds)
    (narrow : worker.capacity + 1 < Word.limit)
    (move : CallerMove worker action transition) :
    transition.next.Settled
      (receipts ++ (worker.receipt? action transition.event?).toList) := by
  intro receipt last genuine idle serving present
  cases move with
  | claim accepts free =>
      change lastAccepted? (receipts ++ []) = some receipt at last
      rw [List.append_nil] at last
      exact (settled receipt last genuine (by rw [free]; rfl) serving present).withCall
  | refuse accepts called =>
      rw [receipt?, Option.toList_some, lastAccepted?_append_refused receipts rfl] at last
      exact settled receipt last genuine idle serving present
  | findBusy claimed =>
      rw [receipt?, Option.toList_some,
        lastAccepted?_append_refused receipts (by rw [claimed]; rfl)] at last
      exact (settled receipt last genuine (by rw [claimed]; rfl) serving present).withCall
  | findStopped claimed =>
      rw [receipt?, Option.toList_some,
        lastAccepted?_append_refused receipts (by rw [claimed]; rfl)] at last
      exact (settled receipt last genuine (by rw [claimed]; rfl) serving present).withCall
  | number | handOver | enqueue => cases idle
  | findClosed sending gone => exact absurd (gone.symm.trans present) (by simp)
  | takeReply awaiting filled =>
      exact sequenced.rests_of_own_reply bounds narrow present awaiting filled
  | dropReply awaiting =>
      rw [awaiting] at idle
      cases idle
  | expire awaiting =>
      rw [receipt?, Option.toList_some,
        lastAccepted?_append_accepted receipts (by rw [awaiting]; rfl)] at last
      cases last
      cases genuine
  | disconnect awaiting empty gone => exact absurd (gone.symm.trans present) (by simp)

/-- What is settled stays settled, with the receipt of the step among the others. -/
theorem step
    (settled : worker.Settled receipts)
    (sequenced : worker.Sequenced)
    (bounds : worker.WithinBounds)
    (narrow : worker.capacity + 1 < Word.limit)
    (taken : worker.step action = some transition) :
    transition.next.Settled
      (receipts ++ (worker.receipt? action transition.event?).toList) := by
  rcases Move.of_step taken with move | move | move
  · exact settled.caller sequenced bounds narrow move
  · rw [move.receipt?_eq_none, Option.toList_none, List.append_nil]
    intro receipt last genuine idle serving present
    rw [move.call_eq] at idle
    rw [move.tenure_eq] at serving
    have rests := settled receipt last genuine idle serving
      ((Move.thread move).present_of_next present)
    exact absurd move rests.no_thread_move
  · intro receipt last genuine idle serving
    exact absurd serving move.tenure_ne_serving

/-- What holds of the receipts so far holds of those after a schedule. -/
theorem execute
    (settled : worker.Settled receipts)
    (sequenced : worker.Sequenced)
    (bounds : worker.WithinBounds)
    (narrow : worker.capacity + 1 < Word.limit)
    {schedule : List Action}
    {reached : Worker}
    {events : List Event}
    (executed : worker.execute? schedule = some (reached, events)) :
    reached.Settled (receipts ++ worker.receipts schedule) ∧ reached.Sequenced := by
  induction schedule generalizing worker receipts events with
  | nil =>
      cases executed
      rw [Worker.receipts, List.append_nil]
      exact ⟨settled, sequenced⟩
  | cons action rest inductionHypothesis =>
      obtain ⟨transition, later, taken, continued, -⟩ := execute?_cons_eq_some executed
      have sameCapacity := (Move.of_step taken).capacity_eq
      have followed := inductionHypothesis (settled.step sequenced bounds narrow taken)
        (sequenced.step bounds taken) (bounds.step taken) (sameCapacity ▸ narrow) continued
      simpa [Worker.receipts, taken] using followed

end Settled

/-! ## The next call -/

/-- A reply by which a worker refuses a call. -/
def Refuses (worker : Worker) (reply : Reply) : Prop :=
  reply = .error worker.stillBusy ∨ reply = .error worker.stopped ∨
    reply = .error worker.mailboxClosed

/-- A reply of the stage is no refusal. -/
theorem not_refuses_of_isOfStage
    {reply : Reply}
    (genuine : reply.isOfStage = true) :
    ¬worker.Refuses reply := by
  rintro (rfl | rfl | rfl) <;> cases genuine

theorem Move.refuses_iff
    (move : Move worker action transition)
    (reply : Reply) :
    transition.next.Refuses reply ↔ worker.Refuses reply := by
  obtain ⟨sameStage, -⟩ := move.fixed
  simp only [Refuses, stillBusy, stopped, mailboxClosed, unavailable, name, sameStage]

/-- A call that has not sent its command yet has met a worker at rest. -/
def Undisturbed (worker : Worker) : Prop :=
  (∀ batch, worker.call = .claimed batch → worker.Rests) ∧
    ∀ number batch, worker.call = .sending number batch → worker.Rests

namespace Undisturbed

/-- A worker that nobody disturbs refuses no call that it has let in. -/
theorem step
    (undisturbed : worker.Undisturbed)
    (sequenced : worker.Sequenced)
    (same : action.isSubmit = false)
    (taken : worker.step action = some transition) :
    transition.next.Undisturbed ∧
      ∀ receipt ∈ worker.receipt? action transition.event?, ¬worker.Refuses receipt.reply := by
  obtain ⟨claimedRests, sendingRests⟩ := undisturbed
  rcases Move.of_step taken with move | move | move
  · cases move with
    | claim | refuse => cases same
    | number claimed =>
        refine ⟨⟨nofun, fun _ _ _ => (claimedRests _ claimed).withCall⟩, nofun⟩
    | findBusy claimed serving busy =>
        exact absurd ((claimedRests _ claimed).mark.symm.trans busy) (by simp)
    | findStopped claimed stopped =>
        have rests := claimedRests _ claimed
        rcases stopped with stopped | stopped
        · exact absurd rests.serving stopped
        · exact absurd (rests.mark.symm.trans stopped) (by simp)
    | findClosed sending gone =>
        exact absurd (gone.symm.trans (sendingRests _ _ sending).isGone_eq_false) (by simp)
    | handOver | enqueue => exact ⟨⟨nofun, nofun⟩, nofun⟩
    | @takeReply number batch reply awaiting filled =>
        refine ⟨⟨nofun, nofun⟩, ?_⟩
        rintro _ ⟨⟩
        exact not_refuses_of_isOfStage
          (sequenced.genuine number reply (mem_replies_of_slot filled))
    | dropReply awaiting => exact ⟨⟨by simp [awaiting], by simp [awaiting]⟩, nofun⟩
    | expire awaiting =>
        refine ⟨⟨nofun, nofun⟩, ?_⟩
        rintro _ ⟨⟩
        simp [Refuses, stillBusy, stopped, mailboxClosed, unavailable]
    | disconnect awaiting =>
        refine ⟨⟨nofun, nofun⟩, ?_⟩
        rintro _ ⟨⟩
        simp [Refuses, stillBusy, stopped, mailboxClosed, threadGone, unavailable]
  · refine ⟨⟨?_, ?_⟩, by rw [move.receipt?_eq_none]; exact nofun⟩
    · intro batch claimed
      rw [move.call_eq] at claimed
      exact absurd move (claimedRests batch claimed).no_thread_move
    · intro number batch sending
      rw [move.call_eq] at sending
      exact absurd move (sendingRests number batch sending).no_thread_move
  · refine ⟨⟨?_, ?_⟩, by rw [move.receipt?_eq_none]; exact nofun⟩
    · intro batch claimed
      rw [move.call_eq] at claimed
      exact absurd move ((claimedRests batch claimed).no_owner_move (by simp [claimed]))
    · intro number batch sending
      rw [move.call_eq] at sending
      exact absurd move ((sendingRests number batch sending).no_owner_move (by simp [sending]))

/-- Under no schedule without further calls is the call in progress refused. -/
theorem receipts
    (undisturbed : worker.Undisturbed)
    (sequenced : worker.Sequenced)
    (bounds : worker.WithinBounds)
    {schedule : List Action}
    (alone : ∀ action ∈ schedule, action.isSubmit = false) :
    ∀ receipt ∈ worker.receipts schedule, ¬worker.Refuses receipt.reply := by
  induction schedule generalizing worker with
  | nil => exact nofun
  | cons action rest inductionHypothesis =>
      rw [List.forall_mem_cons] at alone
      cases taken : worker.step action with
      | none => simp [Worker.receipts, taken]
      | some transition =>
          obtain ⟨onward, unrefused⟩ := undisturbed.step sequenced alone.1 taken
          have followed :=
            inductionHypothesis onward (sequenced.step bounds taken) (bounds.step taken) alone.2
          simp only [(Move.of_step taken).refuses_iff] at followed
          simp only [Worker.receipts, taken, List.mem_append, Option.mem_toList]
          rintro receipt (issued | issued)
          · exact unrefused receipt issued
          · exact followed receipt issued

end Undisturbed

/-- A worker that is seen as idle, and takes the next call. -/
structure AcceptsNext (worker : Worker) : Prop where
  idle : worker.state = .idle
  /-- The call can send its command at once. -/
  accepts : ∀ batch, ∃ accepted,
    worker.execute? [.submit batch, .inspect, .send] = some (accepted, []) ∧
      accepted.call = .awaiting worker.next batch
  /-- Whatever else happens, as long as nobody else calls, it is not refused. -/
  unrefused : ∀ batch later, (∀ action ∈ later, action.isSubmit = false) →
    ∀ receipt ∈ worker.receipts (.submit batch :: later), ¬worker.Refuses receipt.reply

/-- A worker at rest accepts the next call, whatever its batch. -/
theorem Rests.acceptsNext
    (rests : worker.Rests)
    (free : worker.call = .none)
    (sequenced : worker.Sequenced)
    (bounds : worker.WithinBounds) :
    worker.AcceptsNext := by
  refine ⟨rests.state_eq_idle free, ?_, ?_⟩
  · intro batch
    have claimed : { worker with call := .claimed batch }.Rests := rests.withCall
    have numbered :
        { worker with call := .sending worker.next batch, next := worker.next + 1 }.Rests :=
      rests.withCall
    obtain ⟨accepted, sent, awaiting⟩ := numbered.step_send rfl
    refine ⟨accepted, ?_, awaiting⟩
    simp [rests.step_submit free, claimed.step_inspect rfl, sent]
  · intro batch later alone
    have called := rests.step_submit free batch
    have undisturbed : { worker with call := .claimed batch }.Undisturbed :=
      ⟨fun _ _ => rests.withCall, nofun⟩
    have issued : worker.receipts (.submit batch :: later) =
        { worker with call := .claimed batch }.receipts later := by
      simp [Worker.receipts, called, receipt?]
    rw [issued]
    exact undisturbed.receipts (sequenced.step bounds called) (bounds.step called) alone

/-- Whenever the stage has answered the last call that a worker has accepted, no call is
in progress, and the thread is there and has not been told to stop, the next call is
accepted. -/
def AcceptsAfterReplies (worker : Worker) : Prop :=
  ∀ schedule reached events receipt,
    worker.execute? schedule = some (reached, events) →
    lastAccepted? (worker.receipts schedule) = some receipt →
    receipt.reply.isOfStage = true →
    reached.call = .none →
    reached.tenure = .serving →
    reached.isGone = false →
    reached.AcceptsNext

/-- A worker accepts the next call whenever all earlier ones have been replied to. -/
theorem acceptsAfterReplies
    {stage : Stage}
    {ordinal : Nat}
    {settings : Settings}
    {clock : UInt64 → Timestamp}
    (spawned : spawn? stage ordinal settings clock = some worker) :
    worker.AcceptsAfterReplies := by
  obtain ⟨rfl, narrow⟩ := narrow_of_spawn? spawned
  intro schedule reached events receipt executed last genuine free serving present
  have bounds := WithinBounds.ofStage stage ordinal settings clock
  have settled : (ofStage stage ordinal settings clock).Settled [] := nofun
  obtain ⟨settled, sequenced⟩ :=
    settled.execute (.ofStage stage ordinal settings clock) bounds narrow executed
  rw [List.nil_append] at settled
  have rests := settled receipt last genuine (by rw [free]; rfl) serving present
  exact rests.acceptsNext free sequenced (bounds.reachable (.of_execute? executed))

end Worker
end StagePipeline
