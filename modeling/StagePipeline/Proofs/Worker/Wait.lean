import StagePipeline.Proofs.Run.Effort
import StagePipeline.Proofs.Worker.Sequence

/-!
# The end of a wait

A call that has sent its command waits until it has taken its own reply, until its time is
over, or until it finds the thread gone.  Until then caller or thread can go on, the owner
cannot stop the worker, and every other call is refused: each step but a refusal uses up
effort, and so the wait comes to its end.
-/

namespace StagePipeline
namespace Worker

variable {worker : Worker} {action : Action} {transition : Transition}

/-- How many steps of a schedule are no new calls. -/
def labour (schedule : List Action) : Nat :=
  schedule.countP fun action => !action.isSubmit

/-- The ways in which a call that waits for its reply returns. -/
inductive Conclusion (worker : Worker) (number : UInt64) (batch : Batch) :
    Action → Option Event → Prop where
  | own {reply : Reply} :
      worker.slot = some (number, reply) →
      Conclusion worker number batch .collect (some (.answered batch reply))
  | timedOut {limit : Duration} :
      worker.limit? = some limit → worker.slot = none → worker.isGone = false →
      Conclusion worker number batch .expire
        (some (.answered batch (.error (.timedOut worker.name batch.index limit))))
  | disconnected :
      worker.slot = none → worker.isGone = true →
      Conclusion worker number batch .disconnect
        (some (.answered batch (.error worker.threadGone)))

/-- The caller can take a reply, or finds that none will come. -/
def CallerReady (worker : Worker) : Prop :=
  ∃ action ∈ [Action.collect, .disconnect], ∃ transition, worker.step action = some transition

/-- The wait of a call comes to its end. -/
structure WaitEnds (worker : Worker) (number : UInt64) (batch : Batch) : Prop where
  /-- The call goes on waiting, or returns. -/
  concludes : ∀ action transition, worker.step action = some transition →
    transition.next.call = .awaiting number batch ∨
      transition.next.call = .none ∧ worker.Conclusion number batch action transition.event?
  /-- Somebody can go on. -/
  ready : worker.CallerReady ∨ worker.ThreadReady
  /-- Caller and thread take few steps until the call returns, whatever others do. -/
  finite : ∀ later reached events, worker.execute? later = some (reached, events) →
    (∀ receipt ∈ worker.receipts later, receipt.number? ≠ some number) →
      labour later ≤ 7 * worker.capacity + 9

/-- A call that waits goes on waiting, or returns in one of three ways. -/
theorem Move.concludes
    {number : UInt64}
    {batch : Batch}
    (move : Move worker action transition)
    (awaiting : worker.call = .awaiting number batch) :
    transition.next.call = .awaiting number batch ∨
      transition.next.call = .none ∧ worker.Conclusion number batch action transition.event? := by
  rcases move with move | move | move
  · cases move with
    | claim accepts called | number called | findBusy called | findStopped called
    | findClosed called | handOver called | enqueue called =>
        cases awaiting.symm.trans called
    | refuse => exact Or.inl awaiting
    | takeReply called filled =>
        cases awaiting.symm.trans called
        exact Or.inr ⟨rfl, .own filled⟩
    | dropReply => exact Or.inl awaiting
    | expire called limited empty present =>
        cases awaiting.symm.trans called
        exact Or.inr ⟨rfl, .timedOut limited empty present⟩
    | disconnect called empty gone =>
        cases awaiting.symm.trans called
        exact Or.inr ⟨rfl, .disconnected empty gone⟩
  · exact Or.inl (move.call_eq.trans awaiting)
  · exact Or.inl (move.call_eq.trans awaiting)

/-- A call that waits is not alone: if no reply is there, the thread is gone or has the
command of the call to work off. -/
theorem Sequenced.ready
    {number : UInt64}
    {batch : Batch}
    (sequenced : worker.Sequenced)
    (awaiting : worker.call = .awaiting number batch) :
    worker.CallerReady ∨ worker.ThreadReady := by
  cases filled : worker.slot with
  | some held =>
      refine Or.inl ⟨.collect, by simp, Option.isSome_iff_exists.mp ?_⟩
      rw [Worker.step, stepCollect, awaiting, filled]
      simp only
      split <;> rfl
  | none =>
      cases present : worker.isGone with
      | true =>
          refine Or.inl ⟨.disconnect, by simp, Option.isSome_iff_exists.mp ?_⟩
          simp [Worker.step, stepDisconnect, awaiting, filled, present, answer, seen]
      | false =>
          refine Or.inr (threadReady present ?_ ?_)
          · intro receiving empty
            have last := sequenced.newest present number batch awaiting
            simp [backlog, filled, receiving, empty, Phase.number?] at last
          · intro blocked
            obtain ⟨_, _, other, -, held⟩ := blocked.filled
            cases filled.symm.trans held

/-- As long as a call waits, the owner waits too, and every step but that of a new call
lowers the effort. -/
theorem Move.effort_of_wait
    {number : UInt64}
    {batch : Batch}
    (move : Move worker action transition)
    (awaiting : worker.call = .awaiting number batch)
    (serving : worker.tenure = .serving)
    (still : ∀ receipt ∈ worker.receipt? action transition.event?,
      receipt.number? ≠ some number) :
    transition.next.call = .awaiting number batch ∧ transition.next.tenure = .serving ∧
      transition.next.effort + labour [action] ≤ worker.effort := by
  rcases move with move | move | move
  · cases move with
    | claim accepts called | number called | findBusy called | findStopped called
    | findClosed called | handOver called | enqueue called =>
        cases awaiting.symm.trans called
    | refuse => exact ⟨awaiting, serving, Nat.le_refl _⟩
    | takeReply called | expire called | disconnect called =>
        cases awaiting.symm.trans called
        exact absurd (by rw [called]; rfl) (still _ rfl)
    | dropReply called filled foreign =>
        exact ⟨awaiting, serving, (CallerMove.dropReply called filled foreign).effort_lt rfl⟩
  · have lowered : transition.next.effort + 1 ≤ worker.effort := move.effort_lt
    refine ⟨move.call_eq.trans awaiting, move.tenure_eq.trans serving, ?_⟩
    cases move <;> exact lowered
  · rcases move.free_or_ended with free | ended
    · cases awaiting.symm.trans free
    · exact absurd serving ended

/-- What the step lemma says, for a schedule. -/
theorem effort_of_wait
    {number : UInt64}
    {batch : Batch}
    {later : List Action}
    {reached : Worker}
    {events : List Event}
    (awaiting : worker.call = .awaiting number batch)
    (serving : worker.tenure = .serving)
    (executed : worker.execute? later = some (reached, events))
    (still : ∀ receipt ∈ worker.receipts later, receipt.number? ≠ some number) :
    reached.call = .awaiting number batch ∧ reached.tenure = .serving ∧
      reached.effort + labour later ≤ worker.effort := by
  induction later generalizing worker events with
  | nil =>
      cases executed
      exact ⟨awaiting, serving, Nat.le_refl _⟩
  | cons action rest inductionHypothesis =>
      obtain ⟨transition, following, taken, continued, -⟩ := execute?_cons_eq_some executed
      simp only [receipts, taken, List.forall_mem_append, Option.mem_toList] at still
      obtain ⟨onward, stays, lowered⟩ :=
        (Move.of_step taken).effort_of_wait awaiting serving still.1
      obtain ⟨last, kept, followed⟩ := inductionHypothesis onward stays continued still.2
      refine ⟨last, kept, ?_⟩
      have split : labour (action :: rest) = labour [action] + labour rest := by
        rw [← List.singleton_append, labour, List.countP_append]
        rfl
      omega

/-- The wait of every call that has sent its command comes to its end. -/
theorem WithinBounds.waitEnds
    {number : UInt64}
    {batch : Batch}
    (bounds : worker.WithinBounds)
    (sequenced : worker.Sequenced)
    (awaiting : worker.call = .awaiting number batch) :
    worker.WaitEnds number batch := by
  have serving := bounds.engaged (number, batch) (by rw [awaiting]; rfl)
  refine ⟨fun _ _ taken => (Move.of_step taken).concludes awaiting,
    sequenced.ready awaiting, ?_⟩
  intro later reached events executed still
  obtain ⟨last, kept, lowered⟩ := effort_of_wait awaiting serving executed still
  have room := bounds.room
  have hand := worker.phase.effort_le
  have slot : worker.slot.toList.length ≤ 1 := Option.length_toList_le
  simp only [effort, awaiting, serving, last, kept, Call.effort, Tenure.effort] at lowered
  omega

end Worker
end StagePipeline
