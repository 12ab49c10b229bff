import Mathlib.Data.List.Chain
import StagePipeline.Proofs.Worker.Backlog

/-!
# The numbers of a worker in a row

As long as a worker serves, the numbers in its backlog are consecutive, and the last one is
that of the newest call.  A reply that bears the number of the call in progress is
therefore the last thing that the worker had to do: once it has been collected the worker
is at rest, and accepts the next call.
-/

namespace StagePipeline
namespace Worker

/-- Every number is one more than the number in front of it. -/
def Consecutive (numbers : List UInt64) : Prop :=
  numbers.IsChain fun number later => later = number + 1

namespace Consecutive

theorem getLast?_eq
    {first : UInt64}
    {rest : List UInt64}
    (consecutive : Consecutive (first :: rest)) :
    (first :: rest).getLast? = some (first + UInt64.ofNat rest.length) := by
  induction rest generalizing first with
  | nil => simp
  | cons second rest inductionHypothesis =>
      obtain ⟨rfl, behind⟩ := List.isChain_cons_cons.mp consecutive
      rw [List.getLast?_cons_cons, inductionHypothesis behind, List.length_cons,
        Nat.add_comm rest.length, UInt64.ofNat_add, ← UInt64.add_assoc]
      rfl

/-- Fewer numbers than there are words only end with the number that they begin with if
there is one of them. -/
theorem eq_singleton
    {number : UInt64}
    {rest : List UInt64}
    (consecutive : Consecutive (number :: rest))
    (last : (number :: rest).getLast? = some number)
    (few : rest.length < Word.limit) :
    rest = [] := by
  rw [consecutive.getLast?_eq, Option.some.injEq, UInt64.add_eq_left] at last
  have wraps : rest.length % Word.limit = 0 := by
    have zero := congrArg UInt64.toNat last
    rwa [UInt64.toNat_ofNat'] at zero
  rw [Nat.mod_eq_of_lt few] at wraps
  exact List.length_eq_zero_iff.mp wraps

theorem extend
    {numbers : List UInt64}
    {number : UInt64}
    (consecutive : Consecutive (numbers ++ [number])) :
    Consecutive (numbers ++ [number] ++ [number + 1]) := by
  refine List.isChain_append.mpr ⟨consecutive, .singleton _, ?_⟩
  simp

end Consecutive

/-- What the mark of the thread is at a point of its loop. -/
def Phase.mark : Phase → WorkerState
  | .applying _ _ | .finished _ _ | .dead => .busy
  | .exited => .terminated
  | .receiving | .holding _ | .admitted _ _ | .replying _ _ | .leaving => .idle

/-- The number of a call that has not put its command into the mailbox. -/
def Call.unsentNumber? (call : Call) : Option UInt64 :=
  call.unsent?.map Prod.fst

/-- What a serving worker has to do is in the order of the calls. -/
structure Sequenced (worker : Worker) : Prop where
  marked : worker.mark = worker.phase.mark
  /-- The thread leaves its loop only after the owner has begun to stop it. -/
  attended : worker.tenure = .serving → worker.phase ≠ .leaving ∧ worker.phase ≠ .exited
  /-- The next number follows the backlog and the number that waits to be sent. -/
  consecutive : worker.tenure = .serving → worker.isGone = false →
    Consecutive (worker.backlog ++ worker.call.unsentNumber?.toList ++ [worker.next])
  /-- A call that waits for its reply has the newest number. -/
  newest : worker.isGone = false → ∀ number batch, worker.call = .awaiting number batch →
    worker.backlog.getLast? = some number
  /-- All replies come from the stage. -/
  genuine : ∀ number reply, (number, reply) ∈ worker.replies → reply.isOfStage = true

/-- A worker that has nothing to do. -/
structure Rests (worker : Worker) : Prop where
  receiving : worker.phase = .receiving
  mailbox : worker.mailbox = []
  slot : worker.slot = none
  mark : worker.mark = .idle
  serving : worker.tenure = .serving

variable {initial worker : Worker} {action : Action} {transition : Transition}

/-- A thread that is gone does not come back. -/
theorem Move.present_of_next
    (move : Move worker action transition)
    (present : transition.next.isGone = false) :
    worker.isGone = false := by
  rcases move with move | move | move
  · cases move with
    | handOver sending noRoom receiving => rw [isGone, receiving]
    | _ => exact present
  · exact move.present
  · cases move with
    | closeWithHandOver stopping noRoom receiving => rw [isGone, receiving]
    | _ => exact present

/-- The owner acts only between calls. -/
theorem OwnerMove.job?_eq_none
    (move : OwnerMove worker action transition)
    (bounds : worker.WithinBounds) :
    worker.call.job? = none := by
  rcases move.free_or_ended with free | ended
  · rw [free]
    rfl
  · exact bounds.unnumbered ended

theorem OwnerMove.tenure_ne_serving (move : OwnerMove worker action transition) :
    transition.next.tenure ≠ .serving := by
  cases move with
  | terminateAgain _ closed => simp [closed]
  | terminate | close | closeWithHandOver | closeWithCommand | join | abandon | release =>
      exact nofun

namespace Sequenced

theorem ofStage
    (stage : Stage)
    (ordinal : Nat)
    (settings : Settings)
    (clock : UInt64 → Timestamp) :
    (ofStage stage ordinal settings clock).Sequenced where
  marked := rfl
  attended _ := ⟨nofun, nofun⟩
  consecutive _ _ := .singleton 0
  newest _ := nofun
  genuine _ _ present := by cases present

/-- A call without a number makes no difference to the others. -/
theorem withCall
    {call : Call}
    (sequenced : worker.Sequenced)
    (sent : worker.call.unsent? = none)
    (unnumbered : call.job? = none) :
    { worker with call }.Sequenced := by
  obtain ⟨marked, attended, consecutive, newest, genuine⟩ := sequenced
  refine ⟨marked, attended, ?_, ?_, genuine⟩
  · intro serving present
    have before := consecutive serving present
    rw [Call.unsentNumber?, sent] at before
    cases call with
    | none => exact before
    | claimed batch => exact before
    | sending number batch => cases unnumbered
    | awaiting number batch => cases unnumbered
  · rintro _ number batch rfl
    cases unnumbered

/-- A step of a caller.  A call takes the next number, sends it behind all others, and
takes replies from the front. -/
theorem caller
    (sequenced : worker.Sequenced)
    (bounds : worker.WithinBounds)
    (move : CallerMove worker action transition) :
    transition.next.Sequenced := by
  have ⟨marked, attended, consecutive, newest, genuine⟩ := sequenced
  have stillGenuine : ∀ number reply, (number, reply) ∈ transition.next.replies →
      reply.isOfStage = true := by
    intro number reply present
    rcases (Move.caller move).replies present with present | ⟨batch, -, replied⟩
    · exact genuine number reply present
    · exact Reply.isOfStage_of_reply? replied
  cases move with
  | claim accepts free => exact sequenced.withCall (by rw [free]; rfl) rfl
  | refuse => exact sequenced
  | number claimed serving idle =>
      refine ⟨marked, attended, ?_, by simp, stillGenuine⟩
      intro _ present
      have before := consecutive serving present
      rw [claimed] at before
      simp only [Call.unsentNumber?, Call.unsent?, Option.map_none, Option.toList_none,
        List.append_nil] at before
      exact before.extend
  | findBusy claimed => exact sequenced.withCall (by rw [claimed]; rfl) rfl
  | findStopped claimed => exact sequenced.withCall (by rw [claimed]; rfl) rfl
  | findClosed sending gone =>
      refine ⟨marked, attended, ?_, by simp, stillGenuine⟩
      intro _ present
      exact absurd (gone.symm.trans present) (by simp)
  | @handOver number batch sending noRoom receiving =>
      have longer := backlog_handOver receiving (bounds.mailbox_eq_nil noRoom) number batch
        (.awaiting number batch)
      refine ⟨?_, by simp, ?_, ?_, stillGenuine⟩
      · rw [receiving] at marked
        exact marked
      · intro serving _
        have before := consecutive serving (by rw [isGone, receiving])
        rw [sending] at before
        rw [longer]
        simpa [Call.unsentNumber?, Call.unsent?] using before
      · rintro _ _ _ ⟨⟩
        rw [longer, List.getLast?_concat]
  | @enqueue number batch sending present space =>
      have longer := backlog_enqueue worker number batch (.awaiting number batch)
      refine ⟨marked, attended, ?_, ?_, stillGenuine⟩
      · intro serving _
        have before := consecutive serving present
        rw [sending] at before
        rw [longer]
        simpa [Call.unsentNumber?, Call.unsent?] using before
      · rintro _ _ _ ⟨⟩
        rw [longer, List.getLast?_concat]
  | @takeReply number batch reply awaiting filled =>
      refine ⟨marked, attended, ?_, by simp, stillGenuine⟩
      intro serving present
      have before := consecutive serving present
      rw [awaiting, backlog, filled] at before
      exact before.tail
  | @dropReply number late batch reply awaiting filled old =>
      refine ⟨marked, attended, ?_, ?_, stillGenuine⟩
      · intro serving present
        have before := consecutive serving present
        rw [awaiting, backlog, filled] at before
        rw [awaiting]
        exact before.tail
      · intro present own content same
        have last := newest present own content same
        cases awaiting.symm.trans same
        have shape : worker.backlog = late :: { worker with slot := none }.backlog := by
          simp [backlog, filled]
        rw [shape] at last
        cases rest : { worker with slot := none }.backlog with
        | nil =>
            rw [rest] at last
            exact absurd (Option.some.inj last) old
        | cons next behind =>
            rw [rest, List.getLast?_cons_cons] at last
            exact last
  | expire awaiting => exact sequenced.withCall (by rw [awaiting]; rfl) rfl
  | disconnect awaiting => exact sequenced.withCall (by rw [awaiting]; rfl) rfl

/-- A step of the thread, which does not leave its loop while the worker serves, and so
works off the backlog in order. -/
theorem thread
    (sequenced : worker.Sequenced)
    (bounds : worker.WithinBounds)
    (move : ThreadMove worker action transition) :
    transition.next.Sequenced := by
  obtain ⟨marked, attended, consecutive, newest, genuine⟩ := sequenced
  have sameNext : transition.next.next = worker.next := by cases move <;> rfl
  have stays : worker.tenure = .serving →
      transition.next.phase ≠ .leaving ∧ transition.next.phase ≠ .exited := by
    intro serving
    have opened : worker.isClosed = false := by rw [isClosed, serving]
    cases move with
    | hangUp _ _ closed => cases closed.symm.trans opened
    | heed holding ended =>
        rcases ended with ended | rfl
        · exact absurd serving ended
        · exact absurd holding (bounds.unclosed opened).2
    | giveUp _ released => cases serving.symm.trans released
    | exit leaving => exact absurd leaving (attended serving).1
    | receive | accept | begin | finish | die | rest | deliver => simp
  have sameBacklog : worker.tenure = .serving → transition.next.isGone = false →
      transition.next.backlog = worker.backlog := fun serving present =>
    move.backlog_eq (stays serving).1 present
  refine ⟨?_, ?_, ?_, ?_, ?_⟩
  · cases move with
    | begin | rest | exit => rfl
    | receive known | hangUp known | accept known | heed known | finish known | die known
    | deliver known | giveUp known =>
        rw [known] at marked
        exact marked
  · rw [move.tenure_eq]
    exact stays
  · rw [move.tenure_eq, move.call_eq, sameNext]
    intro serving present
    rw [sameBacklog serving present]
    exact consecutive serving ((Move.thread move).present_of_next present)
  · rw [move.call_eq]
    intro present number batch awaiting
    have serving := bounds.engaged (number, batch) (by rw [awaiting]; rfl)
    rw [sameBacklog serving present]
    exact newest ((Move.thread move).present_of_next present) number batch awaiting
  · intro number reply present
    rcases (Move.thread move).replies present with present | ⟨batch, -, replied⟩
    · exact genuine number reply present
    · exact Reply.isOfStage_of_reply? replied

theorem owner
    (sequenced : worker.Sequenced)
    (bounds : worker.WithinBounds)
    (move : OwnerMove worker action transition) :
    transition.next.Sequenced := by
  obtain ⟨marked, -, -, -, genuine⟩ := sequenced
  refine ⟨?_, ?_, ?_, ?_, ?_⟩
  · cases move with
    | closeWithHandOver stopping noRoom receiving =>
        rw [receiving] at marked
        exact marked
    | _ => exact marked
  · exact fun serving => absurd serving move.tenure_ne_serving
  · exact fun serving => absurd serving move.tenure_ne_serving
  · intro _ number batch awaiting
    have free := move.job?_eq_none bounds
    rw [← move.call_eq, awaiting] at free
    cases free
  · intro number reply present
    rcases (Move.owner move).replies present with present | ⟨batch, -, replied⟩
    · exact genuine number reply present
    · exact Reply.isOfStage_of_reply? replied

theorem step
    (sequenced : worker.Sequenced)
    (bounds : worker.WithinBounds)
    (taken : worker.step action = some transition) :
    transition.next.Sequenced := by
  rcases Move.of_step taken with move | move | move
  · exact sequenced.caller bounds move
  · exact sequenced.thread bounds move
  · exact sequenced.owner bounds move

theorem reachable
    (sequenced : initial.Sequenced)
    (bounds : initial.WithinBounds)
    (reachable : Reachable initial worker) :
    worker.Sequenced := by
  induction reachable with
  | refl => exact sequenced
  | step before taken inductionHypothesis =>
      exact inductionHypothesis.step (bounds.reachable before) taken

/-- The call in progress meets its own reply only when nothing else is left to do. -/
theorem backlog_of_own_reply
    {number : UInt64}
    {batch : Batch}
    {reply : Reply}
    (sequenced : worker.Sequenced)
    (bounds : worker.WithinBounds)
    (narrow : worker.capacity + 1 < Word.limit)
    (present : worker.isGone = false)
    (awaiting : worker.call = .awaiting number batch)
    (filled : worker.slot = some (number, reply)) :
    worker.backlog = [number] := by
  have serving := bounds.engaged (number, batch) (by rw [awaiting]; rfl)
  have consecutive := sequenced.consecutive serving present
  have last := sequenced.newest present number batch awaiting
  have shape : worker.backlog = number :: { worker with slot := none }.backlog := by
    simp [backlog, filled]
  have short : { worker with slot := none }.backlog.length ≤ worker.capacity + 1 :=
    backlog_length_le bounds.room rfl
  rw [shape, List.append_assoc] at consecutive
  rw [shape] at last ⊢
  have alone := Consecutive.eq_singleton consecutive.left_of_append last
    (Nat.lt_of_le_of_lt short narrow)
  rw [alone]

/-- Once its own reply has been collected, the worker is at rest. -/
theorem rests_of_own_reply
    {number : UInt64}
    {batch : Batch}
    {reply : Reply}
    (sequenced : worker.Sequenced)
    (bounds : worker.WithinBounds)
    (narrow : worker.capacity + 1 < Word.limit)
    (present : worker.isGone = false)
    (awaiting : worker.call = .awaiting number batch)
    (filled : worker.slot = some (number, reply)) :
    { worker with slot := none, call := .none }.Rests := by
  have serving := bounds.engaged (number, batch) (by rw [awaiting]; rfl)
  have alone := sequenced.backlog_of_own_reply bounds narrow present awaiting filled
  obtain ⟨unclosed, held⟩ := bounds.unclosed (by simp [isClosed, serving])
  obtain ⟨stays, inLoop⟩ := sequenced.attended serving
  have marked := sequenced.marked
  rw [backlog, filled, List.append_assoc] at alone
  have rest : worker.phase.number?.toList ++ worker.mailbox.filterMap Command.number? = [] :=
    (List.cons.inj alone).2
  obtain ⟨noHand, noQueue⟩ := List.append_eq_nil_iff.mp rest
  have empty : worker.mailbox = [] := by
    rw [← List.length_eq_zero_iff, ← filterMap_number?_length_eq unclosed, noQueue]
    rfl
  have receiving : worker.phase = .receiving := by
    cases phase : worker.phase with
    | receiving => rfl
    | holding command =>
        cases command with
        | shutdown => exact absurd phase held
        | process number batch => simp [phase, Phase.number?, Command.number?] at noHand
    | leaving => exact absurd phase stays
    | exited => exact absurd phase inLoop
    | dead => simp [isGone, phase] at present
    | _ => simp [phase, Phase.number?] at noHand
  refine ⟨receiving, empty, rfl, ?_, serving⟩
  rw [receiving] at marked
  exact marked

end Sequenced

end Worker
end StagePipeline
