import StagePipeline.Proofs.Worker.Sequence

/-!
# Outstanding batches

A call looks at the mark of the thread, and the thread marks itself busy only when it
begins a batch.  Between the two lies the time in which a command waits, is taken and is
checked.  A call that gives up in that time leaves a batch behind that nobody sees, and
the next call sends another one.  If no call gives up before its batch has been begun, at
most one batch is outstanding, and nothing is sent as long as there is one.
-/

namespace StagePipeline
namespace Worker

/-- Whether the thread has taken a batch and not finished it. -/
def Phase.handles : Phase → Bool
  | .holding (.process _ _) | .admitted _ _ | .applying _ _ | .finished _ _ => true
  | _ => false

/-- Whether the thread has begun a batch and not finished it. -/
def Phase.underway : Phase → Bool
  | .applying _ _ | .finished _ _ => true
  | _ => false

/-- How many batches are in the mailbox or handled by the thread. -/
def outstanding (worker : Worker) : Nat :=
  (worker.mailbox.filterMap Command.job?).length + worker.phase.handles.toNat

theorem outstanding_eq (worker : Worker) :
    worker.outstanding = worker.waitingJobs.length + worker.phase.underway.toNat := by
  rw [outstanding, waitingJobs, List.length_append]
  cases worker.phase with
  | holding command => cases command <;> simp [Phase.handles, Phase.underway, Phase.job?,
      Command.job?, Nat.add_comm]
  | _ => simp [Phase.handles, Phase.underway, Phase.job?, Nat.add_comm]

theorem Phase.underway_eq_false
    {phase : Phase}
    (idle : phase.mark = .idle) :
    phase.underway = false := by
  cases phase with
  | applying | finished | dead => cases idle
  | _ => rfl

/-- The thread is underway with a batch that it has begun, now or before. -/
theorem ThreadMove.underway
    {worker : Worker}
    {action : Action}
    {transition : Transition}
    (move : ThreadMove worker action transition)
    (rests : worker.phase.underway = false)
    (silent : transition.event?.bind Event.job? = none) :
    transition.next.phase.underway = false := by
  cases move with
  | begin => cases silent
  | finish known =>
      rw [known] at rests
      cases rests
  | receive | hangUp | accept | heed | die | rest | deliver | giveUp | exit => rfl

/-- Nobody sends a batch: the call in progress has sent its own, or is about to be
refused, and a new one finds it in progress. -/
structure Declines (worker : Worker) : Prop where
  unsent : worker.step .send = none
  /-- A call that looks at the thread's mark is refused. -/
  inspected : ∀ transition, worker.step .inspect = some transition →
    ∃ batch fault, transition = ⟨{ worker with call := .none },
        some (.answered batch (.error fault))⟩ ∧
      (fault = worker.stillBusy ∨ fault = worker.stopped)
  /-- A new call sends nothing, and is refused at once if there is another. -/
  called : ∀ batch transition, worker.step (.submit batch) = some transition →
    transition = ⟨{ worker with call := .claimed batch }, none⟩ ∧ worker.call = .none ∨
      transition = ⟨worker, some (.answered batch (.error worker.stillBusy))⟩

variable {initial worker : Worker} {action : Action} {transition : Transition}

/-- A batch that waits is that of the call in progress, and the thread is at no other. -/
structure Exclusive (worker : Worker) : Prop where
  waiting : worker.waitingJobs = [] ∨
    ∃ number batch, worker.call = .awaiting number batch ∧
      worker.waitingJobs = [(number, batch)] ∧ worker.phase.underway = false
  /-- A call that is about to send has found the thread idle. -/
  sending : ∀ number batch, worker.call = .sending number batch →
    worker.phase.underway = false
  gone : worker.isGone = true → worker.mailbox = []

/-- A call gives up only after the thread has begun its batch. -/
def Patient (worker : Worker) (action : Action) : Prop :=
  action = .expire → ∀ job, worker.call.job? = some job → job ∉ worker.waitingJobs

namespace Exclusive

theorem ofStage
    (stage : Stage)
    (ordinal : Nat)
    (settings : Settings)
    (clock : UInt64 → Timestamp) :
    (ofStage stage ordinal settings clock).Exclusive where
  waiting := Or.inl rfl
  sending := nofun
  gone _ := rfl

/-- No batch waits unless a call waits for its reply. -/
theorem waitingJobs_eq_nil
    (exclusive : worker.Exclusive)
    (free : ∀ number batch, worker.call ≠ .awaiting number batch) :
    worker.waitingJobs = [] := by
  rcases exclusive.waiting with nothing | ⟨number, batch, awaiting, -⟩
  · exact nothing
  · exact absurd awaiting (free number batch)

theorem waitingJobs_of_gone
    (exclusive : worker.Exclusive)
    (gone : worker.isGone = true) :
    worker.waitingJobs = [] := by
  rw [waitingJobs, exclusive.gone gone]
  cases phase : worker.phase with
  | exited | dead => rfl
  | _ => simp [isGone, phase] at gone

/-- The batch of a call that has been answered does not wait. -/
theorem waitingJobs_of_own_reply
    {number : UInt64}
    {batch : Batch}
    {reply : Reply}
    (exclusive : worker.Exclusive)
    (sequenced : worker.Sequenced)
    (bounds : worker.WithinBounds)
    (narrow : worker.capacity + 1 < Word.limit)
    (awaiting : worker.call = .awaiting number batch)
    (filled : worker.slot = some (number, reply)) :
    worker.waitingJobs = [] := by
  cases present : worker.isGone with
  | true => exact exclusive.waitingJobs_of_gone present
  | false =>
      have rests := sequenced.rests_of_own_reply bounds narrow present awaiting filled
      have receiving : worker.phase = .receiving := rests.receiving
      have empty : worker.mailbox = [] := rests.mailbox
      rw [waitingJobs, receiving, empty]
      rfl

/-- The batch of a call that gives up does not wait. -/
theorem waitingJobs_of_patient
    (exclusive : worker.Exclusive)
    (patient : worker.Patient .expire) :
    worker.waitingJobs = [] := by
  rcases exclusive.waiting with nothing | ⟨own, content, same, only, -⟩
  · exact nothing
  · have begun := patient rfl (own, content) (by rw [same]; rfl)
    rw [only] at begun
    exact absurd List.mem_cons_self begun

/-- A call that has come to its end leaves no batch behind that waits. -/
theorem endCall
    (exclusive : worker.Exclusive)
    (nothing : worker.waitingJobs = []) :
    { worker with call := .none }.Exclusive :=
  ⟨Or.inl nothing, nofun, exclusive.gone⟩

/-- A step of a caller.  A batch is sent when none waits and the thread is idle, and its
call ends when the batch does not wait any more. -/
theorem caller
    (exclusive : worker.Exclusive)
    (sequenced : worker.Sequenced)
    (bounds : worker.WithinBounds)
    (narrow : worker.capacity + 1 < Word.limit)
    (patient : worker.Patient action)
    (move : CallerMove worker action transition) :
    transition.next.Exclusive := by
  cases move with
  | claim accepts free =>
      have nothing := exclusive.waitingJobs_eq_nil (by simp [free])
      exact ⟨Or.inl nothing, by simp, exclusive.gone⟩
  | refuse => exact exclusive
  | number claimed serving idle =>
      have nothing := exclusive.waitingJobs_eq_nil (by simp [claimed])
      refine ⟨Or.inl nothing, fun _ _ _ => ?_, exclusive.gone⟩
      exact Phase.underway_eq_false (sequenced.marked.symm.trans idle)
  | findBusy claimed | findStopped claimed =>
      exact exclusive.endCall (exclusive.waitingJobs_eq_nil (by simp [claimed]))
  | findClosed sending =>
      exact exclusive.endCall (exclusive.waitingJobs_eq_nil (by simp [sending]))
  | @handOver number batch sending noRoom receiving =>
      have nothing := exclusive.waitingJobs_eq_nil (by simp [sending])
      refine ⟨Or.inr ⟨number, batch, rfl, ?_, rfl⟩, by simp, by simp [isGone]⟩
      rw [waitingJobs, receiving] at nothing
      exact congrArg ((number, batch) :: ·) nothing
  | @enqueue number batch sending present space =>
      have nothing := exclusive.waitingJobs_eq_nil (by simp [sending])
      refine ⟨Or.inr ⟨number, batch, rfl, ?_, exclusive.sending number batch sending⟩, by simp,
        fun gone => absurd (gone.symm.trans present) (by simp)⟩
      rw [waitingJobs] at nothing ⊢
      rw [List.filterMap_append, ← List.append_assoc, nothing]
      rfl
  | takeReply awaiting filled =>
      have nothing := exclusive.waitingJobs_of_own_reply sequenced bounds narrow awaiting filled
      exact ⟨Or.inl nothing, by simp, exclusive.gone⟩
  | dropReply => exact ⟨exclusive.waiting, exclusive.sending, exclusive.gone⟩
  | expire => exact exclusive.endCall (exclusive.waitingJobs_of_patient patient)
  | disconnect awaiting empty gone =>
      exact exclusive.endCall (exclusive.waitingJobs_of_gone gone)

/-- A step of the thread, which begins the only batch that may wait. -/
theorem thread
    (exclusive : worker.Exclusive)
    (move : ThreadMove worker action transition) :
    transition.next.Exclusive := by
  have fewer := move.waitingJobs_sublist
  refine ⟨?_, ?_, ?_⟩
  · rw [move.call_eq]
    rcases exclusive.waiting with nothing | ⟨number, batch, awaiting, only, rests⟩
    · rw [nothing, List.sublist_nil, List.append_eq_nil_iff] at fewer
      exact Or.inl fewer.2
    · rw [only] at fewer
      cases begins : transition.event?.bind Event.job? with
      | some job =>
          rw [begins] at fewer
          have none : transition.next.waitingJobs.length = 0 := by
            have short := fewer.length_le
            simp only [List.length_append, Option.toList_some, List.length_singleton] at short
            omega
          exact Or.inl (List.length_eq_zero_iff.mp none)
      | none =>
          rw [begins] at fewer
          rcases List.sublist_singleton.mp fewer with nothing | same
          · exact Or.inl nothing
          · exact Or.inr ⟨number, batch, awaiting, same, move.underway rests begins⟩
  · rw [move.call_eq]
    intro number batch sending
    have nothing := exclusive.waitingJobs_eq_nil (by simp [sending])
    rw [nothing, List.sublist_nil, List.append_eq_nil_iff] at fewer
    exact move.underway (exclusive.sending number batch sending)
      (Option.toList_eq_nil_iff.mp fewer.1)
  · exact move.mailbox_of_gone

/-- A step of the owner, who sends no batch. -/
theorem owner
    (exclusive : worker.Exclusive)
    (move : OwnerMove worker action transition) :
    transition.next.Exclusive := by
  have still (rests : worker.phase.underway = false) :
      transition.next.phase.underway = false := by
    rcases move.phase_eq_or with same | ⟨-, holding⟩
    · rw [same]
      exact rests
    · rw [holding]
      rfl
  refine ⟨?_, ?_, ?_⟩
  · rw [move.call_eq, move.waitingJobs_eq]
    exact exclusive.waiting.imp_right fun ⟨number, batch, awaiting, only, rests⟩ =>
      ⟨number, batch, awaiting, only, still rests⟩
  · rw [move.call_eq]
    exact fun number batch sending => still (exclusive.sending number batch sending)
  · exact move.mailbox_of_gone exclusive.gone

theorem step
    (exclusive : worker.Exclusive)
    (sequenced : worker.Sequenced)
    (bounds : worker.WithinBounds)
    (narrow : worker.capacity + 1 < Word.limit)
    (patient : worker.Patient action)
    (taken : worker.step action = some transition) :
    transition.next.Exclusive := by
  rcases Move.of_step taken with move | move | move
  · exact exclusive.caller sequenced bounds narrow patient move
  · exact exclusive.thread move
  · exact exclusive.owner move

theorem outstanding_le_one (exclusive : worker.Exclusive) : worker.outstanding ≤ 1 := by
  rw [outstanding_eq]
  rcases exclusive.waiting with nothing | ⟨number, batch, -, only, rests⟩
  · rw [nothing, List.length_nil, Nat.zero_add]
    exact Bool.toNat_le _
  · rw [only, rests]
    exact Nat.le_refl 1

theorem outstanding_eq_zero
    (exclusive : worker.Exclusive)
    (free : ∀ number batch, worker.call ≠ .awaiting number batch)
    (rests : worker.phase.underway = false) :
    worker.outstanding = 0 := by
  rw [outstanding_eq, exclusive.waitingJobs_eq_nil free, rests]
  rfl

/-- As long as a batch is outstanding, no other is sent. -/
theorem declines
    (exclusive : worker.Exclusive)
    (sequenced : worker.Sequenced)
    (busy : worker.outstanding ≠ 0) :
    worker.Declines := by
  refine ⟨?_, ?_, ?_⟩
  · have quiet : ∀ number batch, worker.call ≠ .sending number batch := by
      intro number batch sending
      exact busy (exclusive.outstanding_eq_zero (by simp [sending])
        (exclusive.sending number batch sending))
    rw [Option.eq_none_iff_forall_ne_some]
    intro transition taken
    rcases Move.of_step taken with move | move | move
    · cases move with
      | findClosed sending | handOver sending | enqueue sending => exact quiet _ _ sending
    · cases move
    · cases move
  · intro transition taken
    rcases Move.of_step taken with move | move | move
    · cases move with
      | number claimed serving idle =>
          have rests := Phase.underway_eq_false (sequenced.marked.symm.trans idle)
          exact absurd (exclusive.outstanding_eq_zero (by simp [claimed]) rests) busy
      | findBusy => exact ⟨_, _, rfl, Or.inl rfl⟩
      | findStopped => exact ⟨_, _, rfl, Or.inr rfl⟩
    · cases move
    · cases move
  · intro batch transition taken
    cases CallerMove.of_stepSubmit taken with
    | claim accepts free => exact Or.inl ⟨rfl, free⟩
    | refuse => exact Or.inr rfl

end Exclusive

/-! ## Patient calls -/

/-- The states that a worker can come to if every call waits at least until the thread has
begun its batch. -/
inductive Patiently (initial : Worker) : Worker → Prop where
  | refl : Patiently initial initial
  | step {worker : Worker} {action : Action} {transition : Transition} :
      Patiently initial worker → worker.Patient action →
        worker.step action = some transition → Patiently initial transition.next

namespace Patiently

/-- A schedule in which no call gives up is patient. -/
theorem execute
    {schedule : List Action}
    {reached : Worker}
    {events : List Event}
    (patiently : Patiently initial worker)
    (executed : worker.execute? schedule = some (reached, events))
    (timely : .expire ∉ schedule) :
    Patiently initial reached := by
  induction schedule generalizing worker events with
  | nil =>
      cases executed
      exact patiently
  | cons action rest inductionHypothesis =>
      obtain ⟨transition, later, taken, continued, -⟩ := execute?_cons_eq_some executed
      rw [List.mem_cons, not_or] at timely
      apply inductionHypothesis _ continued timely.2
      exact patiently.step (fun expires => absurd expires.symm timely.1) taken

/-- A call may give up when no batch waits. -/
theorem expire
    (patiently : Patiently initial worker)
    (nothing : worker.waitingJobs = [])
    (taken : worker.step .expire = some transition) :
    Patiently initial transition.next := by
  apply patiently.step _ taken
  rintro - job -
  rw [nothing]
  exact List.not_mem_nil

theorem reachable (patiently : Patiently initial worker) : Reachable initial worker := by
  induction patiently with
  | refl => exact .refl
  | step _ _ taken inductionHypothesis => exact inductionHypothesis.step taken

theorem invariants
    (patiently : Patiently initial worker)
    (bounds : initial.WithinBounds)
    (narrow : initial.capacity + 1 < Word.limit)
    (sequenced : initial.Sequenced)
    (exclusive : initial.Exclusive) :
    worker.Sequenced ∧ worker.Exclusive := by
  induction patiently with
  | refl => exact ⟨sequenced, exclusive⟩
  | step before patient taken inductionHypothesis =>
      obtain ⟨sequenced, exclusive⟩ := inductionHypothesis
      have bounds := bounds.reachable before.reachable
      rw [← before.reachable.capacity_eq] at narrow
      exact ⟨sequenced.step bounds taken,
        exclusive.step sequenced bounds narrow patient taken⟩

end Patiently

end Worker
end StagePipeline
