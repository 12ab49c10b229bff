import StagePipeline.Run.Sequential
import StagePipeline.Proofs.Run.Moves
import StagePipeline.Proofs.Worker.Receipts

/-!
# The errand of a worker

In a run a worker has one caller, who waits for the answer to every call.  From the
call to its return the worker goes through a fixed row of states, whatever the order
of the steps of thread and caller: this is an errand.  At its end the worker is at
rest again, unless the call has run out of time or the thread is dead.
-/

namespace StagePipeline
namespace Worker

/-- Whether the thread applies its stage. -/
def isApplying (worker : Worker) : Bool :=
  match worker.phase with
  | .applying _ _ => true
  | _ => false

/-- A worker that waits for its next call, which will take this number. -/
def atRest
    (stage : Stage)
    (ordinal : Nat)
    (settings : Settings)
    (clock : UInt64 → Timestamp)
    (number : UInt64) :
    Worker :=
  { ofStage stage ordinal settings clock with next := number }

/-- A worker whose caller waits for an answer. -/
def entrusted
    (stage : Stage)
    (ordinal : Nat)
    (settings : Settings)
    (clock : UInt64 → Timestamp)
    (number : UInt64)
    (batch : Batch) :
    Worker :=
  { atRest stage ordinal settings clock (number + 1) with call := .awaiting number batch }

section

variable
  (stage : Stage)
  (ordinal : Nat)
  (settings : Settings)
  (clock : UInt64 → Timestamp)
  (number : UInt64)
  (batch : Batch)

/-- The states of a worker during a call for a batch, before and after the stage has
begun. -/
inductive Errand : Bool → Worker → Prop where
  | claimed :
      Errand false { atRest stage ordinal settings clock number with call := .claimed batch }
  | sending :
      Errand false
        { atRest stage ordinal settings clock (number + 1) with call := .sending number batch }
  | queued :
      Errand false
        { entrusted stage ordinal settings clock number batch with
          mailbox := [.process number batch] }
  | held :
      Errand false
        { entrusted stage ordinal settings clock number batch with
          phase := .holding (.process number batch) }
  | accepted :
      Errand false
        { entrusted stage ordinal settings clock number batch with
          phase := .admitted number batch }
  | applying :
      Errand true
        { entrusted stage ordinal settings clock number batch with
          phase := .applying number batch
          mark := .busy }
  | finished {reply : Reply} :
      stage.reply? (clock number) batch = some reply →
      Errand true
        { entrusted stage ordinal settings clock number batch with
          phase := .finished number reply
          mark := .busy }
  | replying {reply : Reply} :
      stage.reply? (clock number) batch = some reply →
      Errand true
        { entrusted stage ordinal settings clock number batch with
          phase := .replying number reply }
  | replied {reply : Reply} :
      stage.reply? (clock number) batch = some reply →
      Errand true
        { entrusted stage ordinal settings clock number batch with
          slot := some (number, reply) }
  | dead :
      stage.reply? (clock number) batch = none →
      Errand true
        { entrusted stage ordinal settings clock number batch with
          phase := .dead
          mark := .busy }

/-- How a call ends an errand, with what reply, and what it leaves of the worker. -/
inductive ErrandReturn (begun : Bool) (worker : Worker) : Action → Reply → Worker → Prop where
  | answered {reply : Reply} :
      begun = true → stage.reply? (clock number) batch = some reply →
      ErrandReturn begun worker .collect reply
        (atRest stage ordinal settings clock (number + 1))
  | lost :
      begun = true → stage.reply? (clock number) batch = none →
      ErrandReturn begun worker .disconnect (.error worker.threadGone)
        { worker with call := .none }
  | late {limit : Duration} :
      settings.stageLimit? = some limit →
      ErrandReturn begun worker .expire (.error (.timedOut stage.name batch.index limit))
        { worker with call := .none }

end

namespace Errand

variable
  {stage : Stage}
  {ordinal : Nat}
  {settings : Settings}
  {clock : UInt64 → Timestamp}
  {number : UInt64}
  {batch : Batch}
  {begun : Bool}
  {worker : Worker}
  {action : Action}
  {transition : Transition}

/-- The thread goes on with the errand, and begins its stage once. -/
theorem thread_step
    (errand : Errand stage ordinal settings clock number batch begun worker)
    (move : ThreadMove worker action transition) :
    (transition.event? = none ∧
        Errand stage ordinal settings clock number batch begun transition.next) ∨
      (begun = false ∧ transition.event? = some (.began number batch) ∧
        Errand stage ordinal settings clock number batch true transition.next) := by
  cases errand with
  | claimed | sending | replied => exact (move.not_waiting rfl rfl rfl).elim
  | queued =>
      rcases move.of_receiving rfl with ⟨_, _, waiting, rfl, rfl⟩ | ⟨empty, -, -, -⟩
      · cases waiting
        exact Or.inl ⟨rfl, .held⟩
      · cases empty
  | held =>
      obtain ⟨rfl, ⟨_, _, same, -, rfl⟩ | ⟨ended | other, -⟩⟩ := move.of_holding rfl
      · cases same
        exact Or.inl ⟨rfl, .accepted⟩
      · exact absurd rfl ended
      · cases other
  | accepted =>
      obtain ⟨rfl, rfl⟩ := move.of_admitted rfl
      exact Or.inr ⟨rfl, rfl, .applying⟩
  | applying =>
      obtain ⟨rfl, ⟨_, replied, rfl⟩ | ⟨silent, rfl⟩⟩ := move.of_applying rfl
      · exact Or.inl ⟨rfl, .finished replied⟩
      · exact Or.inl ⟨rfl, .dead silent⟩
  | finished replied =>
      obtain ⟨rfl, rfl⟩ := move.of_finished rfl
      exact Or.inl ⟨rfl, .replying replied⟩
  | replying replied =>
      obtain ⟨rfl, ⟨-, -, rfl⟩ | ⟨released, -⟩⟩ := move.of_replying rfl
      · exact Or.inl ⟨rfl, .replied replied⟩
      · cases released
  | dead => cases move.present

/-- The caller sends its batch, or ends the errand. -/
theorem caller_step
    (errand : Errand stage ordinal settings clock number batch begun worker)
    (move : CallerMove worker action transition)
    (ofCaller : Run.isCallerAction action = true) :
    (transition.event? = none ∧
        Errand stage ordinal settings clock number batch begun transition.next) ∨
      ∃ reply, transition.event? = some (.answered batch reply) ∧
        ErrandReturn stage ordinal settings clock number batch begun worker action reply
          transition.next := by
  cases errand with
  | claimed =>
      cases move with
      | number claimed serving idle =>
          cases claimed
          exact Or.inl ⟨rfl, .sending⟩
      | findBusy _ _ busy => cases busy
      | findStopped _ stopped =>
          rcases stopped with ended | marked
          · exact absurd rfl ended
          · cases marked
      | claim | refuse => cases ofCaller
      | findClosed other | handOver other | enqueue other | takeReply other | dropReply other
      | expire other | disconnect other => cases other
  | sending =>
      cases move with
      | handOver sending noRoom receiving =>
          cases sending
          exact Or.inl ⟨rfl, .held⟩
      | enqueue sending present room =>
          cases sending
          exact Or.inl ⟨rfl, .queued⟩
      | findClosed _ gone => cases gone
      | claim | refuse => cases ofCaller
      | number other | findBusy other | findStopped other | takeReply other | dropReply other
      | expire other | disconnect other => cases other
  | replied replied =>
      cases move with
      | takeReply awaiting filled =>
          cases awaiting
          cases filled
          exact Or.inr ⟨_, rfl, .answered rfl replied⟩
      | dropReply awaiting filled late =>
          cases awaiting
          cases filled
          exact absurd rfl late
      | expire _ _ empty | disconnect _ empty => cases empty
      | claim | refuse => cases ofCaller
      | number other | findBusy other | findStopped other | findClosed other | handOver other
      | enqueue other => cases other
  | dead silent =>
      cases move with
      | disconnect awaiting empty gone =>
          cases awaiting
          exact Or.inr ⟨_, rfl, .lost rfl silent⟩
      | takeReply _ filled | dropReply _ filled => cases filled
      | expire _ _ _ present => cases present
      | claim | refuse => cases ofCaller
      | number other | findBusy other | findStopped other | findClosed other | handOver other
      | enqueue other => cases other
  | queued | held | accepted | applying | finished | replying =>
      cases move with
      | expire awaiting limited empty present =>
          cases awaiting
          exact Or.inr ⟨_, rfl, .late limited⟩
      | takeReply _ filled | dropReply _ filled => cases filled
      | disconnect _ _ gone => cases gone
      | claim | refuse => cases ofCaller
      | number other | findBusy other | findStopped other | findClosed other | handOver other
      | enqueue other => cases other

theorem name_eq
    (errand : Errand stage ordinal settings clock number batch begun worker) :
    worker.name = stage.name := by
  cases errand <;> rfl

theorem tenure_eq
    (errand : Errand stage ordinal settings clock number batch begun worker) :
    worker.tenure = .serving := by
  cases errand <;> rfl

theorem return_tenure_eq
    {reply : Reply}
    {next : Worker}
    (errand : Errand stage ordinal settings clock number batch begun worker)
    (returned : ErrandReturn stage ordinal settings clock number batch begun worker action
      reply next) :
    next.tenure = .serving := by
  cases returned with
  | answered => rfl
  | _ => exact errand.tenure_eq

end Errand

/-! ## At rest and after the last call -/

/-- The thread of a worker at rest waits. -/
theorem ThreadMove.not_atRest
    {stage : Stage}
    {ordinal : Nat}
    {settings : Settings}
    {clock : UInt64 → Timestamp}
    {number : UInt64}
    {action : Action}
    {transition : Transition} :
    ¬ThreadMove (atRest stage ordinal settings clock number) action transition :=
  fun move => move.not_waiting rfl rfl rfl

/-- What remains of a worker that is not called any more.  Only the worker of the
last call may have something to do: the job of that call, if it has not been begun. -/
structure Remains (last : Prop) (job? : Option Job) (worker : Worker) : Prop where
  free : worker.call = .none
  waiting : worker.waitingJobs = [] ∨ last ∧ worker.waitingJobs = job?.toList
  applying : worker.isApplying = true → last ∧ job? = none

theorem isApplying_iff {worker : Worker} :
    worker.isApplying = true ↔ ∃ number batch, worker.phase = .applying number batch := by
  unfold isApplying
  split
  · rename_i number batch applying
    simp [applying]
  · rename_i other
    simp only [Bool.false_eq_true, false_iff, not_exists]
    exact other

namespace Remains

variable {last : Prop} {job? : Option Job} {worker : Worker} {action : Action}
  {transition : Transition}

/-- A worker at rest has nothing to do. -/
theorem of_atRest
    (stage : Stage)
    (ordinal : Nat)
    (settings : Settings)
    (clock : UInt64 → Timestamp)
    (number : UInt64) :
    Remains last job? (atRest stage ordinal settings clock number) where
  free := rfl
  waiting := Or.inl rfl
  applying applying := by cases applying

theorem of_return
    {stage : Stage}
    {ordinal : Nat}
    {settings : Settings}
    {clock : UInt64 → Timestamp}
    {number : UInt64}
    {batch : Batch}
    {begun : Bool}
    {reply : Reply}
    {next : Worker}
    (errand : Errand stage ordinal settings clock number batch begun worker)
    (returned : ErrandReturn stage ordinal settings clock number batch begun worker action
      reply next)
    (own : last) :
    Remains last (if begun then none else some (number, batch)) next := by
  cases returned with
  | answered => exact of_atRest stage ordinal settings clock (number + 1)
  | _ =>
      constructor
      · rfl
      · cases errand <;> first | exact Or.inl rfl | exact Or.inr ⟨own, rfl⟩
      · cases errand <;> simp [isApplying, entrusted, atRest, ofStage, own]

theorem of_iff
    {other : Prop}
    (remains : Remains last job? worker)
    (same : last ↔ other) :
    Remains other job? worker := by
  rwa [← propext same]

/-- The job of another worker does not matter. -/
theorem elsewhere
    (remains : Remains last job? worker)
    (other : ¬last)
    (otherJob? : Option Job) :
    Remains last otherJob? worker where
  free := remains.free
  waiting := remains.waiting.imp_right fun own => absurd own.1 other
  applying applying := absurd (remains.applying applying).1 other

/-- The thread can begin nothing but the job that remains, and that only once. -/
theorem thread_step
    (remains : Remains last job? worker)
    (move : ThreadMove worker action transition) :
    (transition.event? = none ∧ Remains last job? transition.next) ∨
      ∃ number batch, last ∧ job? = some (number, batch) ∧
        transition.event? = some (.began number batch) ∧ Remains last none transition.next := by
  have free : transition.next.call = .none := move.call_eq.trans remains.free
  cases seen : transition.event? with
  | none =>
      have kept := move.waitingJobs_sublist
      rw [seen] at kept
      refine Or.inl ⟨rfl, free, ?_, ?_⟩
      · rcases remains.waiting with empty | ⟨own, waiting⟩
        · rw [empty] at kept
          exact Or.inl (List.sublist_nil.mp kept)
        · rw [waiting] at kept
          cases job? with
          | none => exact Or.inl (List.sublist_nil.mp kept)
          | some job =>
              rcases List.sublist_cons_iff.mp kept with dropped | ⟨rest, same, nothing⟩
              · exact Or.inl (List.sublist_nil.mp dropped)
              · exact Or.inr ⟨own, by rw [List.sublist_nil.mp nothing] at same; exact same⟩
      · intro applying
        obtain ⟨number, batch, applying⟩ := isApplying_iff.mp applying
        rcases (Move.thread move).applying applying with before | began
        · exact remains.applying (isApplying_iff.mpr ⟨number, batch, before⟩)
        · rw [seen] at began
          cases began
  | some event =>
      cases move with
      | @begin number batch accepted =>
          cases seen
          have first : (number, batch) :: worker.mailbox.filterMap Command.job? =
              worker.waitingJobs := by
            rw [waitingJobs, accepted]
            rfl
          rcases remains.waiting with empty | ⟨own, waiting⟩
          · rw [empty] at first
            cases first
          · rw [waiting] at first
            cases job? with
            | none => cases first
            | some job =>
                obtain ⟨rfl, rest⟩ := List.cons_eq_cons.mp first
                exact Or.inr ⟨number, batch, own, rfl, rfl, free, Or.inl rest,
                  fun _ => ⟨own, rfl⟩⟩
      | _ => cases seen

/-- The owner stops a worker without beginning anything. -/
theorem owner_step
    (remains : Remains last job? worker)
    (move : OwnerMove worker action transition) :
    Remains last job? transition.next where
  free := move.call_eq.trans remains.free
  waiting := by rw [move.waitingJobs_eq]; exact remains.waiting
  applying applying := by
    obtain ⟨number, batch, applying⟩ := isApplying_iff.mp applying
    rcases (Move.owner move).applying applying with before | began
    · exact remains.applying (isApplying_iff.mpr ⟨number, batch, before⟩)
    · cases move <;> cases began

end Remains
end Worker
end StagePipeline
