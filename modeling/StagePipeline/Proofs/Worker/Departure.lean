import StagePipeline.Proofs.Worker.Overlap
import StagePipeline.Proofs.Worker.Retirement

/-!
# Threads that nobody waits for

Once the mailbox is closed no command comes in, and a thread that has taken one leaves its
loop at the next look at the stop flag.  A thread that is past that look owes a reply
first.  Nobody collects replies any more, so that it finds room for its own only if the
slot is empty: calls that have given up may have left a reply in it.

A thread in this position is clogged, and stays so until the owner gives up the worker.
All other threads come to their exit by themselves.
-/

namespace StagePipeline
namespace Worker

/-- The steps of the thread. -/
def threadActions : List Action :=
  [.receive, .hangUp, .check, .begin, .finish, .rest, .reply, .exit]

/-- Whether the thread is past its look at the stop flag, and has a reply to deliver before
the next one. -/
def Phase.owes : Phase → Bool
  | .admitted _ _ | .applying _ _ | .finished _ _ | .replying _ _ => true
  | _ => false

/-- The thread owes a reply, and the slot holds another one. -/
structure Clogged (worker : Worker) : Prop where
  owes : worker.phase.owes = true
  filled : worker.slot ≠ none
  kept : worker.tenure ≠ .released

/-- How many steps the thread has left at most, once the owner has begun to stop it. -/
def Phase.remaining : Phase → Nat
  | .admitted _ _ => 7
  | .applying _ _ => 6
  | .finished _ _ => 5
  | .replying _ _ => 4
  | .receiving => 3
  | .holding _ => 2
  | .leaving => 1
  | .exited | .dead => 0

/-- The thread comes to its exit by its own steps. -/
def ExitsAlone (worker : Worker) : Prop :=
  ∃ schedule reached events, (∀ action ∈ schedule, action ∈ threadActions) ∧
    schedule.length ≤ worker.phase.remaining ∧
    worker.execute? schedule = some (reached, events) ∧ reached.isGone = true

variable {initial worker : Worker} {action : Action} {transition : Transition}

theorem ThreadMove.of_step
    (own : action ∈ threadActions)
    (taken : worker.step action = some transition) :
    ThreadMove worker action transition := by
  rcases Move.of_step taken with move | move | move
  · cases move <;> simp [threadActions] at own
  · exact move
  · cases move <;> simp [threadActions] at own

theorem ended_of_closed (closed : worker.isClosed = true) : worker.tenure ≠ .serving := by
  intro serving
  simp [isClosed, serving] at closed

/-- The thread waits with its reply if it is clogged and has come to deliver the reply. -/
theorem replyBlocked_iff :
    worker.ReplyBlocked ↔
      worker.Clogged ∧ ∃ number reply, worker.phase = .replying number reply := by
  constructor
  · intro blocked
    obtain ⟨number, reply, other, replying, filled⟩ := blocked.filled
    refine ⟨⟨by rw [replying]; rfl, by simp [filled], fun released => ?_⟩, number, reply, replying⟩
    have stuck := blocked.2
    rw [step, stepReply, replying] at stuck
    simp only [if_pos released] at stuck
    cases stuck
  · rintro ⟨⟨-, filled, kept⟩, number, reply, replying⟩
    obtain ⟨other, filled⟩ := Option.ne_none_iff_exists'.mp filled
    refine ⟨⟨number, reply, replying⟩, ?_⟩
    simp only [step, stepReply, replying, if_neg kept, filled]

/-! ## The way out -/

/-- A thread behind a closed mailbox can go on, unless it is clogged. -/
theorem threadReady_of_unclogged
    (closed : worker.isClosed = true)
    (unclogged : ¬worker.Clogged)
    (present : worker.isGone = false) :
    worker.ThreadReady := by
  by_cases idle : worker.phase = .receiving ∧ worker.mailbox = []
  · obtain ⟨receiving, empty⟩ := idle
    refine ⟨.hangUp, by simp, ⟨{ worker with phase := .leaving }, none⟩, ?_⟩
    simp only [step, stepHangUp, receiving, empty, closed, if_true]
    rfl
  · apply threadReady present
    · exact fun receiving empty => idle ⟨receiving, empty⟩
    · exact fun blocked => unclogged (replyBlocked_iff.mp blocked).1

/-- When the owner has begun to stop the worker, the thread does not go round its loop
again. -/
theorem ThreadMove.remaining_lt
    (move : ThreadMove worker action transition)
    (ended : worker.tenure ≠ .serving) :
    transition.next.phase.remaining < worker.phase.remaining := by
  cases move with
  | accept _ serving => exact absurd serving ended
  | receive known | hangUp known | heed known | begin known | finish known | die known
  | rest known | deliver known | giveUp known | exit known => simp [Phase.remaining, known]

/-- When the owner has begun to stop the worker, no thread becomes clogged. -/
theorem Move.clogged_of_next
    (move : Move worker action transition)
    (ended : worker.tenure ≠ .serving)
    (clogged : transition.next.Clogged) :
    worker.Clogged := by
  obtain ⟨owes, filled, kept⟩ := clogged
  rcases move with move | move | move
  · cases move with
    | handOver => cases owes
    | takeReply | dropReply => exact absurd rfl filled
    | claim | refuse | number | findBusy | findStopped | findClosed | enqueue | expire
    | disconnect => exact ⟨owes, filled, kept⟩
  · cases move with
    | accept _ serving => exact absurd serving ended
    | begin known | finish known | rest known => exact ⟨by rw [known]; rfl, filled, kept⟩
    | receive | hangUp | heed | die | deliver | giveUp | exit => cases owes
  · cases move with
    | terminate _ serving => exact absurd serving ended
    | terminateAgain => exact ⟨owes, filled, kept⟩
    | close known | closeWithCommand known | join known | abandon known =>
        exact ⟨owes, filled, by simp [known]⟩
    | closeWithHandOver => cases owes
    | release => exact absurd rfl kept

/-- A thread behind a closed mailbox comes to its exit by itself, unless it is clogged. -/
theorem exitsAlone_of_unclogged
    (closed : worker.isClosed = true)
    (unclogged : ¬worker.Clogged) :
    worker.ExitsAlone := by
  induction bound : worker.phase.remaining using Nat.strong_induction_on
    generalizing worker with
  | _ bound inductionHypothesis =>
    cases present : worker.isGone with
    | true => exact ⟨[], worker, [], by simp, Nat.zero_le _, rfl, present⟩
    | false =>
      have ended := ended_of_closed closed
      obtain ⟨action, own, transition, taken⟩ :=
        threadReady_of_unclogged closed unclogged present
      have move := ThreadMove.of_step own taken
      have fewer := move.remaining_lt ended
      have stillClosed : transition.next.isClosed = true := by
        rw [← closed, isClosed, isClosed, move.tenure_eq]
      obtain ⟨schedule, reached, events, owned, short, executed, gone⟩ :=
        inductionHypothesis _ (bound ▸ fewer) stillClosed
          (fun clogged => unclogged ((Move.thread move).clogged_of_next ended clogged)) rfl
      refine ⟨action :: schedule, reached, transition.event?.toList ++ events, ?_, ?_, ?_, gone⟩
      · exact List.forall_mem_cons.mpr ⟨own, owned⟩
      · rw [List.length_cons]
        exact Nat.lt_of_le_of_lt short fewer
      · rw [execute?_cons, taken]
        simp only [executed, Option.map_some]

/-! ## No way out -/

theorem Clogged.present (clogged : worker.Clogged) : worker.isGone = false := by
  have owes := clogged.owes
  cases phase : worker.phase with
  | exited | dead =>
      rw [phase] at owes
      cases owes
  | _ => rw [isGone, phase]

/-- A thread that waits with its reply can do nothing else. -/
theorem ReplyBlocked.not_threadReady (blocked : worker.ReplyBlocked) :
    ¬worker.ThreadReady := by
  obtain ⟨⟨-, filled, kept⟩, number, reply, replying⟩ := replyBlocked_iff.mp blocked
  rintro ⟨action, own, transition, taken⟩
  obtain ⟨-, ⟨-, empty, -⟩ | ⟨released, -⟩⟩ :=
    (ThreadMove.of_step own taken).of_replying replying
  · exact filled empty
  · exact kept released

/-- Nobody but the owner helps a clogged thread, who has to give up the worker for it. -/
theorem Clogged.step
    (clogged : worker.Clogged)
    (unnumbered : worker.call.job? = none)
    (kept : action ≠ .release)
    (taken : worker.step action = some transition) :
    transition.next.Clogged ∨ transition.next.phase = .dead := by
  obtain ⟨owes, filled, unreleased⟩ := clogged
  rcases Move.of_step taken with move | move | move
  · refine Or.inl ?_
    cases move with
    | handOver called | takeReply called | dropReply called =>
        cases (congrArg Call.job? called).symm.trans unnumbered
    | claim | refuse | number | findBusy | findStopped | findClosed | enqueue | expire
    | disconnect => exact ⟨owes, filled, unreleased⟩
  · cases move with
    | die => exact Or.inr rfl
    | begin | finish | rest => exact Or.inl ⟨rfl, filled, unreleased⟩
    | deliver _ _ empty => exact absurd empty filled
    | giveUp _ released => exact absurd released unreleased
    | receive known | hangUp known | accept known | heed known | exit known =>
        rw [known] at owes
        cases owes
  · refine Or.inl ?_
    cases move with
    | closeWithHandOver _ _ receiving =>
        rw [receiving] at owes
        cases owes
    | release => exact absurd rfl kept
    | terminateAgain => exact ⟨owes, filled, unreleased⟩
    | terminate | close | closeWithCommand | join | abandon => exact ⟨owes, filled, nofun⟩

theorem ReplyBlocked.step
    (blocked : worker.ReplyBlocked)
    (unnumbered : worker.call.job? = none)
    (kept : action ≠ .release)
    (taken : worker.step action = some transition) :
    transition.next.ReplyBlocked := by
  obtain ⟨clogged, number, reply, replying⟩ := replyBlocked_iff.mp blocked
  have stays : transition.next.phase = .replying number reply := by
    rcases Move.of_step taken with move | move | move
    · exact (move.phase_eq (by simp [replying])).trans replying
    · obtain ⟨-, ⟨-, empty, -⟩ | ⟨released, -⟩⟩ := move.of_replying replying
      · exact absurd empty clogged.filled
      · exact absurd released clogged.kept
    · exact (move.phase_eq (by simp [replying])).trans replying
  rcases clogged.step unnumbered kept taken with still | dead
  · exact replyBlocked_iff.mpr ⟨still, number, reply, stays⟩
  · cases stays.symm.trans dead

theorem Move.dead
    (move : Move worker action transition)
    (dead : worker.phase = .dead) :
    transition.next.phase = .dead := by
  rcases move with move | move | move
  · exact (move.phase_eq (by simp [dead])).trans dead
  · exact absurd move.present (by simp [isGone, dead])
  · exact (move.phase_eq (by simp [dead])).trans dead

/-- What every step keeps after the owner has begun to stop the worker, as long as the
worker is not given up, a whole schedule keeps. -/
theorem execute?_keeps
    (Holds : Worker → Prop)
    (keeps : ∀ {worker : Worker} {action : Action} {transition : Transition},
      Holds worker → worker.call.job? = none → action ≠ .release →
        worker.step action = some transition → Holds transition.next)
    {schedule : List Action}
    {reached : Worker}
    {events : List Event}
    (bounds : worker.WithinBounds)
    (ended : worker.tenure ≠ .serving)
    (holds : Holds worker)
    (kept : .release ∉ schedule)
    (executed : worker.execute? schedule = some (reached, events)) :
    Holds reached := by
  induction schedule generalizing worker events with
  | nil =>
      cases executed
      exact holds
  | cons action rest inductionHypothesis =>
      rw [List.mem_cons, not_or] at kept
      obtain ⟨transition, later, taken, continued, -⟩ := execute?_cons_eq_some executed
      have unnumbered := bounds.unnumbered ended
      exact inductionHypothesis (bounds.step taken) ((Move.of_step taken).tenure_ne_serving ended)
        (keeps holds unnumbered (Ne.symm kept.1) taken) kept.2 continued

/-! ## How a thread comes to be clogged -/

/-- How many replies a call waits for: none or one. -/
def Call.awaited : Call → Nat
  | .awaiting _ _ => 1
  | _ => 0

/-- Every call that has given up accounts for one entry of the backlog, and so does the
call in progress. -/
structure Tallied (worker : Worker) (expired : Nat) : Prop where
  few : worker.backlog.length ≤ expired + worker.call.awaited
  gone : worker.isGone = true → worker.mailbox = []

namespace Tallied

variable {expired : Nat}

/-- A step of a caller.  A command that is sent is the one that its call waits for, and a
call that ends takes a reply along, unless it gives up. -/
theorem caller
    (tallied : worker.Tallied expired)
    (move : CallerMove worker action transition) :
    transition.next.Tallied (expired + [action].count .expire) := by
  obtain ⟨few, gone⟩ := tallied
  cases move with
  | claim _ called | number called | findBusy called | findStopped called | findClosed called =>
      rw [called] at few
      exact ⟨few, gone⟩
  | refuse => exact ⟨few, gone⟩
  | handOver sending noRoom receiving =>
      rw [sending] at few
      refine ⟨Nat.le_trans ?_ (Nat.succ_le_succ few), by simp [isGone]⟩
      simp [backlog, receiving, Phase.number?, Command.number?]
      omega
  | enqueue sending present =>
      rw [sending] at few
      refine ⟨Nat.le_trans ?_ (Nat.succ_le_succ few),
        fun absent => absurd (present.symm.trans absent) (by simp)⟩
      simp [backlog, Command.number?]
      omega
  | takeReply awaiting filled =>
      rw [awaiting] at few
      refine ⟨Nat.le_of_succ_le_succ (Nat.le_trans ?_ few), gone⟩
      simp [backlog, filled]
  | dropReply awaiting filled =>
      refine ⟨Nat.le_trans ?_ few, gone⟩
      simp [backlog, filled]
  | expire awaiting =>
      rw [awaiting] at few
      exact ⟨few, gone⟩
  | disconnect awaiting empty absent =>
      refine ⟨?_, gone⟩
      have nobody : worker.phase.number? = none := by
        cases phase : worker.phase with
        | exited | dead => rfl
        | _ => simp [isGone, phase] at absent
      simp [backlog, empty, gone absent, nobody]

theorem step
    (tallied : worker.Tallied expired)
    (taken : worker.step action = some transition) :
    transition.next.Tallied (expired + [action].count .expire) := by
  have ⟨few, gone⟩ := tallied
  rcases Move.of_step taken with move | move | move
  · exact tallied.caller move
  · refine ⟨?_, move.mailbox_of_gone⟩
    rw [move.call_eq]
    exact Nat.le_trans move.backlog_sublist.length_le (Nat.le_trans few (by omega))
  · refine ⟨?_, move.mailbox_of_gone gone⟩
    rw [move.call_eq]
    exact Nat.le_trans move.backlog_sublist.length_le (Nat.le_trans few (by omega))

theorem execute
    {schedule : List Action}
    {reached : Worker}
    {events : List Event}
    (tallied : worker.Tallied expired)
    (executed : worker.execute? schedule = some (reached, events)) :
    reached.Tallied (expired + schedule.count .expire) := by
  induction schedule generalizing worker expired events with
  | nil =>
      cases executed
      exact tallied
  | cons action rest inductionHypothesis =>
      obtain ⟨transition, later, taken, continued, -⟩ := execute?_cons_eq_some executed
      have counted := inductionHypothesis (tallied.step taken) continued
      rwa [Nat.add_assoc, ← List.count_append] at counted

end Tallied

/-- The reply in the slot and the one that the thread owes are two entries of the backlog. -/
theorem Clogged.two_le_backlog_length (clogged : worker.Clogged) :
    2 ≤ worker.backlog.length := by
  obtain ⟨owes, filled, -⟩ := clogged
  obtain ⟨other, filled⟩ := Option.ne_none_iff_exists'.mp filled
  have hand : worker.phase.number?.toList.length = 1 := by
    cases phase : worker.phase with
    | admitted | applying | finished | replying => rfl
    | _ =>
        rw [phase] at owes
        cases owes
  rw [backlog, filled, List.length_append, List.length_append, hand]
  simp only [Option.map_some, Option.toList_some, List.length_singleton]
  omega

/-- If every call waits at least until the thread has begun its batch, then a thread that owes
a reply while another one is in the slot works for the call in progress.  The command that the
thread lets pass is a batch that waits, and only a call that waits leaves one. -/
theorem Patiently.awaiting_of_clogged
    (patiently : Patiently initial worker)
    (initialBounds : initial.WithinBounds)
    (narrow : initial.capacity + 1 < Word.limit)
    (sequenced : initial.Sequenced)
    (exclusive : initial.Exclusive)
    (fresh : ¬initial.Clogged)
    (clogged : worker.Clogged) :
    ∃ number batch, worker.call = .awaiting number batch := by
  induction patiently with
  | refl => exact absurd clogged fresh
  | @step worker action transition before patient taken inductionHypothesis =>
      obtain ⟨-, exclusive⟩ := before.invariants initialBounds narrow sequenced exclusive
      obtain ⟨owes, filled, kept⟩ := clogged
      rcases Move.of_step taken with move | move | move
      · cases move with
        | refuse => exact inductionHypothesis ⟨owes, filled, kept⟩
        | handOver | enqueue => exact ⟨_, _, rfl⟩
        | takeReply | dropReply => exact absurd rfl filled
        | expire awaiting limited empty | disconnect awaiting empty => exact absurd empty filled
        | claim _ called | number called | findBusy called | findStopped called
          | findClosed called =>
            obtain ⟨own, batch, awaiting⟩ := inductionHypothesis ⟨owes, filled, kept⟩
            cases called.symm.trans awaiting
      · rw [move.call_eq]
        cases move with
        | accept holding =>
            by_contra free
            push Not at free
            have nothing := exclusive.waitingJobs_eq_nil free
            simp [waitingJobs, holding, Phase.job?, Command.job?] at nothing
        | begin known | finish known | rest known =>
            exact inductionHypothesis ⟨by rw [known]; rfl, filled, kept⟩
        | receive | hangUp | heed | die | deliver | giveUp | exit => cases owes
      · rw [move.call_eq]
        apply inductionHypothesis
        cases move with
        | closeWithHandOver => cases owes
        | release => exact absurd rfl kept
        | terminateAgain => exact ⟨owes, filled, kept⟩
        | terminate _ known | close known | closeWithCommand known | join known
        | abandon known => exact ⟨owes, filled, by simp [known]⟩

/-- Two calls give up before the thread has taken the first command, the thread delivers
its first reply, and nobody collects it.  The second command passes the stop flag. -/
def desertion : List Action :=
  [.submit ⟨1, []⟩, .inspect, .send, .expire, .submit ⟨2, []⟩, .inspect, .send, .expire,
    .receive, .check, .begin, .finish, .rest, .reply, .receive, .check]

/-- The owner stops waiting for a thread that it has told to stop. -/
def abandonment : List Action :=
  [.terminate, .close, .begin, .finish, .rest, .abandon]

end Worker
end StagePipeline
