import StagePipeline.Proofs.Worker.Account
import StagePipeline.Proofs.Worker.Sequence

/-!
# Workers that have been told to stop

The owner raises the stop flag before it does anything else.  A call looks at the owner
before it takes a number, and the thread looks at the flag between taking a command and
beginning it, so that from there on nothing begins but the one command that the thread has
let pass before.

A thread may also go by itself.  While the worker serves only a panic takes it down, and
then its last mark remains, which is that of work in progress.
-/

namespace StagePipeline
namespace Worker

/-- The job that the thread has let pass the stop flag and has not begun. -/
def Phase.passed? : Phase → Option Job
  | .admitted number batch => some (number, batch)
  | _ => none

/-- A worker that takes nothing on. -/
structure Retired (worker : Worker) : Prop where
  state_eq : worker.state = .terminated
  isTerminated_eq : worker.isTerminated = true
  /-- No command is sent. -/
  unsent : worker.step .send = none
  /-- A call is refused, and leaves the worker as it was. -/
  declines : worker.acceptsCalls = true → worker.call = .none → ∀ batch,
    worker.execute? [.submit batch, .inspect] =
      some (worker, [.answered batch (.error worker.stopped)])
  /-- Whatever order the steps are taken in, no call has another answer, unless another
  call was in progress when it came. -/
  answers : ∀ action transition batch reply, worker.step action = some transition →
    transition.event? = some (.answered batch reply) →
    (worker.call = .claimed batch ∧ reply = .error worker.stopped) ∨
      (action = .submit batch ∧ worker.call ≠ .none ∧ reply = .error worker.stillBusy)
  /-- The owner finds nothing left to do. -/
  again : ∀ transition, worker.step .terminate = some transition ↔
    worker.call = .none ∧ worker.tenure = .closed ∧
      transition = ⟨worker, some (.terminated true)⟩

variable {initial worker : Worker} {action : Action} {transition : Transition}

/-- A call that is refused when it looks at the thread's mark leaves the worker as it was. -/
theorem execute?_refused
    {batch : Batch}
    {fault : Fault}
    (accepts : worker.acceptsCalls = true)
    (free : worker.call = .none)
    (refused : { worker with call := .claimed batch }.step .inspect =
      some ⟨{ worker with call := .none }, some (.answered batch (.error fault))⟩) :
    worker.execute? [.submit batch, .inspect] =
      some (worker, [.answered batch (.error fault)]) := by
  have same : { worker with call := .none } = worker := by rw [← free]
  simp only [execute?_cons, step_submit_of_free accepts free, refused, same, execute?_nil]
  rfl

/-! ## The owner has begun to stop the worker -/

/-- When the owner has begun to stop a worker and no call has taken a number, the worker
takes nothing on. -/
theorem Retired.of_ended
    (ended : worker.tenure ≠ .serving)
    (unnumbered : worker.call.job? = none) :
    worker.Retired := by
  have state_eq : worker.state = .terminated := if_pos ended
  refine ⟨state_eq, ?_, ?_, ?_, ?_, ?_⟩
  · rw [isTerminated, state_eq]
    rfl
  · rw [Worker.step, stepSend]
    cases called : worker.call with
    | sending number batch =>
        rw [called] at unnumbered
        cases unnumbered
    | _ => rfl
  · intro accepts free batch
    apply execute?_refused accepts free
    simp only [Worker.step, stepInspect, if_neg ended]
    rfl
  · intro action transition batch reply taken returned
    rcases Move.of_step taken with move | move | move
    · cases move with
      | findStopped claimed =>
          cases returned
          exact Or.inl ⟨claimed, rfl⟩
      | refuse _ called =>
          cases returned
          exact Or.inr ⟨rfl, called, rfl⟩
      | findBusy _ serving => exact absurd serving ended
      | findClosed called | takeReply called | expire called | disconnect called =>
          cases (congrArg Call.job? called).symm.trans unnumbered
      | claim | number | handOver | enqueue | dropReply => cases returned
    · cases move <;> cases returned
    · cases move <;> cases returned
  · intro transition
    rw [Worker.step, stepTerminate]
    constructor
    · intro taken
      split at taken
      · rename_i serving
        exact absurd serving ended
      · rename_i free closed
        cases taken
        exact ⟨free, closed, rfl⟩
      · cases taken
    · rintro ⟨free, closed, rfl⟩
      rw [free, closed]
      rfl

theorem WithinBounds.retired
    (bounds : worker.WithinBounds)
    (ended : worker.tenure ≠ .serving) :
    worker.Retired :=
  .of_ended ended (bounds.unnumbered ended)

theorem Move.tenure_ne_serving
    (move : Move worker action transition)
    (ended : worker.tenure ≠ .serving) :
    transition.next.tenure ≠ .serving := by
  rcases move with move | move | move
  · rwa [move.tenure_eq]
  · rwa [move.tenure_eq]
  · exact move.tenure_ne_serving

theorem Move.next_eq_of_ended
    (move : Move worker action transition)
    (ended : worker.tenure ≠ .serving) :
    transition.next.next = worker.next := by
  rcases move with move | move | move
  · cases move with
    | number _ serving => exact absurd serving ended
    | _ => rfl
  · cases move <;> rfl
  · cases move <;> rfl

/-- The thread begins the job that it has let pass, or loses it, and lets no other pass. -/
theorem Move.passed?_sublist
    (move : Move worker action transition)
    (ended : worker.tenure ≠ .serving) :
    List.Sublist
      ((transition.event?.bind Event.job?).toList ++ transition.next.phase.passed?.toList)
      worker.phase.passed?.toList := by
  rcases move with move | move | move
  · have unbegun : transition.event?.bind Event.job? = none := by cases move <;> rfl
    rw [unbegun, Option.toList_none, List.nil_append]
    rcases move.phase_eq_or with same | ⟨-, command, holding⟩
    · rw [same]
    · rw [holding]
      exact List.nil_sublist _
  · cases move with
    | accept _ serving => exact absurd serving ended
    | begin known => simp [Phase.passed?, Event.job?, known]
    | receive | hangUp | heed | finish | die | rest | deliver | giveUp | exit =>
        exact List.nil_sublist _
  · rw [move.unbegun, Option.toList_none, List.nil_append]
    rcases move.phase_eq_or with same | ⟨-, holding⟩
    · rw [same]
    · rw [holding]
      exact List.nil_sublist _

/-- What a schedule leaves of a worker that the owner has begun to stop. -/
theorem execute?_of_ended
    {schedule : List Action}
    {reached : Worker}
    {events : List Event}
    (executed : worker.execute? schedule = some (reached, events))
    (ended : worker.tenure ≠ .serving) :
    reached.tenure ≠ .serving ∧ reached.next = worker.next ∧
      List.Sublist (begun events ++ reached.phase.passed?.toList)
        worker.phase.passed?.toList := by
  induction schedule generalizing worker events with
  | nil =>
      cases executed
      exact ⟨ended, rfl, List.Sublist.refl _⟩
  | cons action rest inductionHypothesis =>
      obtain ⟨transition, later, taken, continued, rfl⟩ := execute?_cons_eq_some executed
      have move := Move.of_step taken
      obtain ⟨stays, unnumbered, follows⟩ :=
        inductionHypothesis continued (move.tenure_ne_serving ended)
      refine ⟨stays, unnumbered.trans (move.next_eq_of_ended ended), ?_⟩
      rw [begun_append, begun_toList, List.append_assoc]
      exact (follows.append_left _).trans (move.passed?_sublist ended)

/-- What is begun of the job that the thread has let pass. -/
theorem Phase.of_sublist_passed?
    {phase : Phase}
    {jobs : List Job}
    (few : jobs.Sublist phase.passed?.toList) :
    jobs = [] ∨ ∃ number batch, phase = .admitted number batch ∧ jobs = [(number, batch)] := by
  cases phase with
  | admitted number batch =>
      rcases List.sublist_singleton.mp few with nothing | same
      · exact Or.inl nothing
      · exact Or.inr ⟨number, batch, rfl, same⟩
  | _ => exact Or.inl (List.sublist_nil.mp few)

theorem step_terminate_of_serving
    (serving : worker.tenure = .serving)
    (taken : worker.step .terminate = some transition) :
    transition = ⟨{ worker with tenure := .stopping }, none⟩ := by
  rcases Move.of_step taken with move | move | move
  · cases move
  · cases move
  · cases move with
    | terminate => rfl
    | terminateAgain free closed => cases serving.symm.trans closed

/-! ## Numbers differ -/

/-- Fewer numbers in a row than there are words differ from the first one.  Up to its second
place the number would be both the first and the last of a row. -/
theorem Consecutive.not_mem
    {number : UInt64}
    {rest : List UInt64}
    (consecutive : Consecutive (number :: rest))
    (few : rest.length < Word.limit) :
    number ∉ rest := by
  intro present
  obtain ⟨front, behind, rfl⟩ := List.append_of_mem present
  have again : number :: (front ++ number :: behind) =
      number :: (front ++ [number]) ++ behind := by simp
  rw [again] at consecutive
  have inFront : Consecutive (number :: (front ++ [number])) := consecutive.left_of_append
  have alone := inFront.eq_singleton (by rw [← List.cons_append, List.getLast?_concat]) (by
    simp only [List.length_append, List.length_cons, List.length_nil] at few ⊢
    omega)
  exact absurd alone (by simp)

/-- The command that the thread has let pass does not wait as well. -/
theorem Sequenced.passed_not_mem
    {number : UInt64}
    {batch other : Batch}
    (sequenced : worker.Sequenced)
    (bounds : worker.WithinBounds)
    (narrow : worker.capacity + 1 < Word.limit)
    (serving : worker.tenure = .serving)
    (passed : worker.phase = .admitted number batch) :
    .process number other ∉ worker.mailbox := by
  intro waiting
  have consecutive := sequenced.consecutive serving (by rw [isGone, passed])
  have inBacklog : Consecutive worker.backlog := consecutive.left_of_append.left_of_append
  rw [backlog, passed, List.append_assoc] at inBacklog
  have behind : Consecutive (number :: worker.mailbox.filterMap Command.number?) :=
    inBacklog.right_of_append
  have short := filterMap_number?_length_le worker.mailbox
  have room := bounds.room
  exact behind.not_mem (by omega) (List.mem_filterMap.mpr ⟨_, waiting, rfl⟩)

/-- Once the owner has begun to stop a worker, whatever the worker has done before and
whatever order all further steps are taken in: it is seen as terminated, every call is
refused and takes no number, and stopping it once more does nothing.  The thread begins
nothing but the command that it had let pass when the stop flag went up, if there was one,
so that no command that waited in the mailbox then is ever begun. -/
theorem terminate_absorbs
    (stage : Stage)
    (ordinal : Nat)
    (settings : Settings)
    (clock : UInt64 → Timestamp)
    (initial middle reached : Worker)
    (before after : List Action)
    (early later : List Event)
    (spawned : spawn? stage ordinal settings clock = some initial)
    (led : initial.execute? before = some (middle, early))
    (serving : middle.tenure = .serving)
    (executed : middle.execute? (.terminate :: after) = some (reached, later)) :
    reached.Retired ∧ reached.next = middle.next ∧
      (begun later = [] ∨ ∃ number batch,
        middle.phase = .admitted number batch ∧ begun later = [(number, batch)]) ∧
      ∀ number batch, .process number batch ∈ middle.mailbox →
        (number, batch) ∉ begun later := by
  obtain ⟨rfl, narrow⟩ := narrow_of_spawn? spawned
  have initialBounds := WithinBounds.ofStage stage ordinal settings clock
  have reachable := Reachable.of_execute? led
  have bounds := initialBounds.reachable reachable
  have sequenced :=
    (Sequenced.ofStage stage ordinal settings clock).reachable initialBounds reachable
  have narrow : middle.capacity + 1 < Word.limit := by
    rw [reachable.capacity_eq]
    exact narrow
  obtain ⟨transition, rest, taken, continued, rest_eq⟩ := execute?_cons_eq_some executed
  obtain rfl := step_terminate_of_serving serving taken
  obtain rfl : later = rest := rest_eq
  obtain ⟨ended, unnumbered, follows⟩ := execute?_of_ended continued nofun
  have few : List.Sublist (begun later) middle.phase.passed?.toList :=
    (List.sublist_append_left _ _).trans follows
  have bounded := (bounds.step taken).reachable (.of_execute? continued)
  refine ⟨bounded.retired ended, unnumbered, Phase.of_sublist_passed? few, ?_⟩
  intro number batch waiting begins
  rcases Phase.of_sublist_passed? few with nothing | ⟨own, content, passed, same⟩
  · rw [nothing] at begins
    cases begins
  · rw [same, List.mem_singleton] at begins
    cases begins
    exact sequenced.passed_not_mem bounds narrow serving passed waiting

/-- Two calls give up, and the thread has let the command of the first one pass. -/
def standoff : List Action :=
  [.submit ⟨1, []⟩, .inspect, .send, .expire, .submit ⟨2, []⟩, .inspect, .send, .expire,
    .receive, .check]

/-- The owner stops waiting for the thread, and another call comes before it is gone. -/
def dismissal : List Action :=
  [.begin, .close, .abandon, .submit ⟨3, []⟩, .finish, .inspect, .rest, .reply, .receive,
    .check, .exit]

/-- The command that has passed is begun after the worker has been told to stop, the one
that waits is not. -/
theorem terminate_absorbs_standoff :
    ∃ initial middle reached early later,
      spawn? .filter 0 (hurried 2) (fun _ => default) = some initial ∧
      initial.execute? standoff = some (middle, early) ∧
      middle.mailbox = [.process 1 ⟨2, []⟩] ∧
      middle.execute? (.terminate :: dismissal) = some (reached, later) ∧
      begun later = [(0, ⟨1, []⟩)] ∧ reached.isGone = true ∧ reached.Retired ∧
      (1, ⟨2, []⟩) ∉ begun later := by
  have spawned : spawn? .filter 0 (hurried 2) (fun _ => default) = some _ := rfl
  have led : (ofStage .filter 0 (hurried 2) fun _ => default).execute? standoff =
      some (_, _) := rfl
  obtain ⟨retired, -, -, unbegun⟩ :=
    terminate_absorbs _ _ _ _ _ _ _ _ _ _ _ spawned led rfl
      (show execute? _ (.terminate :: dismissal) = some (_, _) from rfl)
  exact ⟨_, _, _, _, _, spawned, led, rfl, rfl, rfl, rfl, retired,
    unbegun 1 ⟨2, []⟩ List.mem_cons_self⟩

/-! ## The thread has gone by itself -/

/-- A thread that is dead has been taken down by a job that it has begun. -/
structure Traced (worker : Worker) (done : List Job) : Prop where
  applying : ∀ number batch, worker.phase = .applying number batch → (number, batch) ∈ done
  dead : worker.phase = .dead →
    ∃ job ∈ done, worker.stage.apply (worker.clock job.1) job.2 = .death

namespace Traced

variable {done : List Job}

theorem ofStage
    (stage : Stage)
    (ordinal : Nat)
    (settings : Settings)
    (clock : UInt64 → Timestamp) :
    (ofStage stage ordinal settings clock).Traced [] := by
  constructor
  · intro number batch applying
    cases applying
  · intro dead
    cases dead

theorem step
    (traced : worker.Traced done)
    (taken : worker.step action = some transition) :
    transition.next.Traced (done ++ (transition.event?.bind Event.job?).toList) := by
  have move := Move.of_step taken
  obtain ⟨sameStage, sameClock, -⟩ := move.fixed
  constructor
  · intro number batch applying
    rcases move.applying applying with before | begins
    · exact List.mem_append_left _ (traced.applying number batch before)
    · rw [begins]
      exact List.mem_append_right _ List.mem_cons_self
  · rw [sameStage, sameClock]
    intro dead
    have before : worker.phase = .dead ∨ ∃ number batch,
        worker.phase = .applying number batch ∧
          worker.stage.reply? (worker.clock number) batch = none := by
      rcases move with move | move | move
      · rcases move.phase_eq_or with same | ⟨-, command, holding⟩
        · exact Or.inl (same.symm.trans dead)
        · cases holding.symm.trans dead
      · cases move with
        | die applying silent => exact Or.inr ⟨_, _, applying, silent⟩
        | receive | hangUp | accept | heed | begin | finish | rest | deliver | giveUp | exit =>
            cases dead
      · rcases move.phase_eq_or with same | ⟨-, holding⟩
        · exact Or.inl (same.symm.trans dead)
        · cases holding.symm.trans dead
    rcases before with before | ⟨number, batch, applying, silent⟩
    · obtain ⟨job, begins, kills⟩ := traced.dead before
      exact ⟨job, List.mem_append_left _ begins, kills⟩
    · exact ⟨(number, batch), List.mem_append_left _ (traced.applying number batch applying),
        Stage.apply_of_reply?_eq_none silent⟩

theorem execute
    (traced : worker.Traced done)
    {schedule : List Action}
    {reached : Worker}
    {events : List Event}
    (executed : worker.execute? schedule = some (reached, events)) :
    reached.Traced (done ++ begun events) := by
  induction schedule generalizing worker done events with
  | nil =>
      cases executed
      rwa [begun, List.filterMap_nil, List.append_nil]
  | cons action rest inductionHypothesis =>
      obtain ⟨transition, later, taken, continued, rfl⟩ := execute?_cons_eq_some executed
      rw [begun_append, begun_toList, ← List.append_assoc]
      exact inductionHypothesis (traced.step taken) continued

end Traced

/-- A worker that counts as busy with an earlier batch and refuses every call for it. -/
structure Orphaned (worker : Worker) : Prop where
  state_eq : worker.state = .busy
  isTerminated_eq : worker.isTerminated = false
  declines : worker.call = .none → ∀ batch,
    worker.execute? [.submit batch, .inspect] =
      some (worker, [.answered batch (.error worker.stillBusy)])

theorem Orphaned.of_busy
    (serving : worker.tenure = .serving)
    (busy : worker.mark = .busy) :
    worker.Orphaned := by
  have state_eq : worker.state = .busy := by
    rw [state, if_neg (not_not_intro serving), busy]
  refine ⟨state_eq, ?_, ?_⟩
  · rw [isTerminated, state_eq]
    rfl
  · intro free batch
    apply execute?_refused (by rw [acceptsCalls, serving]) free
    simp only [step, stepInspect, serving, busy, if_true]
    rfl

/-- A worker whose thread is gone says so, or it serves, its stage has taken the thread down
at a batch that it had begun, and it goes on to count as busy. -/
theorem gone_cases
    {stage : Stage}
    {ordinal : Nat}
    {settings : Settings}
    {clock : UInt64 → Timestamp}
    {reached : Worker}
    {schedule : List Action}
    {events : List Event}
    (spawned : spawn? stage ordinal settings clock = some initial)
    (executed : initial.execute? schedule = some (reached, events))
    (gone : reached.isGone = true) :
    reached.Retired ∨ reached.tenure = .serving ∧ reached.Orphaned ∧
      ∃ job ∈ begun events, stage.apply (clock job.1) job.2 = .death := by
  obtain ⟨rfl, -⟩ := narrow_of_spawn? spawned
  have initialBounds := WithinBounds.ofStage stage ordinal settings clock
  have reachable := Reachable.of_execute? executed
  by_cases serving : reached.tenure = .serving
  · have sequenced :=
      (Sequenced.ofStage stage ordinal settings clock).reachable initialBounds reachable
    have dead : reached.phase = .dead := by
      cases phase : reached.phase with
      | dead => rfl
      | exited => exact absurd phase (sequenced.attended serving).2
      | _ => simp [isGone, phase] at gone
    have busy : reached.mark = .busy := by
      rw [sequenced.marked, dead]
      rfl
    have traced := (Traced.ofStage stage ordinal settings clock).execute executed
    obtain ⟨job, begins, kills⟩ := traced.dead dead
    obtain ⟨sameStage, sameClock, -⟩ := reachable.fixed
    rw [sameStage, sameClock] at kills
    exact Or.inr ⟨serving, .of_busy serving busy, job, begins, kills⟩
  · exact Or.inl ((initialBounds.reachable reachable).retired serving)

/-- A worker whose thread is gone says so, unless the thread has been taken down by its
stage and the owner has not begun to stop the worker. -/
theorem gone_retired
    (stage : Stage)
    (ordinal : Nat)
    (settings : Settings)
    (clock : UInt64 → Timestamp)
    (initial reached : Worker)
    (schedule : List Action)
    (events : List Event)
    (spawned : spawn? stage ordinal settings clock = some initial)
    (executed : initial.execute? schedule = some (reached, events))
    (gone : reached.isGone = true)
    (spared : reached.tenure = .serving →
      ∀ job ∈ begun events, stage.apply (clock job.1) job.2 ≠ .death) :
    reached.Retired := by
  rcases gone_cases spawned executed gone with retired | ⟨serving, -, job, begins, kills⟩
  · exact retired
  · exact absurd kills (spared serving job begins)

/-- A stage that takes its thread down at a batch without records. -/
def fragile : Stage :=
  ⟨"fragile", .custom
    ⟨fun batch => if batch.isEmpty then .death else .output (.batch batch), fun _ => false⟩⟩

/-- A call whose stage takes the thread down, up to its return. -/
def fatality : List Action :=
  [.submit ⟨1, []⟩, .inspect, .send, .receive, .check, .begin, .finish, .disconnect]

/-- The stage has taken its thread down, and then the owner has stopped the worker. -/
theorem gone_retired_fragile :
    ∃ initial reached events,
      spawn? fragile 0 .standard (fun _ => default) = some initial ∧
      initial.execute? (fatality ++ [.terminate, .close, .join]) = some (reached, events) ∧
      reached.phase = .dead ∧ reached.acceptsCalls = true ∧ reached.Retired := by
  have spawned : spawn? fragile 0 .standard (fun _ => default) = some _ := rfl
  have executed : (ofStage fragile 0 .standard fun _ => default).execute?
      (fatality ++ [.terminate, .close, .join]) = some (_, _) := rfl
  exact ⟨_, _, _, spawned, executed, rfl, rfl,
    gone_retired _ _ _ _ _ _ _ _ spawned executed rfl nofun⟩

/-- The stage has taken its thread down, and the worker is seen as busy for as long as the
owner does not stop it: it refuses every call as if an earlier batch were in progress. -/
theorem death_leaves_busy :
    ∃ initial reached events,
      spawn? fragile 0 .standard (fun _ => default) = some initial ∧
      initial.execute? fatality = some (reached, events) ∧
      reached.isGone = true ∧ reached.call = .none ∧ reached.state = .busy ∧
      reached.isTerminated = false ∧
      ∀ batch, reached.execute? [.submit batch, .inspect] =
        some (reached, [.answered batch (.error reached.stillBusy)]) :=
  ⟨_, _, _, rfl, rfl, rfl, rfl, rfl, rfl, fun _ => rfl⟩

end Worker
end StagePipeline
