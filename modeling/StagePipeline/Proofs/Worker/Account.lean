import Mathlib.Data.List.Nodup
import StagePipeline.Proofs.Worker.Receipts

/-!
# The account of a worker

A reply that comes too late stays behind in the slot, and later calls meet it
there.  The numbers keep replies and calls apart: the account of a worker, which
every step preserves, says whose jobs there are, in which order they are begun,
and that every reply belongs to a job that has been begun.  What a call returns of
the stage is therefore what the stage has made of its own batch.
-/

namespace StagePipeline
namespace Worker

/-- The jobs that belong to the calls that have returned and to the one in progress,
in the order in which they took their numbers. -/
def owners (receipts : List Receipt) (call : Call) : List Job :=
  receipts.filterMap Receipt.job? ++ call.job?.toList

/-- What a receipt may say of a worker.  A reply of the stage is what the stage makes
of the batch of the call itself, begun under the number of the call.  A refused call
has taken no number. -/
structure Receipt.Truthful (receipt : Receipt) (worker : Worker) (events : List Event) :
    Prop where
  own : receipt.reply.isOfStage = true →
    ∃ number, receipt.number? = some number ∧ (number, receipt.batch) ∈ begun events ∧
      worker.stage.reply? (worker.clock number) receipt.batch = some receipt.reply
  refused : receipt.reply = .error worker.stillBusy ∨ receipt.reply = .error worker.stopped →
    receipt.number? = none

/-- What holds of a worker after so many calls, given what has been seen of it and
the receipts of the calls that have returned. -/
structure Account
    (initial worker : Worker)
    (events : List Event)
    (receipts : List Receipt)
    (calls : Nat) :
    Prop where
  stage : worker.stage = initial.stage
  clock : worker.clock = initial.clock
  roomless : worker.Roomless
  /-- Every number has been taken by a call of its own. -/
  budget : worker.next.toNat + worker.call.unnumbered ≤ calls
  /-- Later calls take larger numbers. -/
  numbered : ((owners receipts worker.call).map Prod.fst).Pairwise (· < ·)
  taken : ∀ job ∈ owners receipts worker.call, job.1 < worker.next
  /-- Jobs are begun in the order of their numbers. -/
  ordered : ((begun events ++ worker.jobs).map Prod.fst).Pairwise (· < ·)
  /-- Every job is that of a call. -/
  owned : ∀ job ∈ begun events ++ worker.jobs, job ∈ owners receipts worker.call
  /-- Every reply is that to a job that has been begun. -/
  replied : ∀ number reply, (number, reply) ∈ worker.replies →
    ∃ batch, (number, batch) ∈ begun events ∧
      initial.stage.reply? (initial.clock number) batch = some reply
  applied : ∀ number batch, worker.phase = .applying number batch →
    (number, batch) ∈ begun events
  truthful : ∀ receipt ∈ receipts, receipt.Truthful initial events

theorem begun_append (events later : List Event) :
    begun (events ++ later) = begun events ++ begun later :=
  List.filterMap_append

theorem begun_toList (event? : Option Event) :
    begun event?.toList = (event?.bind Event.job?).toList :=
  filterMap_toList Event.job? event?

namespace Receipt.Truthful

variable {receipt : Receipt} {worker : Worker} {events : List Event}

theorem ofUnnumbered
    (foreign : receipt.reply.isOfStage = false)
    (unnumbered : receipt.number? = none) :
    receipt.Truthful worker events where
  own ofStage := by simp [foreign] at ofStage
  refused _ := unnumbered

theorem ofFault
    (foreign : receipt.reply.isOfStage = false)
    (accepted :
      ¬(receipt.reply = .error worker.stillBusy ∨ receipt.reply = .error worker.stopped)) :
    receipt.Truthful worker events where
  own ofStage := by simp [foreign] at ofStage
  refused refused := absurd refused accepted

theorem ofReply
    {number : UInt64}
    (numbered : receipt.number? = some number)
    (applied : (number, receipt.batch) ∈ begun events)
    (replied : worker.stage.reply? (worker.clock number) receipt.batch = some receipt.reply) :
    receipt.Truthful worker events where
  own _ := ⟨number, numbered, applied, replied⟩
  refused refused := by
    have genuine := Reply.isOfStage_of_reply? replied
    rcases refused with refused | refused <;> rw [refused] at genuine <;> cases genuine

theorem later
    (truthful : receipt.Truthful worker events)
    (later : List Event) :
    receipt.Truthful worker (events ++ later) where
  own ofStage := by
    obtain ⟨number, numbered, applied, replied⟩ := truthful.own ofStage
    refine ⟨number, numbered, ?_, replied⟩
    rw [begun_append]
    exact List.mem_append_left _ applied
  refused := truthful.refused

end Receipt.Truthful

namespace Account

variable
  {initial worker : Worker}
  {events : List Event}
  {receipts : List Receipt}
  {calls : Nat}

/-- A new worker has nothing on its account. -/
theorem ofStage
    (stage : Stage)
    (ordinal : Nat)
    (settings : Settings)
    (clock : UInt64 → Timestamp) :
    Account (Worker.ofStage stage ordinal settings clock)
      (Worker.ofStage stage ordinal settings clock) [] [] 0 := by
  constructor <;>
    simp [Worker.ofStage, Roomless, Call.unnumbered, owners, Call.job?, begun, jobs, waitingJobs,
      Phase.job?, Call.unsent?, Worker.replies]

/-- A number belongs to one batch only. -/
theorem batch_unique
    (account : Account initial worker events receipts calls)
    {number : UInt64}
    {batch other : Batch}
    (owned : (number, batch) ∈ owners receipts worker.call)
    (alsoOwned : (number, other) ∈ owners receipts worker.call) :
    batch = other := by
  have distinct : ((owners receipts worker.call).map Prod.fst).Nodup :=
    account.numbered.imp UInt64.ne_of_lt
  have same := List.inj_on_of_nodup_map distinct owned alsoOwned rfl
  exact congrArg Prod.snd same

/-- The call in progress is answered with what the stage makes of its own batch. -/
theorem reply_own
    (account : Account initial worker events receipts calls)
    {number : UInt64}
    {batch : Batch}
    {reply : Reply}
    (awaiting : worker.call = .awaiting number batch)
    (filled : worker.slot = some (number, reply)) :
    (number, batch) ∈ begun events ∧
      initial.stage.reply? (initial.clock number) batch = some reply := by
  obtain ⟨other, applied, replied⟩ := account.replied number reply (mem_replies_of_slot filled)
  have owned : (number, batch) ∈ owners receipts worker.call := by
    simp [owners, awaiting, Call.job?]
  have alsoOwned := account.owned _ (List.mem_append_left worker.jobs applied)
  have same : other = batch := account.batch_unique alsoOwned owned
  subst same
  exact ⟨applied, replied⟩

/-- The call that a step lets return has a truthful receipt. -/
theorem receipt_truthful
    (account : Account initial worker events receipts calls)
    {action : Action}
    {transition : Transition}
    {receipt : Receipt}
    (move : Move worker action transition)
    (issued : worker.receipt? action transition.event? = some receipt) :
    receipt.Truthful initial events := by
  rcases move with move | move | move
  · cases move with
    | claim => cases issued
    | number => cases issued
    | handOver => cases issued
    | enqueue => cases issued
    | dropReply => cases issued
    | refuse =>
        cases issued
        exact .ofUnnumbered rfl rfl
    | findBusy claimed =>
        cases issued
        exact .ofUnnumbered rfl (by simp [claimed, Call.job?])
    | findStopped claimed =>
        cases issued
        exact .ofUnnumbered rfl (by simp [claimed, Call.job?])
    | findClosed sending =>
        cases issued
        exact .ofFault rfl (by simp [mailboxClosed, stillBusy, stopped, unavailable])
    | expire awaiting =>
        cases issued
        exact .ofFault rfl (by simp [stillBusy, stopped, unavailable])
    | disconnect awaiting =>
        cases issued
        exact .ofFault rfl (by simp [threadGone, stillBusy, stopped, unavailable])
    | @takeReply number batch reply awaiting filled =>
        cases issued
        obtain ⟨applied, replied⟩ := account.reply_own awaiting filled
        exact .ofReply (by simp [awaiting, Call.job?, Action.isSubmit]) applied replied
  · cases move <;> cases issued
  · cases move <;> cases issued

/-- The account after a step that takes no number. -/
theorem keep
    (account : Account initial worker events receipts calls)
    {action : Action}
    {transition : Transition}
    (move : Move worker action transition)
    (unnumbered : transition.next.next = worker.next) :
    Account initial transition.next (events ++ transition.event?.toList)
      (receipts ++ (worker.receipt? action transition.event?).toList) (calls + action.calls) := by
  obtain ⟨sameStage, sameClock, -⟩ := move.fixed
  have owners_eq :
      owners (receipts ++ (worker.receipt? action transition.event?).toList)
        transition.next.call = owners receipts worker.call := by
    rw [owners, List.filterMap_append, List.append_assoc, filterMap_toList,
      move.owner_eq unnumbered, owners]
  have order := move.jobs_sublist account.roomless unnumbered
  have passed :
      List.Sublist (begun (events ++ transition.event?.toList) ++ transition.next.jobs)
        (begun events ++ worker.jobs) := by
    rw [begun_append, begun_toList, List.append_assoc]
    exact order.append_left _
  have still : ∀ job ∈ begun events, job ∈ begun (events ++ transition.event?.toList) := by
    intro job applied
    rw [begun_append]
    exact List.mem_append_left _ applied
  exact {
    stage := sameStage.trans account.stage
    clock := sameClock.trans account.clock
    roomless := move.roomless account.roomless
    budget := by
      have claims := move.unnumbered_le unnumbered
      have budget := account.budget
      rw [unnumbered]
      omega
    numbered := by
      rw [owners_eq]
      exact account.numbered
    taken := by
      rw [owners_eq, unnumbered]
      exact account.taken
    ordered := account.ordered.sublist (passed.map Prod.fst)
    owned := by
      rw [owners_eq]
      exact fun job present => account.owned job (passed.subset present)
    replied := by
      intro number reply present
      rcases move.replies present with present | ⟨batch, applying, replied⟩
      · obtain ⟨batch, applied, replied⟩ := account.replied number reply present
        exact ⟨batch, still _ applied, replied⟩
      · rw [account.stage, account.clock] at replied
        exact ⟨batch, still _ (account.applied number batch applying), replied⟩
    applied := by
      intro number batch applying
      rcases move.applying applying with applying | began
      · exact still _ (account.applied number batch applying)
      · rw [begun_append, began]
        exact List.mem_append_right _ (List.mem_singleton.mpr rfl)
    truthful := by
      intro receipt present
      rcases List.mem_append.mp present with old | issued
      · exact (account.truthful receipt old).later _
      · exact (account.receipt_truthful move (Option.mem_toList.mp issued)).later _ }

/-- The account after a call has taken a number. -/
theorem number
    (account : Account initial worker events receipts calls)
    {batch : Batch}
    (claimed : worker.call = .claimed batch)
    (few : calls < Word.limit) :
    Account initial
      { worker with call := .sending worker.next batch, next := worker.next + 1 }
      events receipts calls := by
  have budget := account.budget
  simp only [claimed, Call.unnumbered] at budget
  have bounded : worker.next.toNat + 1 < 2 ^ 64 := Nat.lt_of_le_of_lt budget few
  have next_eq : (worker.next + 1).toNat = worker.next.toNat + 1 := by
    rw [UInt64.toNat_add]
    exact Nat.mod_eq_of_lt bounded
  have next_lt : worker.next < worker.next + 1 := by
    rw [UInt64.lt_iff_toNat_lt, next_eq]
    exact Nat.lt_succ_self _
  have owners_eq :
      owners receipts (.sending worker.next batch) =
        owners receipts worker.call ++ [(worker.next, batch)] := by
    simp [owners, claimed, Call.job?]
  have jobs_eq :
      begun events ++
          { worker with call := .sending worker.next batch, next := worker.next + 1 }.jobs =
        (begun events ++ worker.jobs) ++ [(worker.next, batch)] := by
    simp [jobs, waitingJobs, Call.unsent?, claimed]
  exact {
    stage := account.stage
    clock := account.clock
    roomless := account.roomless
    budget := by
      simp only [Call.unnumbered, next_eq]
      exact budget
    numbered := by
      rw [owners_eq, List.map_append, List.pairwise_append]
      refine ⟨account.numbered, List.pairwise_singleton _ _, ?_⟩
      simp only [List.mem_map, List.map_singleton, List.mem_singleton]
      rintro number ⟨job, owned, rfl⟩ _ rfl
      exact account.taken job owned
    taken := by
      rw [owners_eq]
      intro job owned
      rcases List.mem_append.mp owned with owned | last
      · exact UInt64.lt_trans (account.taken job owned) next_lt
      · rw [List.mem_singleton.mp last]
        exact next_lt
    ordered := by
      rw [jobs_eq, List.map_append, List.pairwise_append]
      refine ⟨account.ordered, List.pairwise_singleton _ _, ?_⟩
      simp only [List.mem_map, List.map_singleton, List.mem_singleton]
      rintro number ⟨job, present, rfl⟩ _ rfl
      exact account.taken job (account.owned job present)
    owned := by
      rw [jobs_eq, owners_eq]
      intro job present
      rcases List.mem_append.mp present with present | last
      · exact List.mem_append_left _ (account.owned job present)
      · exact List.mem_append_right _ last
    replied := account.replied
    applied := account.applied
    truthful := account.truthful }

/-- The account after a step. -/
theorem step
    (account : Account initial worker events receipts calls)
    {action : Action}
    {transition : Transition}
    (taken : worker.step action = some transition)
    (few : calls < Word.limit) :
    Account initial transition.next (events ++ transition.event?.toList)
      (receipts ++ (worker.receipt? action transition.event?).toList) (calls + action.calls) := by
  have move := Move.of_step taken
  by_cases unnumbered : transition.next.next = worker.next
  · exact account.keep move unnumbered
  · obtain ⟨batch, claimed, rfl, rfl⟩ := move.of_next_ne unnumbered
    simpa [receipt?, Action.calls, Action.isSubmit] using account.number claimed few

/-- The account after a schedule. -/
theorem execute
    (account : Account initial worker events receipts calls)
    {schedule : List Action}
    {reached : Worker}
    {later : List Event}
    (executed : worker.execute? schedule = some (reached, later))
    (few : calls + schedule.countP Action.isSubmit < Word.limit) :
    Account initial reached (events ++ later) (receipts ++ worker.receipts schedule)
      (calls + schedule.countP Action.isSubmit) := by
  induction schedule generalizing worker events receipts calls later with
  | nil =>
      cases executed
      simpa [Worker.receipts] using account
  | cons action rest inductionHypothesis =>
      obtain ⟨transition, following, taken, continued, rfl⟩ := execute?_cons_eq_some executed
      rw [countP_isSubmit_cons, ← Nat.add_assoc] at few ⊢
      have stepped := account.step taken (by omega)
      have followed := inductionHypothesis stepped continued few
      simpa [Worker.receipts, taken, List.append_assoc] using followed

end Account

/-! ## Every call and its return -/

/-- The batch of a new call. -/
def Action.batch? : Action → Option Batch
  | .submit batch => some batch
  | _ => none

/-- The batch of a call. -/
def Call.batch? : Call → Option Batch
  | .none => Option.none
  | .claimed batch => some batch
  | .sending _ batch => some batch
  | .awaiting _ batch => some batch

theorem Move.batches_perm
    {worker : Worker}
    {action : Action}
    {transition : Transition}
    (move : Move worker action transition) :
    (worker.call.batch?.toList ++ action.batch?.toList).Perm
      ((worker.receipt? action transition.event?).toList.map Receipt.batch ++
        transition.next.call.batch?.toList) := by
  rcases move with move | move | move
  · cases move with
    | refuse =>
        simp only [Action.batch?, receipt?, Option.toList_some, List.map_singleton]
        exact List.perm_append_comm
    | claim _ known | number known | findBusy known | findStopped known | findClosed known
    | handOver known | enqueue known | takeReply known | dropReply known | expire known
    | disconnect known => simp [Action.batch?, Call.batch?, receipt?, known]
  · cases move <;> simp [Action.batch?, receipt?]
  · cases move <;> simp [Action.batch?, receipt?]

/-- Every call has returned once, with its own batch, or is in progress. -/
theorem receipts_batches_perm
    {worker reached : Worker}
    {schedule : List Action}
    {events : List Event}
    (executed : worker.execute? schedule = some (reached, events)) :
    (worker.call.batch?.toList ++ schedule.filterMap Action.batch?).Perm
      ((worker.receipts schedule).map Receipt.batch ++ reached.call.batch?.toList) := by
  induction schedule generalizing worker events with
  | nil =>
      cases executed
      simp [receipts]
  | cons action rest inductionHypothesis =>
      obtain ⟨transition, later, taken, continued, -⟩ := execute?_cons_eq_some executed
      have followed := inductionHypothesis continued
      have moved := (Move.of_step taken).batches_perm
      have split :
          (action :: rest).filterMap Action.batch? =
            action.batch?.toList ++ rest.filterMap Action.batch? := by
        cases batch : action.batch? <;> simp [batch]
      rw [split, ← List.append_assoc]
      refine (moved.append_right _).trans ?_
      simp only [receipts, taken, List.map_append, List.append_assoc]
      exact followed.append_left _

theorem map_fst_filterMap_job (receipts : List Receipt) :
    (receipts.filterMap Receipt.job?).map Prod.fst = receipts.filterMap Receipt.number? := by
  rw [List.map_filterMap]
  congr 1
  funext receipt
  cases number : receipt.number? <;> simp [Receipt.job?, number]

theorem mem_begun {events : List Event} {number : UInt64} {batch : Batch} :
    (number, batch) ∈ begun events ↔ .began number batch ∈ events := by
  rw [begun, List.mem_filterMap]
  constructor
  · rintro ⟨event, present, job⟩
    cases event with
    | began =>
        cases job
        exact present
    | _ => cases job
  · intro present
    exact ⟨_, present, rfl⟩

/-- Under every schedule of callers, thread and owner, each call returns at most once.
What it returns of the stage is what the stage has made of the batch of this very call.
All numbers that calls have taken differ, and so do those of all jobs that have been
begun, so that no reply is returned twice.  Every job that has been begun or waits
belongs to the call with its number, and a refused call has taken none. -/
theorem call_returns_own_result
    (stage : Stage)
    (ordinal : Nat)
    (settings : Settings)
    (clock : UInt64 → Timestamp)
    (schedule : List Action)
    (reached : Worker)
    (events : List Event)
    (executed :
      (ofStage stage ordinal settings clock).execute? schedule = some (reached, events))
    (few : schedule.countP Action.isSubmit < Word.limit) :
    let worker := ofStage stage ordinal settings clock
    let receipts := worker.receipts schedule
    receipts.map Receipt.event = events.filter Event.isAnswer ∧
    (schedule.filterMap Action.batch?).Perm
      (receipts.map Receipt.batch ++ reached.call.batch?.toList) ∧
    (∀ receipt ∈ receipts, receipt.reply.isOfStage = true →
      ∃ number, receipt.number? = some number ∧ .began number receipt.batch ∈ events ∧
        stage.reply? (clock number) receipt.batch = some receipt.reply) ∧
    (receipts.filterMap Receipt.number? ++ (reached.call.job?.map Prod.fst).toList).Nodup ∧
    ((begun events).map Prod.fst).Nodup ∧
    (∀ number batch, (number, batch) ∈ begun events ++ reached.jobs →
      (∃ receipt ∈ receipts, receipt.number? = some number ∧ receipt.batch = batch) ∨
        reached.call.job? = some (number, batch)) ∧
    (∀ receipt ∈ receipts,
      receipt.reply = .error worker.stillBusy ∨ receipt.reply = .error worker.stopped →
        receipt.number? = none) := by
  intro worker receipts
  have account := (Account.ofStage stage ordinal settings clock).execute executed
    (by simpa using few)
  simp only [List.nil_append, Nat.zero_add] at account
  refine ⟨receipts_event executed, ?_, ?_, ?_, ?_, ?_, ?_⟩
  · exact receipts_batches_perm executed
  · intro receipt issued ofStage
    obtain ⟨number, numbered, applied, replied⟩ := (account.truthful receipt issued).own ofStage
    exact ⟨number, numbered, mem_begun.mp applied, replied⟩
  · have distinct := account.numbered.imp UInt64.ne_of_lt
    rw [owners, List.map_append, map_fst_filterMap_job] at distinct
    rw [Option.toList_map]
    exact distinct
  · have distinct := account.ordered.imp UInt64.ne_of_lt
    rw [List.map_append] at distinct
    exact (List.nodup_append.mp distinct).1
  · intro number batch present
    have owned := account.owned _ present
    rcases List.mem_append.mp owned with returned | inProgress
    · obtain ⟨receipt, issued, job⟩ := List.mem_filterMap.mp returned
      simp only [Receipt.job?, Option.map_eq_some_iff, Prod.mk.injEq] at job
      obtain ⟨_, numbered, rfl, same⟩ := job
      exact Or.inl ⟨receipt, issued, numbered, same⟩
    · exact Or.inr (Option.mem_toList.mp inProgress)
  · intro receipt issued refused
    exact (account.truthful receipt issued).refused refused

/-- A worker whose calls wait five milliseconds. -/
def impatient : Worker :=
  ofStage .filter 0 { Settings.standard with stageTimeout := some 5 } fun _ => default

/-- The first call gives up while the stage is at work, two others are refused, and the
last one meets the late reply before its own. -/
def crossing : List Action :=
  [.submit ⟨1, []⟩, .inspect, .send, .receive, .check, .begin, .submit ⟨2, []⟩, .expire,
    .submit ⟨3, []⟩, .inspect, .finish, .rest, .reply, .submit ⟨4, []⟩, .inspect, .send, .collect,
    .receive, .check, .begin, .finish, .rest, .reply, .collect]

theorem call_returns_own_result_crossing :
    ∃ reached events,
      impatient.execute? crossing = some (reached, events) ∧
      crossing.countP Action.isSubmit < Word.limit ∧
      (∀ receipt ∈ impatient.receipts crossing, receipt.reply.isOfStage = true →
        ∃ number, receipt.number? = some number ∧ .began number receipt.batch ∈ events ∧
          Stage.filter.reply? default receipt.batch = some receipt.reply) ∧
      (∀ receipt ∈ impatient.receipts crossing,
        receipt.reply = .error impatient.stillBusy ∨ receipt.reply = .error impatient.stopped →
          receipt.number? = none) := by
  have executed : impatient.execute? crossing = some (_, _) := rfl
  have few : crossing.countP Action.isSubmit < Word.limit := by decide
  obtain ⟨-, -, own, -, -, -, refused⟩ :=
    call_returns_own_result _ _ _ _ crossing _ _ executed few
  exact ⟨_, _, executed, few, own, refused⟩

end Worker
end StagePipeline
