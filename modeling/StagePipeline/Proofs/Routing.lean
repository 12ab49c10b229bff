import StagePipeline.Proofs.Attribution
import StagePipeline.Proofs.Observation
import StagePipeline.Proofs.Arrangement
import StagePipeline.Proofs.Session
import StagePipeline.Proofs.StageList

/-!
# Routing

A list of stages is checked before a run, and every output is checked again where it is
routed.  The second check finds nothing that built-in stages have done wrong: all of them
but the aggregate kind hand on a batch with the index that it came with, and the aggregate
kind comes last.  What is left is a list that ends with another kind.  Its last stage hands
on a batch, and the first batch that gets there ends the run.
-/

namespace StagePipeline

/-! ## Failures of the built-in kinds -/

/-- A failure of a built-in kind: a text that is no number, or a record of another shape. -/
inductive Failure.IsBuiltin : Failure → Prop where
  | unread {id : Nat} {text reason : String} : IsBuiltin (.parse id text reason)
  | misshapen {kind expected : String} {record : Record} :
      kind ∈ ["parse", "transform", "filter", "aggregate"] →
      IsBuiltin (Stage.shapeMismatch kind expected record)

/-- A reason that begins as the name of no built-in kind does. -/
abbrev IsForeign (reason : String) : Prop :=
  reason.toList.take 2 ∉ [['p', 'a'], ['t', 'r'], ['f', 'i'], ['a', 'g']]

/-- A reason of a built-in kind begins with its name. -/
theorem Failure.IsBuiltin.tag_ne
    {failure : Failure}
    {name other reason : String}
    {index position : Nat}
    (builtin : failure.IsBuiltin)
    (foreign : IsForeign reason) :
    failure.tag name index ≠ .stageFailed other position reason := by
  cases builtin with
  | unread => nofun
  | misshapen known =>
      intro same
      injection same with _ _ text
      apply foreign
      rw [← text]
      simp only [List.mem_cons, List.not_mem_nil, or_false] at known
      rcases known with rfl | rfl | rfl | rfl <;> simp

/-- A traversal that fails does so at one of its steps. -/
theorem exists_of_mapM_eq_error
    {α β ε : Type}
    {step : α → Except ε β}
    {elements : List α}
    {error : ε}
    (failed : elements.mapM step = .error error) :
    ∃ element ∈ elements, step element = .error error := by
  induction elements with
  | nil => cases failed
  | cons element rest inductionHypothesis =>
      rw [List.mapM_cons] at failed
      cases taken : step element with
      | error first =>
          rw [taken] at failed
          cases failed
          exact ⟨element, List.mem_cons_self, taken⟩
      | ok result =>
          rw [taken] at failed
          cases traversed : rest.mapM step with
          | ok results =>
              rw [traversed] at failed
              cases failed
          | error later =>
              rw [traversed] at failed
              cases failed
              obtain ⟨culprit, present, fails⟩ := inductionHypothesis traversed
              exact ⟨culprit, List.mem_cons_of_mem _ present, fails⟩

namespace Stage

variable {record : Record} {failure : Failure}

theorem isBuiltin_of_parseRecord
    {now : Timestamp}
    (failed : parseRecord now record = .error failure) :
    failure.IsBuiltin := by
  unfold parseRecord at failed
  split at failed
  · split at failed
    · cases failed
    · cases failed
      exact .unread
  · cases failed
    exact .misshapen (by simp)

theorem isBuiltin_of_transformRecord (failed : transformRecord record = .error failure) :
    failure.IsBuiltin := by
  cases record with
  | raw id text =>
      cases failed
      exact .misshapen (by simp)
  | parsed | transformed => cases failed

theorem isBuiltin_of_valueFor
    {kind : String}
    (known : kind ∈ ["parse", "transform", "filter", "aggregate"])
    (failed : valueFor kind record = .error failure) :
    failure.IsBuiltin := by
  unfold valueFor at failed
  split at failed
  · cases failed
  · cases failed
    exact .misshapen known

theorem isBuiltin_of_filterRecords
    {records : List Record}
    (failed : filterRecords records = .error failure) :
    failure.IsBuiltin := by
  induction records with
  | nil => cases failed
  | cons record rest inductionHypothesis =>
      rw [filterRecords] at failed
      cases read : valueFor "filter" record with
      | error first =>
          rw [read] at failed
          cases failed
          exact isBuiltin_of_valueFor (by simp) read
      | ok value =>
          rw [read] at failed
          cases filtered : filterRecords rest with
          | error later =>
              rw [filtered] at failed
              cases failed
              exact inductionHypothesis filtered
          | ok kept =>
              rw [filtered] at failed
              cases failed

/-- What a built-in kind makes of the records of a batch is a batch with the same index. -/
theorem outcomeOf_records
    {traversal : Except Failure (List Record)}
    (index : Nat)
    (fails : ∀ failure, traversal = .error failure → failure.IsBuiltin) :
    (∃ failure : Failure, failure.IsBuiltin ∧
        outcomeOf .batch (do return Batch.mk index (← traversal)) = .failure failure) ∨
      ∃ records, outcomeOf .batch (do return Batch.mk index (← traversal)) =
        .output (.batch ⟨index, records⟩) := by
  cases traversal with
  | error failure => exact Or.inl ⟨failure, fails failure rfl, rfl⟩
  | ok records => exact Or.inr ⟨records, rfl⟩

/-- A built-in stage of the aggregate kind summarises a batch, one of another kind hands on a
batch with the same index, and both may fail. -/
theorem apply_of_isBuiltin
    {stage : Stage}
    (builtin : stage.kind.isBuiltin = true)
    (now : Timestamp)
    (batch : Batch) :
    (∃ failure, failure.IsBuiltin ∧ stage.apply now batch = .failure failure) ∨
      (stage.kind.isTerminal = false ∧
        ∃ records, stage.apply now batch = .output (.batch ⟨batch.index, records⟩)) ∨
      (stage.kind.isTerminal = true ∧
        ∃ summary, stage.apply now batch = .output (.summary summary)) := by
  rw [apply]
  cases kind : stage.kind with
  | parse =>
      refine (outcomeOf_records batch.index fun failure failed => ?_).imp_right
        fun handsOn => Or.inl ⟨rfl, handsOn⟩
      obtain ⟨record, -, fails⟩ := exists_of_mapM_eq_error failed
      exact isBuiltin_of_parseRecord fails
  | transform =>
      refine (outcomeOf_records batch.index fun failure failed => ?_).imp_right
        fun handsOn => Or.inl ⟨rfl, handsOn⟩
      obtain ⟨record, -, fails⟩ := exists_of_mapM_eq_error failed
      exact isBuiltin_of_transformRecord fails
  | filter =>
      refine (outcomeOf_records batch.index fun failure failed => ?_).imp_right
        fun handsOn => Or.inl ⟨rfl, handsOn⟩
      exact isBuiltin_of_filterRecords failed
  | aggregate =>
      rw [aggregateBatch]
      cases traversed : batch.records.mapM (valueFor "aggregate") with
      | error failure =>
          obtain ⟨record, -, fails⟩ := exists_of_mapM_eq_error traversed
          exact Or.inl ⟨failure, isBuiltin_of_valueFor (by simp) fails, rfl⟩
      | ok values => exact Or.inr (Or.inr ⟨rfl, _, rfl⟩)
  | custom transform =>
      rw [kind] at builtin
      cases builtin

end Stage

/-! ## Ways through the stages -/

namespace Sequential

open Run

/-- A batch, in its turn, passes all stages from a position on: each of them hands on a
batch, and the next one is given that. -/
inductive Traverses (clocks : Clocks) (turn : Nat) : Nat → List Stage → Batch → Prop where
  | nil {ordinal : Nat} {batch : Batch} : Traverses clocks turn ordinal [] batch
  | cons {ordinal : Nat} {stage : Stage} {rest : List Stage} {batch next : Batch} :
      stage.apply (clocks.stamp ordinal (UInt64.ofNat turn)) batch = .output (.batch next) →
      Traverses clocks turn (ordinal + 1) rest next →
      Traverses clocks turn ordinal (stage :: rest) batch

/-- What a batch comes to on its way through built-in stages of which only the last one may
be of the aggregate kind. -/
inductive Fate
    (clocks : Clocks)
    (turn ordinal : Nat)
    (stages : List Stage)
    (batch : Batch) :
    Except Fault Summary → Prop where
  /-- The last stage summarises it. -/
  | finished {final : Stage} {summary : Summary} :
      stages.getLast? = some final → final.kind.isTerminal = true →
      Fate clocks turn ordinal stages batch (.ok summary)
  /-- A stage fails. -/
  | failed {stage : Stage} {failure : Failure} :
      ¬Traverses clocks turn ordinal stages batch → failure.IsBuiltin →
      Fate clocks turn ordinal stages batch (.error (failure.tag stage.name batch.index))
  /-- It passes all stages, and none has summarised it. -/
  | unfinished {final : Stage} :
      stages.getLast? = some final → final.kind.isTerminal = false →
      Traverses clocks turn ordinal stages batch →
      Fate clocks turn ordinal stages batch
        (.error (.stageFailed final.name batch.index
          "terminal stage produced a batch instead of an aggregate"))

variable
  {clocks : Clocks}
  {turn ordinal : Nat}
  {stages : List Stage}
  {batch : Batch}

/-- A stage that hands on a batch passes the fate of that batch back. -/
theorem Fate.cons
    {stage : Stage}
    {next : Batch}
    {result : Except Fault Summary}
    (fate : Fate clocks turn (ordinal + 1) stages next result)
    (applied : stage.apply (clocks.stamp ordinal (UInt64.ofNat turn)) batch =
      .output (.batch next))
    (kept : next.index = batch.index) :
    Fate clocks turn ordinal (stage :: stages) batch result := by
  have stillLast : ∀ final, stages.getLast? = some final →
      (stage :: stages).getLast? = some final := by
    intro final last
    rw [List.getLast?_cons, last]
    rfl
  cases fate with
  | finished last terminal => exact .finished (stillLast _ last) terminal
  | failed stuck builtin =>
      rw [kept]
      refine .failed (fun traverses => stuck ?_) builtin
      cases traverses with
      | cons also further =>
          cases applied.symm.trans also
          exact further
  | unfinished last inner traverses =>
      rw [kept]
      exact .unfinished (stillLast _ last) inner (.cons applied traverses)

/-- The fate of a batch in the reference. -/
theorem passBatch_fate
    (nonempty : stages ≠ [])
    (builtin : ∀ stage ∈ stages, stage.kind.isBuiltin = true)
    (inner : ∀ stage ∈ stages.dropLast, stage.kind.isTerminal = false) :
    Fate clocks turn ordinal stages batch
      (passBatch clocks turn batch.index ordinal stages batch) := by
  induction stages generalizing ordinal batch with
  | nil => exact absurd rfl nonempty
  | cons stage rest inductionHypothesis =>
      obtain ⟨known, others⟩ := List.forall_mem_cons.mp builtin
      rcases Stage.apply_of_isBuiltin known (clocks.stamp ordinal (UInt64.ofNat turn)) batch with
        ⟨failure, genuine, applied⟩ | ⟨handsOn, records, applied⟩ | ⟨terminal, summary, applied⟩
      · rw [passBatch_failed applied]
        refine .failed (fun traverses => ?_) genuine
        cases traverses with
        | cons also => cases applied.symm.trans also
      · by_cases last : rest = []
        · subst last
          have stays : passBatch clocks turn batch.index ordinal [stage] batch =
              .error (.stageFailed stage.name batch.index
                "terminal stage produced a batch instead of an aggregate") := by
            rw [passBatch, reply, Stage.reply?, applied]
            rfl
          rw [stays]
          exact .unfinished rfl handsOn (.cons applied .nil)
        · rw [List.dropLast_cons_of_ne_nil last] at inner
          rw [passBatch_next applied last rfl]
          exact (inductionHypothesis last others (List.forall_mem_cons.mp inner).2).cons applied rfl
      · have last : rest = [] := by
          by_contra more
          rw [List.dropLast_cons_of_ne_nil more] at inner
          cases terminal.symm.trans (List.forall_mem_cons.mp inner).1
        subst last
        rw [passBatch_finished applied]
        exact .finished rfl terminal

/-- No batch is finished by stages of which the last one is not of the aggregate kind. -/
theorem Fate.ne_ok
    {final : Stage}
    {summary : Summary}
    {result : Except Fault Summary}
    (fate : Fate clocks turn ordinal stages batch result)
    (last : stages.getLast? = some final)
    (inner : final.kind.isTerminal = false) :
    result ≠ .ok summary := by
  rintro rfl
  cases fate with
  | finished also terminal =>
      cases last.symm.trans also
      cases terminal.symm.trans inner

/-- Stages that a batch passes leave it unfinished. -/
theorem Fate.eq_of_traverses
    {final : Stage}
    {result : Except Fault Summary}
    (fate : Fate clocks turn ordinal stages batch result)
    (last : stages.getLast? = some final)
    (inner : final.kind.isTerminal = false)
    (traverses : Traverses clocks turn ordinal stages batch) :
    result = .error (.stageFailed final.name batch.index
      "terminal stage produced a batch instead of an aggregate") := by
  cases fate with
  | finished also terminal =>
      cases last.symm.trans also
      cases terminal.symm.trans inner
  | failed stuck => exact absurd traverses stuck
  | unfinished also =>
      cases last.symm.trans also
      rfl

/-- A batch that fails with a reason that is foreign to the stages has passed all of them. -/
theorem Fate.of_foreign
    {name reason : String}
    {index : Nat}
    (fate : Fate clocks turn ordinal stages batch (.error (.stageFailed name index reason)))
    (foreign : IsForeign reason) :
    ∃ final, stages.getLast? = some final ∧ final.kind.isTerminal = false ∧
      Traverses clocks turn ordinal stages batch ∧ name = final.name ∧ index = batch.index ∧
      reason = "terminal stage produced a batch instead of an aggregate" := by
  generalize result_eq : Except.error (Fault.stageFailed name index reason) = result at fate
  cases fate with
  | finished => cases result_eq
  | failed _ builtin =>
      exact absurd (Except.error.inj result_eq).symm (builtin.tag_ne foreign)
  | unfinished last inner traverses =>
      cases result_eq
      exact ⟨_, last, inner, traverses, rfl, rfl, rfl⟩

end Sequential

/-! ## Runs -/

namespace Run

open StagePipeline.Sequential

variable
  {settings : Settings}
  {clocks : Clocks}
  {stages : List Stage}
  {observer? : Option Observer}
  {batches : List Batch}
  {run next started reached : Run}
  {schedule : List Action}
  {events : List Event}

theorem start?_workers_length
    (start_eq : start? stages settings clocks observer? batches = some started) :
    started.workers.length = stages.length := by
  obtain ⟨workers, spawned, result⟩ := Option.bind_eq_some_iff.mp start_eq
  cases result
  rw [spawnFrom?_eq_some spawned, crew_length]

/-- An observer panics in the turn in which a batch is finished. -/
theorem Turn.passed_of_unwound
    {position : Position}
    {action : Action}
    {event? : Option Event}
    {finished : List Finished}
    {place : Nat}
    {job? : Option Worker.Job}
    (turned : Turn settings clocks stages run position action event? next
      (.ended .unwound place job?))
    (standing : Standing settings clocks stages batches run finished position)
    (goesOn : ∀ ending place job?, position ≠ .ended ending place job?) :
    ∃ turn batch summary, passBatch clocks turn batch.index 0 stages batch = .ok summary := by
  cases turned with
  | unwind empty replied routed =>
      cases standing with
      | @hop _ _ batch ledger _ underway =>
          exact ⟨_, batch, _, (underway.finish ledger.clocks_eq empty replied routed).1⟩
  | inner | beginLate => exact absurd rfl (goesOn _ _ _)

theorem exists_passed_of_unwound
    (start_eq : start? stages settings clocks observer? batches = some started)
    (executed : started.execute? schedule = some (reached, events))
    (unwound : reached.ending? = some .unwound) :
    ∃ turn batch summary, passBatch clocks turn batch.index 0 stages batch = .ok summary := by
  have fresh : started.control.ending? = none := by
    obtain ⟨workers, spawned, result⟩ := Option.bind_eq_some_iff.mp start_eq
    cases result
    rfl
  obtain ⟨before, action, after, middle, early, transition, -, reaches, taken, goesOn, ends⟩ :=
    exists_ending_step executed fresh (control_ending?_of_ending? unwound)
  obtain ⟨position, turned, orderly⟩ := (Orderly.of_start start_eq).turns reaches
  obtain ⟨finished, standing⟩ := turned.standing (.of_start start_eq)
  obtain ⟨onward, turned, orderlyNext⟩ := orderly.turn (.of_step taken)
  obtain ⟨place, job?, rfl⟩ := orderlyNext.position_of_ending ends
  refine turned.passed_of_unwound standing ?_
  rintro ending place job? rfl
  cases orderly with
  | ended ending =>
      rw [goesOn] at ending
      cases ending

end Run

/-! ## Calls -/

/-- A launch that does not come to its end has left a stage without a worker. -/
theorem Call.launch_lt
    {call : Call}
    {settings : Settings}
    {ordinal count : Nat}
    {stages : List Stage}
    (stopped : call.launch settings ordinal stages = .panicked count ∨
      ∃ fault, call.launch settings ordinal stages = .refused count fault) :
    count < ordinal + stages.length := by
  induction stages generalizing ordinal with
  | nil =>
      rcases stopped with stopped | ⟨fault, stopped⟩ <;> cases stopped
  | cons stage rest inductionHypothesis =>
      rw [List.length_cons]
      simp only [launch] at stopped
      split at stopped
      · rcases stopped with stopped | ⟨fault, stopped⟩ <;> cases stopped
        omega
      · split at stopped
        · rcases stopped with stopped | ⟨fault, stopped⟩ <;> cases stopped
          omega
        · have before := inductionHypothesis stopped
          omega

/-- A launch fails because the system refuses a thread. -/
theorem Call.launch_refused
    {call : Call}
    {settings : Settings}
    {ordinal count : Nat}
    {stages : List Stage}
    {fault : Fault}
    (refused : call.launch settings ordinal stages = .refused count fault) :
    ∃ stage reason, fault = Stage.refused stage reason := by
  induction stages generalizing ordinal with
  | nil => cases refused
  | cons stage rest inductionHypothesis =>
      rw [launch] at refused
      split at refused
      · cases refused
      · split at refused
        · cases refused
          exact ⟨stage, _, rfl⟩
        · exact inductionHypothesis refused

/-- What comes of a call in a session comes of a call of the same coordinator in some state. -/
theorem Session.exists_responds
    {coordinator last : Coordinator}
    {history : List (Call × Response)}
    {call : Call}
    {response : Response}
    (session : Session coordinator history last)
    (present : (call, response) ∈ history) :
    ∃ state, { coordinator with state }.Responds call response := by
  induction session with
  | nil => cases present
  | @cons coordinator _ first reply later responds _ inductionHypothesis =>
      rcases List.mem_cons.mp present with same | behind
      · cases same
        exact ⟨coordinator.state, responds⟩
      · obtain ⟨state, found⟩ := inductionHypothesis behind
        rw [responds.coordinator_eq] at found
        exact ⟨state, found⟩

namespace Coordinator

open StagePipeline.Sequential

variable
  {stages : List Stage}
  {settings : Settings}
  {runId : RunId}
  {coordinator : Coordinator}
  {call : Call}
  {response : Response}
  {fault : Fault}

/-- Only the last stage of a coordinator is of the aggregate kind. -/
theorem isTerminal_of_create (created : create stages settings runId = .ok coordinator) :
    ∀ stage ∈ stages.dropLast, stage.kind.isTerminal = false := by
  obtain ⟨-, listed, -⟩ := accepted_of_create created
  have acceptable := Stage.validateList_eq_ok_iff.mp listed
  exact fun stage present => Bool.eq_false_iff.mpr fun terminal =>
    acceptable.ordered stage present (StageKind.isTerminal_iff.mp terminal)

/-- What fails a call: that it is not the first, a thread that does not start, or a batch,
behind those that have been finished. -/
theorem Responds.fault_cases
    (responds : coordinator.Responds call response)
    (failed : response.answer.result = .fault fault) :
    (∃ reason, fault = .configuration "coordinator" reason) ∨
      (∃ name reason, fault = .workerUnavailable name reason) ∨
      response.workers = coordinator.stages.length ∧ ∃ finished batch,
        Finishes call.clocks coordinator.stages call.batches finished ∧
          call.batches[finished.length]? = some batch ∧
          FailsWith coordinator.settings call.clocks coordinator.stages finished.length batch
            fault := by
  cases responds with
  | refuse =>
      cases failed
      exact Or.inl ⟨_, rfl⟩
  | panic => cases failed
  | fail _ launched =>
      cases failed
      obtain ⟨stage, reason, rfl⟩ := Call.launch_refused launched
      exact Or.inr (Or.inl ⟨_, _, rfl⟩)
  | @run _ _ _ _ ending _ _ start_eq executed ended =>
      cases ending with
      | completed | unwound => cases failed
      | failed cause =>
          cases failed
          obtain ⟨-, finished, ordinal, job?, standing⟩ :=
            Run.standing_of_over start_eq executed ended
          cases standing with
          | failed ledger there fails =>
              exact Or.inr (Or.inr ⟨Run.start?_workers_length start_eq, finished, _,
                ledger.finishes, there, fails⟩)

/-- If a batch fails a call of built-in stages with a reason that is foreign to them, it is the
first one and has passed all of them. -/
theorem Responds.of_foreign
    {name reason : String}
    {index : Nat}
    (responds : coordinator.Responds call response)
    (nonempty : coordinator.stages ≠ [])
    (builtin : ∀ stage ∈ coordinator.stages, stage.kind.isBuiltin = true)
    (inner : ∀ stage ∈ coordinator.stages.dropLast, stage.kind.isTerminal = false)
    (failed : response.answer.result = .fault (.stageFailed name index reason))
    (foreign : IsForeign reason) :
    reason = "terminal stage produced a batch instead of an aggregate" ∧
      response.workers = coordinator.stages.length ∧
      ∃ final batch rest, coordinator.stages.getLast? = some final ∧
        final.kind.isTerminal = false ∧ call.batches = batch :: rest ∧
        Traverses call.clocks 0 0 coordinator.stages batch ∧
        name = final.name ∧ index = batch.index := by
  rcases responds.fault_cases failed with ⟨other, same⟩ | ⟨other, text, same⟩ |
    ⟨workers, finished, batch, finishes, there, fails | ⟨stage, -, limit, -, same⟩⟩
  · cases same
  · cases same
  · have fate : Fate call.clocks finished.length 0 coordinator.stages batch
        (.error (.stageFailed name index reason)) :=
      fails ▸ passBatch_fate nonempty builtin inner
    obtain ⟨final, last, terminal, traverses, rfl, rfl, rfl⟩ := fate.of_foreign foreign
    cases finished with
    | nil =>
        obtain ⟨rest, listed⟩ : ∃ rest, call.batches = batch :: rest := by
          cases listed : call.batches with
          | nil =>
              rw [listed] at there
              cases there
          | cons first rest =>
              rw [listed] at there
              cases there
              exact ⟨rest, rfl⟩
        exact ⟨rfl, workers, final, batch, rest, last, terminal, listed, traverses, rfl, rfl⟩
    | cons first others =>
        obtain ⟨earlier, -, -, passed⟩ := finishes 0 first.1 first.2 rfl
        exact absurd passed ((passBatch_fate nonempty builtin inner).ne_ok last terminal)
  · cases same

/-- If the first batch passes all stages, and the last one is not of the aggregate kind, then
the call fails there, unless a worker does not start or a deadline is missed. -/
theorem Responds.of_traverses
    {final : Stage}
    {batch : Batch}
    {rest : List Batch}
    (responds : coordinator.Responds call response)
    (nonempty : coordinator.stages ≠ [])
    (builtin : ∀ stage ∈ coordinator.stages, stage.kind.isBuiltin = true)
    (inner : ∀ stage ∈ coordinator.stages.dropLast, stage.kind.isTerminal = false)
    (workers : response.workers = coordinator.stages.length)
    (timely : ¬response.answer.result.MissesDeadline)
    (last : coordinator.stages.getLast? = some final)
    (terminal : final.kind.isTerminal = false)
    (listed : call.batches = batch :: rest)
    (traverses : Traverses call.clocks 0 0 coordinator.stages batch) :
    response.answer.result = .fault (.stageFailed final.name batch.index
      "terminal stage produced a batch instead of an aggregate") := by
  have unpassed : ∀ (turn : Nat) (other : Batch) (summary : Summary),
      passBatch call.clocks turn other.index 0 coordinator.stages other ≠ .ok summary :=
    fun turn other summary => (passBatch_fate nonempty builtin inner).ne_ok last terminal
  have none : ∀ finished, Finishes call.clocks coordinator.stages call.batches finished →
      finished = [] := by
    intro finished finishes
    cases finished with
    | nil => rfl
    | cons first others =>
        obtain ⟨other, -, -, passed⟩ := finishes 0 first.1 first.2 rfl
        exact absurd passed (unpassed _ _ _)
  cases responds with
  | refuse => exact absurd (List.length_eq_zero_iff.mp workers.symm) nonempty
  | panic _ launched =>
      have fewer := Call.launch_lt (Or.inl launched)
      simp only at workers
      omega
  | fail _ launched =>
      have fewer := Call.launch_lt (Or.inr ⟨_, launched⟩)
      simp only at workers
      omega
  | @run _ _ _ _ ending _ _ start_eq executed ended =>
      obtain ⟨-, finished, ordinal, job?, standing⟩ :=
        Run.standing_of_over start_eq executed ended
      cases standing with
      | completed ledger all =>
          rw [none _ ledger.finishes, listed] at all
          cases all
      | failed ledger there fails =>
          rw [none _ ledger.finishes, listed] at there
          rw [none _ ledger.finishes] at fails
          cases there
          rcases fails with fails | ⟨stage, -, limit, -, rfl⟩
          · have fate := (passBatch_fate nonempty builtin inner).eq_of_traverses last terminal
              traverses
            cases fails.symm.trans fate
            rfl
          · exact absurd ⟨_, _, _, rfl⟩ timely
      | unwound =>
          obtain ⟨turn, other, summary, passed⟩ :=
            Run.exists_passed_of_unwound start_eq executed ended
          exact absurd passed (unpassed _ _ _)

/-- The checks of a list of stages keep its runs from the faults of routing, whatever the
batches, the order of the steps, the deadlines and the observers are.  There is always a
stage to go to.  Built-in stages hand on what they should, and only a list that does not end
with the aggregate kind leaves a batch over.  It is the first one, if that passes all stages,
and then the fault names it and the last stage. -/
theorem routing_faults
    {last : Coordinator}
    {history : List (Call × Response)}
    (created : create stages settings runId = .ok coordinator)
    (session : Session coordinator history last)
    (present : (call, response) ∈ history) :
    response.answer.result ≠ .fault Run.noStages ∧
    ((∀ stage ∈ stages, stage.kind.isBuiltin = true) →
      (∀ name index, response.answer.result ≠
        .fault (.stageFailed name index "non-terminal stage produced an aggregate")) ∧
      (∀ name index other, response.answer.result ≠
        .fault (.stageFailed name index ("stage changed batch index to " ++ other))) ∧
      ∀ name index,
        response.answer.result = .fault (.stageFailed name index
            "terminal stage produced a batch instead of an aggregate") ↔
          response.workers = stages.length ∧ ¬response.answer.result.MissesDeadline ∧
            ∃ final batch rest, stages.getLast? = some final ∧
              final.kind.isTerminal = false ∧ call.batches = batch :: rest ∧
              Traverses call.clocks 0 0 stages batch ∧
              name = final.name ∧ index = batch.index) := by
  have inner := isTerminal_of_create created
  obtain ⟨-, nonempty, rfl⟩ := create_eq_ok created
  obtain ⟨state, responds⟩ := session.exists_responds present
  refine ⟨?_, fun builtin => ⟨?_, ?_, ?_⟩⟩
  · intro failed
    rcases responds.fault_cases failed with ⟨reason, same⟩ | ⟨name, reason, same⟩ |
      ⟨-, finished, batch, -, -, fails | ⟨stage, -, limit, -, same⟩⟩
    · exact absurd (Fault.configuration.inj same).1 (by decide)
    · cases same
    · obtain ⟨stage, -, named, -⟩ := passBatch_fault nonempty rfl fails
      cases named
    · cases same
  · intro name index failed
    have reason_eq := (responds.of_foreign nonempty builtin inner failed (by decide)).1
    exact absurd reason_eq (by decide)
  · intro name index other failed
    have foreign : IsForeign ("stage changed batch index to " ++ other) := by simp [IsForeign]
    have reason_eq := (responds.of_foreign nonempty builtin inner failed foreign).1
    have begins := congrArg (·.toList.head?) reason_eq
    simp at begins
  · intro name index
    constructor
    · intro failed
      obtain ⟨-, workers, final, batch, rest, last, terminal, listed, traverses, same⟩ :=
        responds.of_foreign nonempty builtin inner failed (by decide)
      refine ⟨workers, ?_, final, batch, rest, last, terminal, listed, traverses, same⟩
      rintro ⟨stage, position, limit, missed⟩
      cases failed.symm.trans missed
    · rintro ⟨workers, timely, final, batch, rest, last, terminal, listed, traverses, rfl, rfl⟩
      exact responds.of_traverses nonempty builtin inner workers timely last terminal listed
        traverses

/-- A list that ends with the filter: the first of two batches passes it, and is named before
the second one fails. -/
theorem routing_faults_unfinished :
    ∃ coordinator last response,
      create [.parse, .filter] Settings.standard default = .ok coordinator ∧
      Session coordinator
        [(⟨.still, some .silent, [⟨7, [.raw 0 "30"]⟩, ⟨8, [.raw 0 "x"]⟩], fun _ => none⟩,
          response)] last ∧
      response.answer.result ≠ .fault Run.noStages ∧
      response.answer.result = .fault (.stageFailed "filter" 7
        "terminal stage produced a batch instead of an aggregate") ∧
      response.workers = 2 ∧ Traverses .still 0 0 [.parse, .filter] ⟨7, [.raw 0 "30"]⟩ := by
  obtain ⟨coordinator, answer, created, ran, outcome⟩ :=
    exists_answer [.parse, .filter] Settings.standard
      (·.run? .still (some .silent) [⟨7, [.raw 0 "30"]⟩, ⟨8, [.raw 0 "x"]⟩])
      (·.result.fault?)
      (some (.stageFailed "filter" 7 "terminal stage produced a batch instead of an aggregate"))
      (by decide +kernel)
  have failed := RunResult.eq_of_fault? outcome
  obtain ⟨response, responds, rfl⟩ :=
    (answers_iff_responds ⟨.still, some .silent, [⟨7, [.raw 0 "30"]⟩, ⟨8, [.raw 0 "x"]⟩],
      fun _ => none⟩ fun _ => rfl).mp (Answers.of_run? ran)
  have session := Session.cons responds .nil
  obtain ⟨staged, unrouted⟩ := routing_faults created session List.mem_cons_self
  obtain ⟨-, -, unfinished⟩ := unrouted (by decide)
  obtain ⟨workers, -, final, batch, rest, -, -, listed, traverses, -, -⟩ :=
    (unfinished "filter" 7).mp failed
  cases listed
  exact ⟨coordinator, _, response, created, session, staged, failed, workers, traverses⟩

end Coordinator
end StagePipeline
