import StagePipeline.Proofs.Answers

/-!
# What faults name

A run fails in the step in which the call of a stage for a batch returns.  The fault always
names that stage, and it names the batch by the index with which it came into the run,
whatever the stages before have made of it.  There is one exception: if the stage takes its
thread down, the fault does not name a batch.
-/

namespace StagePipeline

/-- A caller is left without a reply only if the stage takes its thread down. -/
theorem Sequential.apply_of_workerUnavailable
    {stage : Stage}
    {now : Timestamp}
    {batch : Batch}
    {name reason : String}
    (failed : reply stage now batch = .error (.workerUnavailable name reason)) :
    stage.apply now batch = .death := by
  cases replied : stage.reply? now batch with
  | none => exact Stage.apply_of_reply?_eq_none replied
  | some own =>
      have genuine := Reply.isOfStage_of_reply? replied
      simp only [reply, replied] at failed
      rw [failed] at genuine
      cases genuine

namespace Run

open StagePipeline.Sequential

variable
  {settings : Settings}
  {clocks : Clocks}
  {stages : List Stage}
  {batches : List Batch}
  {run next reached : Run}
  {finished : List Finished}
  {position onward : Position}
  {action : Action}
  {event? : Option Event}
  {ending : Ending}
  {fault : Fault}

/-! ## The step that ends a run -/

/-- A run that comes to an end does not turn back. -/
theorem Move.ending?_eq
    {transition : Transition}
    (move : Move run action transition)
    (ends : run.control.ending? = some ending) :
    transition.next.control.ending? = some ending := by
  cases move with
  | thread | stop => exact ends
  | stopped control | stoppedAll control | release control | releasedAll control =>
      rw [control] at ends
      exact ends
  | complete control | take control | call control | arrive control =>
      rw [control] at ends
      cases ends

theorem ending?_stays
    {schedule : List Action}
    {events : List Event}
    (executed : run.execute? schedule = some (reached, events))
    (ends : run.control.ending? = some ending) :
    reached.control.ending? = some ending := by
  induction schedule generalizing run events with
  | nil =>
      cases executed
      exact ends
  | cons action rest inductionHypothesis =>
      obtain ⟨transition, later, taken, continued, -⟩ := execute?_cons_eq_some executed
      exact inductionHypothesis continued ((Move.of_step taken).ending?_eq ends)

/-- A run that has come to an end did so in one of its steps.  The ending that it has then is
the one that it keeps. -/
theorem exists_ending_step
    {schedule : List Action}
    {events : List Event}
    (executed : run.execute? schedule = some (reached, events))
    (goesOn : run.control.ending? = none)
    (ends : reached.control.ending? = some ending) :
    ∃ before action after middle early transition,
      schedule = before ++ action :: after ∧
        run.execute? before = some (middle, early) ∧
        middle.step action = some transition ∧
        middle.control.ending? = none ∧
        transition.next.control.ending? = some ending := by
  induction schedule generalizing run events with
  | nil =>
      cases executed
      rw [goesOn] at ends
      cases ends
  | cons first rest inductionHypothesis =>
      obtain ⟨transition, later, taken, continued, rfl⟩ := execute?_cons_eq_some executed
      cases onward : transition.next.control.ending? with
      | none =>
          obtain ⟨before, action, after, middle, early, last, rfl, reaches, final, still, stops⟩ :=
            inductionHypothesis continued onward
          refine ⟨first :: before, action, after, middle, transition.event?.toList ++ early, last,
            rfl, ?_, final, still, stops⟩
          simp only [execute?, taken, reaches, Option.map_some]
      | some other =>
          have stays := ending?_stays continued onward
          cases stays.symm.trans ends
          exact ⟨[], first, rest, run, [], transition, rfl, rfl, taken, goesOn, onward⟩

/-! ## Hops that fail -/

/-- In this step of a run the call of a stage for a batch returns, with what it was given,
and the run fails. -/
structure Breaks
    (stages : List Stage)
    (batches : List Batch)
    (run : Run)
    (transition : Transition)
    (fault : Fault)
    (ordinal : Nat)
    (stage : Stage)
    (batch input : Batch) :
    Prop where
  hopping : run.control = .hop batch.index ordinal input.size
  listed : stages[ordinal]? = some stage
  present : batches[run.turn]? = some batch
  answered : ∃ reply, transition.event? = some (ordinal, .answered input reply)
  fails : transition.next.control.ending? = some (.failed fault)

/-- A fault names a stage and a batch.  It does not name the batch if the stage has taken
its thread down when it was given this input. -/
def Names (now : Timestamp) (stage : Stage) (batch input : Batch) (fault : Fault) : Prop :=
  fault.stageName? = some stage.name ∧
    (fault.batchIndex? = some batch.index ∨
      stage.apply now input = .death ∧
        fault = .workerUnavailable stage.name "worker thread exited before replying")

theorem names_of_reply
    {now : Timestamp}
    {stage : Stage}
    {batch input : Batch}
    (kept : input.index = batch.index)
    (failed : reply stage now input = .error fault) :
    Names now stage batch input fault := by
  obtain ⟨named, tagged | ⟨rfl, -⟩⟩ := reply_fault failed
  · exact ⟨named, Or.inl (kept ▸ tagged)⟩
  · exact ⟨named, Or.inr ⟨apply_of_workerUnavailable failed, rfl⟩⟩

/-- A run ends with a fault when a hop returns, and the fault names the stage of the hop and
the index that the batch has kept. -/
theorem Turn.names
    {place : Nat}
    {job? : Option Worker.Job}
    (turned : Turn settings clocks stages run position action event? next
      (.ended (.failed fault) place job?))
    (nonempty : stages ≠ [])
    (goesOn : ∀ ending place job?, position ≠ .ended ending place job?) :
    ∃ passage begun reply, position = .hop passage begun ∧
      event? = some (passage.ordinal, .answered passage.batch reply) ∧
      ∀ batch : Batch, passage.index = batch.index → passage.batch.index = batch.index →
        Names (clocks.stamp passage.ordinal (UInt64.ofNat run.turn)) passage.stage batch
          passage.batch fault := by
  cases turned with
  | inner | beginLate => exact absurd rfl (goesOn _ _ _)
  | astray _ empty => exact absurd empty nonempty
  | @refuse passage action output reason workers control replied routed =>
      exact ⟨passage, true, _, rfl, rfl, fun batch index kept =>
        ⟨rfl, Or.inl (congrArg some index)⟩⟩
  | @fail passage action fault workers control replied =>
      exact ⟨passage, true, _, rfl, rfl, fun batch index kept => names_of_reply kept replied⟩
  | @expire passage begun limit workers control limited =>
      exact ⟨passage, begun, _, rfl, rfl, fun batch index kept =>
        ⟨rfl, Or.inl (congrArg some kept)⟩⟩

/-- The step that ends a run with a fault returns from a hop, and the fault names the stage
of that hop and the batch that came into the run. -/
theorem Orderly.breaks
    {transition : Transition}
    (orderly : Orderly settings clocks stages run position)
    (standing : Standing settings clocks stages batches run finished position)
    (nonempty : stages ≠ [])
    (goesOn : run.control.ending? = none)
    (taken : run.step action = some transition)
    (fails : transition.next.control.ending? = some (.failed fault)) :
    ∃ ordinal stage batch input,
      Breaks stages batches run transition fault ordinal stage batch input ∧
        Names (clocks.stamp ordinal (UInt64.ofNat run.turn)) stage batch input fault := by
  obtain ⟨onward, turned, orderlyNext⟩ := orderly.turn (.of_step taken)
  obtain ⟨place, job?, rfl⟩ := orderlyNext.position_of_ending fails
  have going : ∀ ending place job?, position ≠ .ended ending place job? := by
    rintro ending place job? rfl
    cases orderly with
    | ended ends =>
        rw [goesOn] at ends
        cases ends
  obtain ⟨passage, begun, reply, rfl, answered, named⟩ := turned.names nonempty going
  cases orderly with
  | hop passes hopping =>
      cases standing with
      | @hop _ _ batch ledger rest underway =>
          rw [underway.index] at hopping
          have present := ledger.getElem?_of_drop rest
          rw [← ledger.turn_eq] at present
          have listed : stages[passage.ordinal]? = some passage.stage := by
            rw [passes, Passage.stages, Passage.ordinal,
              List.getElem?_append_right (Nat.le_refl _), Nat.sub_self]
            rfl
          exact ⟨passage.ordinal, passage.stage, batch, passage.batch,
            ⟨hopping, listed, present, ⟨reply, answered⟩, fails⟩,
            named batch underway.index underway.kept⟩

end Run

namespace Coordinator

open Run

/-- Every run that fails does so in the step in which the call of a stage for one of the
batches returns.  The fault that the call of the coordinator returns names that stage and
that batch, unless the stage has taken its thread down. -/
theorem failure_names_hop
    {stages : List Stage}
    {settings : Settings}
    {runId : RunId}
    {coordinator : Coordinator}
    {clocks : Clocks}
    {observer? : Option Observer}
    {batches : List Batch}
    {started reached : Run}
    {schedule : List Action}
    {events : List Event}
    {ending : Ending}
    {fault : Fault}
    (created : create stages settings runId = .ok coordinator)
    (start_eq : start? coordinator.stages coordinator.settings clocks observer? batches =
      some started)
    (executed : started.execute? schedule = some (reached, events))
    (ended : reached.ending? = some ending)
    (failed : (coordinator.answer reached ending).result = .fault fault) :
    ∃ before action after middle early transition ordinal stage batch input,
      schedule = before ++ action :: after ∧
        started.execute? before = some (middle, early) ∧
        middle.step action = some transition ∧
        Breaks stages batches middle transition fault ordinal stage batch input ∧
        Names (clocks.stamp ordinal (UInt64.ofNat middle.turn)) stage batch input fault := by
  obtain ⟨-, nonempty, rfl⟩ := create_eq_ok created
  cases ending with
  | completed | unwound => cases failed
  | failed other =>
      cases failed
      have fresh : started.control.ending? = none := by
        obtain ⟨workers, spawned, result⟩ := Option.bind_eq_some_iff.mp start_eq
        cases result
        rfl
      obtain ⟨before, action, after, middle, early, transition, split, reaches, taken, goesOn,
        fails⟩ := exists_ending_step executed fresh (control_ending?_of_ending? ended)
      obtain ⟨position, turned, orderly⟩ := (Orderly.of_start start_eq).turns reaches
      obtain ⟨finished, standing⟩ := turned.standing (.of_start start_eq)
      obtain ⟨ordinal, stage, batch, input, breaks, named⟩ :=
        orderly.breaks standing nonempty goesOn taken fails
      exact ⟨before, action, after, middle, early, transition, ordinal, stage, batch, input,
        split, reaches, taken, breaks, named⟩

/-- A stage that hands on what it gets under the next index. -/
def renumber : Stage :=
  ⟨"renumber", .custom
    ⟨fun batch => .output (.batch { batch with index := batch.index + 1 }), fun _ => false⟩⟩

/-- The second stage gives a batch another index, and the fault names the one with which the
batch came into the run. -/
theorem failure_names_hop_renumber :
    ∃ coordinator answer fault stage batch,
      create [relay, renumber, census] Settings.standard default = .ok coordinator ∧
      coordinator.run? .still none [⟨7, [.raw 0 "one"]⟩] = some answer ∧
      answer.result = .fault fault ∧ stage ∈ [relay, renumber, census] ∧
      fault.stageName? = some stage.name ∧ stage.name = "renumber" ∧
      batch ∈ [(⟨7, [.raw 0 "one"]⟩ : Batch)] ∧ fault.batchIndex? = some batch.index := by
  obtain ⟨coordinator, answer, created, ran, outcome⟩ :=
    exists_answer [relay, renumber, census] Settings.standard
      (·.run? .still none [⟨7, [.raw 0 "one"]⟩]) (·.result.fault?)
      (some (.stageFailed "renumber" 7 "stage changed batch index to 8")) (by decide +kernel)
  have failed := RunResult.eq_of_fault? outcome
  have answers := Answers.of_run? ran
  rcases answers.cases created with
    ⟨-, rfl⟩ | ⟨started, schedule, events, reached, ending, start_eq, executed, ended, rfl⟩
  · cases failed
  · obtain ⟨-, -, rfl⟩ := create_eq_ok created
    obtain ⟨_, _, _, _, _, _, _, stage, batch, _, _, _, _, breaks, named, tagged⟩ :=
      failure_names_hop created start_eq executed ended failed
    refine ⟨_, _, _, stage, batch, created, ran, failed, List.mem_of_getElem? breaks.listed,
      named, (Option.some.inj named).symm, List.mem_of_getElem? breaks.present, ?_⟩
    rcases tagged with tagged | ⟨-, unavailable⟩
    · exact tagged
    · cases unavailable

/-- A stage that takes its thread down. -/
def poison : Stage :=
  ⟨"poison", .custom ⟨fun _ => .death, fun _ => false⟩⟩

/-- The second stage takes its thread down while the batch with index 7 is processed, and the
fault names no batch. -/
theorem death_names_no_batch :
    ∃ coordinator answer fault,
      create [relay, poison] Settings.standard default = .ok coordinator ∧
      coordinator.run? .still none [⟨7, []⟩] = some answer ∧
      answer.result = .fault fault ∧ fault.stageName? = some "poison" ∧
      fault.batchIndex? = none := by
  obtain ⟨coordinator, answer, created, ran, outcome⟩ :=
    exists_answer [relay, poison] Settings.standard (·.run? .still none [⟨7, []⟩])
      (·.result.fault?)
      (some (.workerUnavailable "poison" "worker thread exited before replying"))
      (by decide +kernel)
  exact ⟨coordinator, answer, _, created, ran, RunResult.eq_of_fault? outcome, rfl, rfl⟩

end Coordinator
end StagePipeline
