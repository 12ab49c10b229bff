import StagePipeline.Proofs.Run.Course

/-!
# Runs and their reference

The outlook of a run is what becomes, one batch after the other and without threads,
of the batches that it has not finished.  A turn that lets no deadline pass either
keeps the outlook or finishes the next batch of it.  At its end a run has therefore
come to what the reference comes to.
-/

namespace StagePipeline

namespace Sequential

/-- The outcome of a batch and of those behind it, of which the outcome is known. -/
def settle (index : Nat) (later : Outcome) : Except Fault Summary → Outcome
  | .error fault => ⟨[], some fault⟩
  | .ok summary => { later with finished := (index, summary) :: later.finished }

/-- An outcome with more batches that have been finished before. -/
def Outcome.after (outcome : Outcome) (finished : List Finished) : Outcome :=
  { outcome with finished := finished ++ outcome.finished }

theorem Outcome.after_after (outcome : Outcome) (earlier later : List Finished) :
    (outcome.after later).after earlier = outcome.after (earlier ++ later) := by
  rw [after, after, after, List.append_assoc]

theorem passAll_cons
    (clocks : Clocks)
    (stages : List Stage)
    (turn : Nat)
    (batch : Batch)
    (rest : List Batch) :
    passAll clocks stages turn (batch :: rest) =
      settle batch.index (passAll clocks stages (turn + 1) rest)
        (passBatch clocks turn batch.index 0 stages batch) := by
  rw [passAll]
  cases passBatch clocks turn batch.index 0 stages batch with
  | error fault => rfl
  | ok summary => rfl

end Sequential

namespace Run

open StagePipeline.Sequential

/-- What the reference comes to from a position on.  There is no such outcome after a
panic of the observer. -/
inductive Outlook (clocks : Clocks) (stages : List Stage) (run : Run) :
    Position → Sequential.Outcome → Prop where
  | between :
      Outlook clocks stages run .between (passAll clocks stages run.turn run.waiting)
  | hop {passage : Passage} {begun : Bool} :
      Outlook clocks stages run (.hop passage begun)
        (settle passage.index (passAll clocks stages (run.turn + 1) run.waiting)
          (passBatch clocks run.turn passage.index passage.ordinal
            (passage.stage :: passage.ahead) passage.batch))
  | completed {ordinal : Nat} {job? : Option Worker.Job} :
      Outlook clocks stages run (.ended .completed ordinal job?) ⟨[], none⟩
  | failed {fault : Fault} {ordinal : Nat} {job? : Option Worker.Job} :
      Outlook clocks stages run (.ended (.failed fault) ordinal job?) ⟨[], some fault⟩

/-- What a run has added to its results. -/
structure Progress (run next : Run) (finished : List Finished) : Prop where
  summaries : next.summaries = run.summaries ++ finished.map Prod.snd
  tally : next.tally = (finished.map Prod.snd).foldl Tally.push run.tally
  told : next.told = run.told ++ if run.observer?.isSome then finished else []
  observer : next.observer? = run.observer?

namespace Progress

variable {run next last : Run} {finished later : List Finished}

theorem none
    (summaries : next.summaries = run.summaries)
    (tally : next.tally = run.tally)
    (told : next.told = run.told)
    (observer : next.observer? = run.observer?) :
    Progress run next [] where
  summaries := by rw [summaries, List.map_nil, List.append_nil]
  tally := tally
  told := by rw [told, ite_self, List.append_nil]
  observer := observer

theorem trans
    (first : Progress run next finished)
    (second : Progress next last later) :
    Progress run last (finished ++ later) where
  summaries := by
    rw [second.summaries, first.summaries, List.map_append, List.append_assoc]
  tally := by rw [second.tally, first.tally, List.map_append, List.foldl_append]
  told := by
    rw [second.told, first.told, first.observer, List.append_assoc]
    split <;> rfl
  observer := second.observer.trans first.observer

end Progress

theorem completeBatch_progress
    (run : Run)
    (index : Nat)
    (summary : Summary)
    (calm : ∀ observer ∈ run.observer?,
      observer.panics (run.told ++ [(index, summary)]) = false) :
    Progress run (run.completeBatch index summary) [(index, summary)] := by
  unfold completeBatch
  cases present : run.observer? with
  | none => exact ⟨rfl, rfl, by simp [present], present.symm⟩
  | some observer =>
      have returns := calm observer present
      simp only [returns, Bool.false_eq_true, if_false]
      exact ⟨rfl, rfl, by simp [present], present.symm⟩

variable
  {settings : Settings}
  {clocks : Clocks}
  {stages : List Stage}
  {run next reached : Run}
  {position onward last : Position}
  {action : Action}
  {event? : Option Event}
  {outcome : Sequential.Outcome}

/-- Workers and control do not change what is ahead. -/
theorem Outlook.of_workers
    (outlook : Outlook clocks stages run position outcome)
    (workers : List Worker)
    (control : Control) :
    Outlook clocks stages { run with workers, control } position outcome := by
  cases outlook with
  | between => exact .between
  | hop => exact .hop
  | completed => exact .completed
  | failed => exact .failed

theorem Outlook.of_completed
    {completed : Run}
    (turn_eq : completed.turn = run.turn + 1)
    (waiting_eq : completed.waiting = run.waiting)
    (workers : List Worker)
    (control : Control) :
    Outlook clocks stages { completed with workers, control } .between
      (passAll clocks stages (run.turn + 1) run.waiting) := by
  rw [← turn_eq, ← waiting_eq]
  exact .between

/-- A turn follows the reference, unless it lets a deadline pass that there is. -/
theorem Turn.outlook
    (turned : Turn settings clocks stages run position action event? next onward)
    (timely : settings.stageLimit? = none ∨ action ≠ .client .expire)
    (calm : ∀ observer ∈ run.observer?, ∀ told, observer.panics told = false)
    (outlook : Outlook clocks stages run position outcome) :
    ∃ finished later, Outlook clocks stages next onward later ∧
      outcome = later.after finished ∧ Progress run next finished := by
  cases turned with
  | inner silent =>
      exact ⟨[], outcome, outlook.of_workers _ _, rfl, .none rfl rfl rfl rfl⟩
  | begin =>
      cases outlook with
      | hop => exact ⟨[], _, .hop, rfl, .none rfl rfl rfl rfl⟩
  | complete exhausted =>
      cases outlook with
      | between =>
          rw [exhausted]
          exact ⟨[], _, .completed, rfl, .none rfl rfl rfl rfl⟩
  | astray waiting empty =>
      cases outlook with
      | between =>
          subst empty
          rw [waiting, passAll_cons]
          exact ⟨[], _, .failed, rfl, .none rfl rfl rfl rfl⟩
  | take waiting nonempty =>
      cases outlook with
      | between =>
          subst nonempty
          rw [waiting, passAll_cons]
          exact ⟨[], _, .hop, rfl, .none rfl rfl rfl rfl⟩
  | @pass passage action output batch stage ahead workers control more replied routed =>
      cases outlook with
      | hop =>
          rw [passage.pass_eq, replied, more]
          simp only [List.isEmpty_cons, routed]
          rw [← passage.onward_ordinal batch stage ahead]
          exact ⟨[], _, .hop, rfl, .none rfl rfl rfl rfl⟩
  | @finish passage action output summary workers control passes empty replied routed returns =>
      cases outlook with
      | hop =>
          rw [passage.pass_eq, replied, empty]
          simp only [List.isEmpty_nil, routed]
          have progress := completeBatch_progress
            (run.countHop passage.ordinal passage.batch.size output.recordCount)
            passage.index summary returns
          have turn_eq := completeBatch_turn
            (run.countHop passage.ordinal passage.batch.size output.recordCount)
            passage.index summary returns
          exact ⟨_, _, .of_completed turn_eq (completeBatch_waiting _ _ _) _ _, rfl,
            progress.summaries, progress.tally, progress.told, progress.observer⟩
  | unwind empty replied routed present panics =>
      rw [calm _ present] at panics
      cases panics
  | @refuse passage action output reason workers control replied routed =>
      cases outlook with
      | hop =>
          rw [passage.pass_eq, replied]
          simp only [routed]
          exact ⟨[], _, .failed, rfl, .none rfl rfl rfl rfl⟩
  | @fail passage action fault workers control replied =>
      cases outlook with
      | hop =>
          rw [passage.pass_eq, replied]
          exact ⟨[], _, .failed, rfl, .none rfl rfl rfl rfl⟩
  | expire limited =>
      rcases timely with unlimited | timely
      · rw [unlimited] at limited
        cases limited
      · exact absurd rfl timely
  | beginLate =>
      refine ⟨[], outcome, ?_, rfl, .none rfl rfl rfl rfl⟩
      cases outlook with
      | completed => exact .completed
      | failed => exact .failed

/-- A schedule follows the reference if there is no deadline or it lets none pass. -/
theorem Turns.outlook
    {schedule : List Action}
    {events : List Event}
    (turned : Turns settings clocks stages run position schedule events reached last)
    (timely : settings.stageLimit? = none ∨ .client .expire ∉ schedule)
    (calm : ∀ observer ∈ run.observer?, ∀ told, observer.panics told = false)
    (outlook : Outlook clocks stages run position outcome) :
    ∃ finished later, Outlook clocks stages reached last later ∧
      outcome = later.after finished ∧ Progress run reached finished := by
  induction turned generalizing outcome with
  | stay => exact ⟨[], outcome, outlook, rfl, .none rfl rfl rfl rfl⟩
  | @turn run next reached position onward last action event? rest events first followed
      inductionHypothesis =>
      rw [List.mem_cons, not_or, or_and_left] at timely
      obtain ⟨finished, middle, onward, rfl, progress⟩ :=
        first.outlook (timely.1.imp_right Ne.symm) calm outlook
      rw [← progress.observer] at calm
      obtain ⟨more, later, final, rfl, further⟩ := inductionHypothesis timely.2 calm onward
      exact ⟨finished ++ more, later, final, later.after_after finished more,
        progress.trans further⟩

/-- A run that comes to an end is in a position that tells so. -/
theorem Orderly.position_of_ending
    {ending : Ending}
    (orderly : Orderly settings clocks stages run position)
    (ends : run.control.ending? = some ending) :
    ∃ ordinal job?, position = .ended ending ordinal job? := by
  cases orderly with
  | between ready =>
      rw [ready] at ends
      cases ends
  | hop passes hopping =>
      rw [hopping] at ends
      cases ends
  | @ended other ordinal job? ended =>
      cases ended.symm.trans ends
      exact ⟨ordinal, job?, rfl⟩

theorem control_ending?_of_ending?
    {ending : Ending}
    (ended : run.ending? = some ending) :
    run.control.ending? = some ending := by
  unfold ending? at ended
  split at ended
  · rename_i control
    rw [control]
    exact ended
  · cases ended

theorem Orderly.position_of_over
    {ending : Ending}
    (orderly : Orderly settings clocks stages run position)
    (ended : run.ending? = some ending) :
    ∃ ordinal job?, position = .ended ending ordinal job? :=
  orderly.position_of_ending (control_ending?_of_ending? ended)

/-- How the reference ends. -/
def endingOf (outcome : Sequential.Outcome) : Ending :=
  match outcome.fault? with
  | none => .completed
  | some fault => .failed fault

/-- Under every schedule in which no deadline passes, or if there is none, a run ends as
the reference does. -/
theorem ends_as_reference
    {observer? : Option Observer}
    {batches : List Batch}
    {schedule : List Action}
    {events : List Event}
    {ending : Ending}
    (started : start? stages settings clocks observer? batches = some run)
    (executed : run.execute? schedule = some (reached, events))
    (timely : settings.stageLimit? = none ∨ .client .expire ∉ schedule)
    (calm : ∀ observer ∈ observer?, ∀ told, observer.panics told = false)
    (ended : reached.ending? = some ending) :
    ending = endingOf (passAll clocks stages 0 batches) ∧
      reached.summaries = (passAll clocks stages 0 batches).finished.map Prod.snd ∧
      reached.tally =
        Tally.ofList ((passAll clocks stages 0 batches).finished.map Prod.snd) ∧
      reached.told =
        if observer?.isSome then (passAll clocks stages 0 batches).finished else [] := by
  obtain ⟨last, turned, orderly⟩ := (Orderly.of_start started).turns executed
  obtain ⟨ordinal, job?, rfl⟩ := orderly.position_of_over ended
  obtain ⟨workers, spawned, result⟩ := Option.bind_eq_some_iff.mp started
  cases result
  obtain ⟨finished, later, outlook, same, progress⟩ := turned.outlook timely calm .between
  change passAll clocks stages 0 batches = _ at same
  rw [same]
  have nothing : later.finished = [] := by cases outlook <;> rfl
  have all : (later.after finished).finished = finished := by
    rw [Sequential.Outcome.after, nothing, List.append_nil]
  rw [all]
  refine ⟨?_, progress.summaries, progress.tally, ?_⟩
  · cases outlook <;> rfl
  · rw [progress.told, List.nil_append]

end Run

/-! ## The reference -/

namespace Sequential

/-- The batches that the reference finishes pass all stages. -/
theorem passAll_finished
    {clocks : Clocks}
    {stages : List Stage}
    {turn : Nat}
    {batches : List Batch}
    {position index : Nat}
    {summary : Summary}
    (present :
      (passAll clocks stages turn batches).finished[position]? = some (index, summary)) :
    ∃ batch, batches[position]? = some batch ∧ index = batch.index ∧
      passBatch clocks (turn + position) batch.index 0 stages batch = .ok summary := by
  induction batches generalizing turn position with
  | nil => cases present
  | cons first rest inductionHypothesis =>
      rw [passAll_cons] at present
      cases result : passBatch clocks turn first.index 0 stages first with
      | error fault =>
          rw [result] at present
          cases present
      | ok passed =>
          rw [result] at present
          cases position with
          | zero =>
              cases present
              exact ⟨first, rfl, rfl, result⟩
          | succ position =>
              obtain ⟨batch, there, tagged, passes⟩ := inductionHypothesis present
              refine ⟨batch, there, tagged, ?_⟩
              rwa [Nat.add_right_comm, Nat.add_assoc] at passes

/-- Either the reference finishes all batches, or the batch behind those that it
finishes fails. -/
theorem passAll_fault?
    (clocks : Clocks)
    (stages : List Stage)
    (turn : Nat)
    (batches : List Batch) :
    ((passAll clocks stages turn batches).fault? = none ∧
        (passAll clocks stages turn batches).finished.length = batches.length) ∨
      ∃ batch fault, (passAll clocks stages turn batches).fault? = some fault ∧
        batches[(passAll clocks stages turn batches).finished.length]? = some batch ∧
        passBatch clocks (turn + (passAll clocks stages turn batches).finished.length)
          batch.index 0 stages batch = .error fault := by
  induction batches generalizing turn with
  | nil => exact Or.inl ⟨rfl, rfl⟩
  | cons first rest inductionHypothesis =>
      rw [passAll_cons]
      cases result : passBatch clocks turn first.index 0 stages first with
      | error fault => exact Or.inr ⟨first, fault, rfl, rfl, result⟩
      | ok summary =>
          rcases inductionHypothesis (turn + 1) with
            ⟨complete, all⟩ | ⟨batch, fault, failed, there, fails⟩
          · exact Or.inl ⟨complete, congrArg (· + 1) all⟩
          · refine Or.inr ⟨batch, fault, failed, there, ?_⟩
            rwa [Nat.add_right_comm, Nat.add_assoc] at fails

/-- A fault of a run bears the tags of a stage and a batch: it names both, but only the
stage if that takes its thread down. -/
def Tagged (fault : Fault) (stage : Stage) (index : Nat) : Prop :=
  fault.stageName? = some stage.name ∧
    (fault.batchIndex? = some index ∨
      fault = .workerUnavailable stage.name "worker thread exited before replying" ∧
        ∃ now input, stage.apply now input = .death)

/-- A stage is named by its faults, and so is the batch unless the thread dies. -/
theorem reply_fault
    {stage : Stage}
    {now : Timestamp}
    {batch : Batch}
    {fault : Fault}
    (failed : reply stage now batch = .error fault) :
    Tagged fault stage batch.index := by
  rw [reply, Stage.reply?] at failed
  cases applied : stage.apply now batch with
  | output output => simp [applied] at failed
  | failure failure =>
      simp only [applied, Except.error.injEq] at failed
      subst failed
      cases failure <;> exact ⟨rfl, Or.inl rfl⟩
  | panic payload =>
      simp only [applied, Except.error.injEq] at failed
      subst failed
      exact ⟨rfl, Or.inl rfl⟩
  | death =>
      simp only [applied, Except.error.injEq] at failed
      subst failed
      exact ⟨rfl, Or.inr ⟨rfl, now, batch, applied⟩⟩

/-- The fault of a batch names a stage and the index with which the batch came in. -/
theorem passBatch_fault
    {clocks : Clocks}
    {turn index ordinal : Nat}
    {stages : List Stage}
    {batch : Batch}
    {fault : Fault}
    (nonempty : stages ≠ [])
    (kept : batch.index = index)
    (failed : passBatch clocks turn index ordinal stages batch = .error fault) :
    ∃ stage ∈ stages, Tagged fault stage index := by
  induction stages generalizing ordinal batch with
  | nil => exact absurd rfl nonempty
  | cons stage rest inductionHypothesis =>
      rw [passBatch] at failed
      split at failed
      · rename_i other replied
        cases failed
        subst kept
        exact ⟨stage, List.mem_cons_self, reply_fault replied⟩
      · rename_i output replied
        split at failed
        · rename_i next routed
          obtain ⟨more, -, kept⟩ := Run.route_eq_next routed
          have behind : rest ≠ [] := by
            rintro rfl
            cases more
          obtain ⟨later, among, found⟩ := inductionHypothesis behind kept failed
          exact ⟨later, List.mem_cons_of_mem _ among, found⟩
        · cases failed
        · cases failed
          exact ⟨stage, List.mem_cons_self, rfl, Or.inl rfl⟩

end Sequential
end StagePipeline
