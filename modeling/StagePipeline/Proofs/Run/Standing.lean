import StagePipeline.Proofs.Run.Refinement

/-!
# The standing of a run

A run keeps to the reference under every schedule, also if a deadline ends it.  In every
position it has finished the batches in front of the one that it is at, as the reference
finishes them, and what is left of that one goes on as it does in the reference.  The same
holds of the metrics of the stages.
-/

namespace StagePipeline
namespace Sequential

/-! ## The metrics of the reference -/

/-- The metrics of the stages from a position on, after they have been given a batch of
this turn. -/
def passMetrics
    (clocks : Clocks)
    (turn index ordinal : Nat) :
    List Stage → Batch → List StageMetrics → List StageMetrics
  | stage :: rest, batch, metrics :: others =>
      match reply stage (clocks.stamp ordinal (UInt64.ofNat turn)) batch with
      | .error _ => metrics :: others
      | .ok output =>
          metrics.record batch.size output.recordCount (clocks.elapsed turn ordinal) ::
            match Run.route index rest.isEmpty output with
            | .next next => passMetrics clocks turn index (ordinal + 1) rest next others
            | .finished _ => others
            | .refused _ => others
  | _, _, metrics => metrics

/-- The metrics of all stages after some batches, the first one in the given turn. -/
def metricsAfter (clocks : Clocks) (stages : List Stage) :
    Nat → List Batch → List StageMetrics → List StageMetrics
  | _, [], metrics => metrics
  | turn, batch :: rest, metrics =>
      metricsAfter clocks stages (turn + 1) rest
        (passMetrics clocks turn batch.index 0 stages batch metrics)

section

variable {clocks : Clocks} {turn index ordinal : Nat} {stages : List Stage}

@[simp] theorem passMetrics_length (batch : Batch) (metrics : List StageMetrics) :
    (passMetrics clocks turn index ordinal stages batch metrics).length = metrics.length := by
  induction stages generalizing ordinal batch metrics with
  | nil => rfl
  | cons stage rest inductionHypothesis =>
      cases metrics with
      | nil => rfl
      | cons metrics others =>
          rw [passMetrics]
          split
          · rfl
          · rw [List.length_cons, List.length_cons]
            split
            · rw [inductionHypothesis]
            · rfl
            · rfl

@[simp] theorem metricsAfter_length (batches : List Batch) (metrics : List StageMetrics) :
    (metricsAfter clocks stages turn batches metrics).length = metrics.length := by
  induction batches generalizing turn metrics with
  | nil => rfl
  | cons batch rest inductionHypothesis =>
      rw [metricsAfter, inductionHypothesis, passMetrics_length]

/-- The metrics after one more batch are those before it, with its passage. -/
theorem metricsAfter_append_singleton
    (batches : List Batch)
    (batch : Batch)
    (metrics : List StageMetrics) :
    metricsAfter clocks stages turn (batches ++ [batch]) metrics =
      passMetrics clocks (turn + batches.length) batch.index 0 stages batch
        (metricsAfter clocks stages turn batches metrics) := by
  induction batches generalizing turn metrics with
  | nil => rfl
  | cons first rest inductionHypothesis =>
      rw [List.cons_append, metricsAfter, inductionHypothesis, metricsAfter, List.length_cons,
        Nat.add_right_comm, Nat.add_assoc]

end

/-! ## Finished and failed batches -/

/-- The first batches pass all stages, each in its turn, and come to these summaries. -/
def Finishes
    (clocks : Clocks)
    (stages : List Stage)
    (batches : List Batch)
    (finished : List Finished) :
    Prop :=
  ∀ turn index summary, finished[turn]? = some (index, summary) →
    ∃ batch, batches[turn]? = some batch ∧ index = batch.index ∧
      passBatch clocks turn batch.index 0 stages batch = .ok summary

/-- A batch fails in its turn: as it does in the reference, or because it is kept for too
long by one of the stages. -/
def FailsWith
    (settings : Settings)
    (clocks : Clocks)
    (stages : List Stage)
    (turn : Nat)
    (batch : Batch)
    (fault : Fault) :
    Prop :=
  passBatch clocks turn batch.index 0 stages batch = .error fault ∨
    ∃ stage ∈ stages, ∃ limit, settings.stageLimit? = some limit ∧
      fault = .timedOut stage.name batch.index limit

section

variable {clocks : Clocks} {stages : List Stage} {batches : List Batch}
  {finished others : List Finished}

theorem Finishes.nil : Finishes clocks stages batches [] := by
  intro turn index summary present
  cases present

/-- A batch that passes is finished behind those that have been finished. -/
theorem Finishes.append_singleton
    {batch : Batch}
    {summary : Summary}
    (finishes : Finishes clocks stages batches finished)
    (there : batches[finished.length]? = some batch)
    (passes : passBatch clocks finished.length batch.index 0 stages batch = .ok summary) :
    Finishes clocks stages batches (finished ++ [(batch.index, summary)]) := by
  intro turn index other present
  rcases Nat.lt_or_ge turn finished.length with before | behind
  · rw [List.getElem?_append_left before] at present
    exact finishes turn index other present
  · rw [List.getElem?_append_right behind] at present
    obtain ⟨distance, rfl⟩ := Nat.exists_eq_add_of_le behind
    rw [Nat.add_sub_cancel_left] at present
    cases distance with
    | zero =>
        cases present
        exact ⟨batch, there, rfl, passes⟩
    | succ distance => cases present

/-- No more is finished than there are batches. -/
theorem Finishes.length_le (finishes : Finishes clocks stages batches finished) :
    finished.length ≤ batches.length := by
  cases count : finished.length with
  | zero => exact Nat.zero_le _
  | succ last =>
      have inside : last < finished.length := by omega
      obtain ⟨batch, there, -⟩ := finishes last _ _ (List.getElem?_eq_getElem inside)
      exact (List.getElem?_eq_some_iff.mp there).1

/-- What two runs finish is the same as far as both go. -/
theorem Finishes.getElem?_eq
    {turn : Nat}
    (finishes : Finishes clocks stages batches finished)
    (alsoFinishes : Finishes clocks stages batches others)
    (within : turn < finished.length)
    (alsoWithin : turn < others.length) :
    finished[turn]? = others[turn]? := by
  rw [List.getElem?_eq_getElem within, List.getElem?_eq_getElem alsoWithin]
  obtain ⟨batch, there, tagged, passes⟩ :=
    finishes turn _ _ (List.getElem?_eq_getElem within)
  obtain ⟨same, alsoThere, alsoTagged, alsoPasses⟩ :=
    alsoFinishes turn _ _ (List.getElem?_eq_getElem alsoWithin)
  cases there.symm.trans alsoThere
  have summary_eq := Except.ok.inj (passes.symm.trans alsoPasses)
  exact congrArg some (Prod.ext (tagged.trans alsoTagged.symm) summary_eq)

/-- As many finished batches are the same finished batches. -/
theorem Finishes.eq_of_length_eq
    (finishes : Finishes clocks stages batches finished)
    (alsoFinishes : Finishes clocks stages batches others)
    (length_eq : finished.length = others.length) :
    finished = others := by
  apply List.ext_getElem? fun turn => ?_
  rcases Nat.lt_or_ge turn finished.length with within | behind
  · exact finishes.getElem?_eq alsoFinishes within (by omega)
  · rw [List.getElem?_eq_none behind, List.getElem?_eq_none (by omega)]

/-- A batch that fails is behind all that are finished. -/
theorem Finishes.length_le_of_error
    {turn : Nat}
    {batch : Batch}
    {fault : Fault}
    (finishes : Finishes clocks stages batches finished)
    (there : batches[turn]? = some batch)
    (fails : passBatch clocks turn batch.index 0 stages batch = .error fault) :
    finished.length ≤ turn := by
  apply Nat.le_of_not_lt
  intro within
  obtain ⟨same, alsoThere, -, passes⟩ :=
    finishes turn _ _ (List.getElem?_eq_getElem within)
  cases there.symm.trans alsoThere
  cases fails.symm.trans passes

end

end Sequential

namespace Run

open StagePipeline.Sequential

/-! ## Positions -/

/-- What a run keeps of the batches that it has finished. -/
structure Ledger
    (clocks : Clocks)
    (stages : List Stage)
    (batches : List Batch)
    (run : Run)
    (finished : List Finished) :
    Prop where
  finishes : Finishes clocks stages batches finished
  clocks_eq : run.clocks = clocks
  summaries : run.summaries = finished.map Prod.snd
  tally : run.tally = Tally.ofList run.summaries
  told : run.told = if run.observer?.isSome then finished else []

/-- The metrics of all stages after the finished batches. -/
def metricsBefore (clocks : Clocks) (stages : List Stage) (batches : List Batch) (turn : Nat) :
    List StageMetrics :=
  metricsAfter clocks stages 0 (batches.take turn)
    (stages.map fun stage => StageMetrics.new stage.name)

/-- A passage of a batch, as it came in, has gone as in the reference so far, and the rest
of the way is the same. -/
structure Underway
    (clocks : Clocks)
    (stages : List Stage)
    (batches : List Batch)
    (run : Run)
    (passage : Passage)
    (batch : Batch) :
    Prop where
  listed : stages = passage.stages
  index : passage.index = batch.index
  kept : passage.batch.index = batch.index
  result :
    passBatch clocks run.turn batch.index 0 stages batch =
      passBatch clocks run.turn passage.index passage.ordinal
        (passage.stage :: passage.ahead) passage.batch
  metrics :
    ∃ front back, run.metrics = front ++ back ∧ front.length = passage.ordinal ∧
      back.length = passage.ahead.length + 1 ∧
      passMetrics clocks run.turn batch.index 0 stages batch
          (metricsBefore clocks stages batches run.turn) =
        front ++ passMetrics clocks run.turn passage.index passage.ordinal
          (passage.stage :: passage.ahead) passage.batch back

/-- How a run stands in a position, with the batches that it has finished.  A panic of the
observer leaves its accounts open. -/
inductive Standing
    (settings : Settings)
    (clocks : Clocks)
    (stages : List Stage)
    (batches : List Batch)
    (run : Run)
    (finished : List Finished) :
    Position → Prop where
  | between :
      Ledger clocks stages batches run finished →
      batches.drop run.turn = run.waiting →
      run.metrics = metricsBefore clocks stages batches run.turn →
      Standing settings clocks stages batches run finished .between
  | hop {passage : Passage} {begun : Bool} {batch : Batch} :
      Ledger clocks stages batches run finished →
      batches.drop run.turn = batch :: run.waiting →
      Underway clocks stages batches run passage batch →
      Standing settings clocks stages batches run finished (.hop passage begun)
  | completed {ordinal : Nat} {job? : Option Worker.Job} :
      Ledger clocks stages batches run finished →
      finished.length = batches.length →
      run.metrics = metricsBefore clocks stages batches batches.length →
      Standing settings clocks stages batches run finished (.ended .completed ordinal job?)
  | failed {fault : Fault} {batch : Batch} {ordinal : Nat} {job? : Option Worker.Job} :
      Ledger clocks stages batches run finished →
      batches[finished.length]? = some batch →
      FailsWith settings clocks stages finished.length batch fault →
      Standing settings clocks stages batches run finished
        (.ended (.failed fault) ordinal job?)
  | unwound {observer : Observer} {ordinal : Nat} {job? : Option Worker.Job} :
      run.observer? = some observer →
      observer.panics run.told = true →
      Standing settings clocks stages batches run finished (.ended .unwound ordinal job?)

variable
  {settings : Settings}
  {clocks : Clocks}
  {stages : List Stage}
  {batches : List Batch}
  {run next reached : Run}
  {finished : List Finished}
  {position onward last : Position}
  {action : Action}
  {event? : Option Event}

/-! ### Ledgers -/

namespace Ledger

/-- The ledger reads the results of a run and nothing else of it. -/
theorem of_results
    {other : Run}
    (ledger : Ledger clocks stages batches run finished)
    (clocks_eq : other.clocks = run.clocks)
    (summaries : other.summaries = run.summaries)
    (tally : other.tally = run.tally)
    (told : other.told = run.told)
    (observer : other.observer? = run.observer?) :
    Ledger clocks stages batches other finished where
  finishes := ledger.finishes
  clocks_eq := clocks_eq.trans ledger.clocks_eq
  summaries := summaries.trans ledger.summaries
  tally := by rw [tally, summaries, ledger.tally]
  told := by rw [told, observer, ledger.told]

/-- The turn of a run is the number of finished batches. -/
theorem turn_eq (ledger : Ledger clocks stages batches run finished) :
    run.turn = finished.length := by
  rw [turn, ledger.summaries, List.length_map]

/-- The batch that a run is at comes behind those that it has finished. -/
theorem getElem?_of_drop
    {batch : Batch}
    {rest : List Batch}
    (ledger : Ledger clocks stages batches run finished)
    (rest_eq : batches.drop run.turn = batch :: rest) :
    batches[finished.length]? = some batch := by
  rw [← ledger.turn_eq, ← Nat.add_zero run.turn, ← List.getElem?_drop, rest_eq]
  rfl

/-- If the batch that a run is at fails, nothing more is finished. -/
theorem standing_of_failed
    {other : Run}
    {batch : Batch}
    {rest : List Batch}
    {fault : Fault}
    {ordinal : Nat}
    {job? : Option Worker.Job}
    (ledger : Ledger clocks stages batches run finished)
    (rest_eq : batches.drop run.turn = batch :: rest)
    (fails : FailsWith settings clocks stages run.turn batch fault)
    (later : Ledger clocks stages batches other finished) :
    Standing settings clocks stages batches other finished
      (.ended (.failed fault) ordinal job?) := by
  rw [ledger.turn_eq] at fails
  exact .failed later (ledger.getElem?_of_drop rest_eq) fails

end Ledger

/-- A calm observer lets the run go on with what the batch has come to. -/
theorem completeBatch_eq
    {index : Nat}
    {summary : Summary}
    (calm : ∀ observer ∈ run.observer?,
      observer.panics (run.told ++ [(index, summary)]) = false) :
    run.completeBatch index summary =
      { run with
        tally := run.tally.push summary
        told := run.told ++ if run.observer?.isSome then [(index, summary)] else []
        summaries := run.summaries ++ [summary]
        control := .ready } := by
  unfold completeBatch
  cases present : run.observer? with
  | none => simp
  | some observer => simp [calm observer present]

/-- A panic of the observer keeps the summary out of the accounts. -/
theorem completeBatch_unwound
    (run : Run)
    {observer : Observer}
    {index : Nat}
    {summary : Summary}
    (present : run.observer? = some observer)
    (panics : observer.panics (run.told ++ [(index, summary)]) = true) :
    run.completeBatch index summary =
      { run with
        observer? := some observer
        tally := run.tally.push summary
        told := run.told ++ [(index, summary)]
        control := .stopping .unwound 0 } := by
  simp only [completeBatch, present, panics, if_true]
  rfl

theorem completeBatch_metrics (run : Run) (index : Nat) (summary : Summary) :
    (run.completeBatch index summary).metrics = run.metrics := by
  unfold completeBatch
  split
  · rfl
  · simp only
    split <;> rfl

/-- The next batch joins those that a run has finished. -/
theorem Ledger.complete
    {batch : Batch}
    {summary : Summary}
    (ledger : Ledger clocks stages batches run finished)
    (there : batches[finished.length]? = some batch)
    (passes : passBatch clocks finished.length batch.index 0 stages batch = .ok summary)
    (calm : ∀ observer ∈ run.observer?,
      observer.panics (run.told ++ [(batch.index, summary)]) = false) :
    Ledger clocks stages batches (run.completeBatch batch.index summary)
      (finished ++ [(batch.index, summary)]) := by
  rw [completeBatch_eq calm]
  constructor
  · exact ledger.finishes.append_singleton there passes
  · exact ledger.clocks_eq
  · simp only [ledger.summaries, List.map_append, List.map_cons, List.map_nil]
  · simp only [ledger.tally, Tally.ofList_append_singleton]
  · simp only [ledger.told]
    split <;> simp

/-! ### Passages -/

/-- The stage at which a batch is counts its hop, and the metrics go on as the batch does. -/
theorem Passage.passMetrics_eq
    (passage : Passage)
    (turn : Nat)
    (metrics : StageMetrics)
    (others : List StageMetrics) :
    passMetrics clocks turn passage.index passage.ordinal (passage.stage :: passage.ahead)
        passage.batch (metrics :: others) =
      match passage.reply clocks turn with
      | .error _ => metrics :: others
      | .ok output =>
          metrics.record passage.batch.size output.recordCount
              (clocks.elapsed turn passage.ordinal) ::
            match route passage.index passage.ahead.isEmpty output with
            | .next batch =>
                passMetrics clocks turn passage.index (passage.ordinal + 1) passage.ahead batch
                  others
            | .finished _ => others
            | .refused _ => others :=
  rfl

/-- A hop is counted in the metrics of its stage alone. -/
theorem countHop_metrics
    {ordinal recordsIn recordsOut : Nat}
    {front others : List StageMetrics}
    {metrics : StageMetrics}
    (split : run.metrics = front ++ metrics :: others)
    (here : front.length = ordinal) :
    (run.countHop ordinal recordsIn recordsOut).metrics =
      front ++ metrics.record recordsIn recordsOut (run.clocks.elapsed run.turn ordinal) ::
        others := by
  subst here
  simp [countHop, split, List.modify_eq_take_drop, turn]

namespace Underway

variable {passage : Passage} {batch : Batch} {output : StageOutput}

/-- A passage that is underway reads the metrics and the turn of a run and nothing else of it.
-/
theorem of_results
    {other : Run}
    (underway : Underway clocks stages batches run passage batch)
    (metrics : other.metrics = run.metrics)
    (turn_eq : other.turn = run.turn) :
    Underway clocks stages batches other passage batch where
  listed := underway.listed
  index := underway.index
  kept := underway.kept
  result := by rw [turn_eq]; exact underway.result
  metrics := by rw [metrics, turn_eq]; exact underway.metrics

/-- A passage begins with the metrics that the batches before have left. -/
theorem start
    {stage : Stage}
    {ahead : List Stage}
    (listed : stages = stage :: ahead)
    (metrics : run.metrics = metricsBefore clocks stages batches run.turn) :
    Underway clocks stages batches run (Passage.start batch stage ahead) batch where
  listed := listed
  index := rfl
  kept := rfl
  result := by rw [listed]; rfl
  metrics := by
    refine ⟨[], run.metrics, rfl, rfl, ?_, ?_⟩
    · rw [metrics, metricsBefore, metricsAfter_length, List.length_map, listed]
      rfl
    · rw [metrics, listed]
      rfl

/-- The metrics of the stage at which a batch is, between those of the others. -/
theorem metrics_split (underway : Underway clocks stages batches run passage batch) :
    ∃ front metrics others, run.metrics = front ++ metrics :: others ∧
      front.length = passage.ordinal ∧ others.length = passage.ahead.length ∧
      passMetrics clocks run.turn batch.index 0 stages batch
          (metricsBefore clocks stages batches run.turn) =
        front ++ passMetrics clocks run.turn passage.index passage.ordinal
          (passage.stage :: passage.ahead) passage.batch (metrics :: others) := by
  obtain ⟨front, back, split, here, length_eq, metrics_eq⟩ := underway.metrics
  obtain ⟨metrics, others, rfl⟩ := List.exists_cons_of_length_eq_add_one length_eq
  exact ⟨front, metrics, others, split, here, Nat.succ.inj length_eq, metrics_eq⟩

/-- The output of a stage goes on as it does in the reference. -/
theorem handOn
    {next : Batch}
    {stage : Stage}
    {ahead : List Stage}
    (underway : Underway clocks stages batches run passage batch)
    (clocks_eq : run.clocks = clocks)
    (more : passage.ahead = stage :: ahead)
    (replied : passage.reply clocks run.turn = .ok output)
    (routed : route passage.index false output = .next next) :
    Underway clocks stages batches
      (run.countHop passage.ordinal passage.batch.size output.recordCount)
      (passage.onward next stage ahead) batch where
  listed := by
    rw [underway.listed, Passage.stages, more, Passage.stages, Passage.onward,
      List.append_assoc]
    rfl
  index := underway.index
  kept := (route_eq_next routed).2.2.trans underway.index
  result := by
    refine underway.result.trans ?_
    rw [passage.pass_eq, replied, more, passage.onward_ordinal]
    simp only [List.isEmpty_cons, routed]
    rfl
  metrics := by
    obtain ⟨front, metrics, others, split, here, length_eq, metrics_eq⟩ :=
      underway.metrics_split
    refine ⟨front ++ [metrics.record passage.batch.size output.recordCount
      (clocks.elapsed run.turn passage.ordinal)], others, ?_, ?_, ?_, ?_⟩
    · rw [countHop_metrics split here, clocks_eq, List.append_assoc]
      rfl
    · rw [passage.onward_ordinal, List.length_append, here]
      rfl
    · rw [length_eq, more]
      rfl
    · refine metrics_eq.trans ?_
      rw [passage.passMetrics_eq, replied, more, passage.onward_ordinal, List.append_assoc]
      simp only [List.isEmpty_cons, routed]
      rfl

/-- The last stage finishes a batch with what it comes to in the reference. -/
theorem finish
    {summary : Summary}
    (underway : Underway clocks stages batches run passage batch)
    (clocks_eq : run.clocks = clocks)
    (empty : passage.ahead = [])
    (replied : passage.reply clocks run.turn = .ok output)
    (routed : route passage.index true output = .finished summary) :
    passBatch clocks run.turn batch.index 0 stages batch = .ok summary ∧
      (run.countHop passage.ordinal passage.batch.size output.recordCount).metrics =
        passMetrics clocks run.turn batch.index 0 stages batch
          (metricsBefore clocks stages batches run.turn) := by
  constructor
  · refine underway.result.trans ?_
    rw [passage.pass_eq, replied, empty]
    simp only [List.isEmpty_nil, routed]
  · obtain ⟨front, metrics, others, split, here, -, metrics_eq⟩ := underway.metrics_split
    rw [metrics_eq, countHop_metrics split here, clocks_eq, passage.passMetrics_eq, replied,
      empty]
    simp only [List.isEmpty_nil, routed]

/-- A refused output ends the passage of the batch with a fault of the stage. -/
theorem refuse
    {reason : String}
    (underway : Underway clocks stages batches run passage batch)
    (replied : passage.reply clocks run.turn = .ok output)
    (routed : route passage.index passage.ahead.isEmpty output = .refused reason) :
    passBatch clocks run.turn batch.index 0 stages batch =
      .error (.stageFailed passage.stage.name passage.index reason) := by
  refine underway.result.trans ?_
  rw [passage.pass_eq, replied]
  simp only [routed]

/-- A fault of the stage ends the passage of the batch. -/
theorem fail
    {fault : Fault}
    (underway : Underway clocks stages batches run passage batch)
    (replied : passage.reply clocks run.turn = .error fault) :
    passBatch clocks run.turn batch.index 0 stages batch = .error fault := by
  refine underway.result.trans ?_
  rw [passage.pass_eq, replied]

theorem stage_mem (underway : Underway clocks stages batches run passage batch) :
    passage.stage ∈ stages := by
  rw [underway.listed, Passage.stages]
  simp

end Underway

/-! ### Turns -/

/-- Workers and control do not change how a run stands. -/
theorem Standing.of_workers
    (standing : Standing settings clocks stages batches run finished position)
    (workers : List Worker)
    (control : Control) :
    Standing settings clocks stages batches { run with workers, control } finished position := by
  cases standing with
  | between ledger rest metrics =>
      exact .between (ledger.of_results rfl rfl rfl rfl rfl) rest metrics
  | hop ledger rest underway =>
      exact .hop (ledger.of_results rfl rfl rfl rfl rfl) rest (underway.of_results rfl rfl)
  | completed ledger all metrics =>
      exact .completed (ledger.of_results rfl rfl rfl rfl rfl) all metrics
  | failed ledger there fails =>
      exact .failed (ledger.of_results rfl rfl rfl rfl rfl) there fails
  | unwound present panics => exact .unwound present panics

/-- The metrics before the next batch are those before this one, with its passage. -/
theorem metricsBefore_succ
    {turn : Nat}
    {batch : Batch}
    {rest : List Batch}
    (rest_eq : batches.drop turn = batch :: rest) :
    metricsBefore clocks stages batches (turn + 1) =
      passMetrics clocks turn batch.index 0 stages batch
        (metricsBefore clocks stages batches turn) := by
  have inside : turn < batches.length := by
    have length_eq := congrArg List.length rest_eq
    rw [List.length_drop, List.length_cons] at length_eq
    omega
  have there : batches[turn] = batch := by
    rw [List.drop_eq_getElem_cons inside] at rest_eq
    exact (List.cons.inj rest_eq).1
  rw [metricsBefore, ← List.take_append_getElem inside, there, metricsAfter_append_singleton,
    List.length_take_of_le (Nat.le_of_lt inside), Nat.zero_add]
  rfl

/-- The last stage has finished the batch that a run is at. -/
theorem Standing.complete
    {passage : Passage}
    {begun : Bool}
    {output : StageOutput}
    {summary : Summary}
    (standing : Standing settings clocks stages batches run finished (.hop passage begun))
    (empty : passage.ahead = [])
    (replied : passage.reply clocks run.turn = .ok output)
    (routed : route passage.index true output = .finished summary)
    (calm : ∀ observer ∈ run.observer?,
      observer.panics (run.told ++ [(passage.index, summary)]) = false) :
    Standing settings clocks stages batches
      ((run.countHop passage.ordinal passage.batch.size output.recordCount).completeBatch
        passage.index summary)
      (finished ++ [(passage.index, summary)]) .between := by
  cases standing with
  | @hop _ _ batch ledger rest underway =>
      obtain ⟨result, metrics⟩ := underway.finish ledger.clocks_eq empty replied routed
      have counted : Ledger clocks stages batches
          (run.countHop passage.ordinal passage.batch.size output.recordCount) finished :=
        ledger.of_results rfl rfl rfl rfl rfl
      rw [ledger.turn_eq] at result
      rw [underway.index] at calm ⊢
      have turn_eq := completeBatch_turn
        (run.countHop passage.ordinal passage.batch.size output.recordCount) batch.index summary
        calm
      refine .between (counted.complete (ledger.getElem?_of_drop rest) result calm) ?_ ?_
      · rw [turn_eq, completeBatch_waiting, ← List.drop_drop]
        exact congrArg (List.drop 1) rest
      · rw [turn_eq, completeBatch_metrics]
        exact metrics.trans (metricsBefore_succ rest).symm

/-- Every turn leaves the run in a standing, with the same batches finished or one more.  Only
a turn that finishes a batch adds to them. -/
theorem Turn.standing
    (turned : Turn settings clocks stages run position action event? next onward)
    (standing : Standing settings clocks stages batches run finished position) :
    ∃ all, Standing settings clocks stages batches next all onward := by
  cases turned with
  | inner silent => exact ⟨finished, standing.of_workers _ _⟩
  | @unwind passage action output summary observer workers control _ _ _ present panics =>
      have unwound := completeBatch_unwound
        (run.countHop passage.ordinal passage.batch.size output.recordCount) present panics
      have stays := congrArg Run.observer? unwound
      have panicked := (congrArg (observer.panics ·.told) unwound).trans panics
      exact ⟨finished, .unwound stays panicked⟩
  | finish _ empty replied routed returns =>
      exact ⟨_, (standing.complete empty replied routed returns).of_workers _ _⟩
  | begin =>
      cases standing with
      | hop ledger rest underway =>
          exact ⟨finished, .hop (ledger.of_results rfl rfl rfl rfl rfl) rest
            (underway.of_results rfl rfl)⟩
  | complete exhausted =>
      cases standing with
      | between ledger rest metrics =>
          rw [exhausted, List.drop_eq_nil_iff, ledger.turn_eq] at rest
          have all := Nat.le_antisymm ledger.finishes.length_le rest
          rw [ledger.turn_eq, all] at metrics
          exact ⟨finished, .completed (ledger.of_results rfl rfl rfl rfl rfl) all metrics⟩
  | astray waiting empty =>
      cases standing with
      | between ledger rest metrics =>
          rw [waiting] at rest
          subst empty
          exact ⟨finished, ledger.standing_of_failed rest (Or.inl rfl)
            (ledger.of_results rfl rfl rfl rfl rfl)⟩
  | take waiting nonempty =>
      cases standing with
      | between ledger rest metrics =>
          rw [waiting] at rest
          exact ⟨finished, .hop (ledger.of_results rfl rfl rfl rfl rfl) rest
            (.start nonempty metrics)⟩
  | pass more replied routed =>
      cases standing with
      | hop ledger rest underway =>
          have further := underway.handOn ledger.clocks_eq more replied routed
          exact ⟨finished, .hop (ledger.of_results rfl rfl rfl rfl rfl) rest
            (further.of_results rfl rfl)⟩
  | refuse replied routed =>
      cases standing with
      | hop ledger rest underway =>
          exact ⟨finished, ledger.standing_of_failed rest
            (Or.inl (underway.refuse replied routed)) (ledger.of_results rfl rfl rfl rfl rfl)⟩
  | fail replied =>
      cases standing with
      | hop ledger rest underway =>
          exact ⟨finished, ledger.standing_of_failed rest
            (Or.inl (underway.fail replied)) (ledger.of_results rfl rfl rfl rfl rfl)⟩
  | expire limited =>
      cases standing with
      | hop ledger rest underway =>
          rw [underway.kept]
          exact ⟨finished, ledger.standing_of_failed rest
            (Or.inr ⟨_, underway.stage_mem, _, limited, rfl⟩)
            (ledger.of_results rfl rfl rfl rfl rfl)⟩
  | beginLate =>
      cases standing with
      | completed ledger all metrics =>
          exact ⟨finished, .completed (ledger.of_results rfl rfl rfl rfl rfl) all metrics⟩
      | failed ledger there fails =>
          exact ⟨finished, .failed (ledger.of_results rfl rfl rfl rfl rfl) there fails⟩
      | unwound present panics => exact ⟨finished, .unwound present panics⟩

/-- Under every schedule a run stands in its last position as it did in its first one. -/
theorem Turns.standing
    {schedule : List Action}
    {events : List Event}
    (turned : Turns settings clocks stages run position schedule events reached last)
    (standing : Standing settings clocks stages batches run finished position) :
    ∃ all, Standing settings clocks stages batches reached all last := by
  induction turned generalizing finished with
  | stay => exact ⟨finished, standing⟩
  | turn first _ inductionHypothesis =>
      obtain ⟨more, standing⟩ := first.standing standing
      exact inductionHypothesis standing

/-- A run starts between two batches, with none finished. -/
theorem Standing.of_start
    {observer? : Option Observer}
    (started : start? stages settings clocks observer? batches = some run) :
    Standing settings clocks stages batches run [] .between := by
  obtain ⟨workers, spawned, result⟩ := Option.bind_eq_some_iff.mp started
  cases result
  refine .between ⟨.nil, rfl, rfl, rfl, ?_⟩ rfl rfl
  rw [ite_self]

end Run
end StagePipeline
