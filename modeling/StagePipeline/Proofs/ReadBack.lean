import StagePipeline.Proofs.Numbers
import StagePipeline.Proofs.Transmission

/-!
# Reports of built-in stages

The numbers that built-in stages summarise are finite, and so are the bounds of a report
wherever there is a number.  A sum of finite numbers need not be finite.  If the sum of a batch
is not, then neither is the total sum, and if the total sum is finite, then so are all
averages.  So a report is read back with the floats that the text layer echoes if its total sum
is finite, and cannot be read back otherwise.  Behind a filter the numbers are too small for
their sums to overflow.
-/

namespace StagePipeline

open Binary64

/-! ## Summaries and totals -/

section Summaries

variable
  {values : List Float}
  {groups : List (List Float)}

namespace Summary

/-- Bounds over finite numbers are finite. -/
theorem isIntact_ofValues (finite : ∀ value ∈ values, value.isFinite = true) :
    (ofValues values).IsIntact := by
  by_cases none : values = []
  · rw [none]
    exact ⟨Or.inr rfl, Or.inr rfl⟩
  · have between : ∀ value ∈ values, IsFinite value := fun value present =>
      .of_isFinite (finite value present)
    exact ⟨Or.inl (finite _ (first_least between none).among),
      Or.inl (finite _ (first_greatest between none).among)⟩

/-- The average is finite if the sum is. -/
theorem isReadable_ofValues (finite : (ofValues values).sum.isFinite = true) :
    (ofValues values).isReadable = true := by
  rw [isReadable, finite, Bool.true_and]
  exact isFinite_average finite values.length

end Summary

theorem Tally.ofList_sum (summaries : List Summary) :
    (Tally.ofList summaries).sum = (summaries.map Summary.sum).foldl (· + ·) 0 := by
  rw [List.foldl_map]
  exact (List.foldl_hom Tally.sum fun _ _ => rfl).symm

/-- A bound that is there is one of the values. -/
theorem IsBound.mem
    {before : Float → Float → Prop}
    {bound? : Option Float}
    {bound : Float}
    (bounds : IsBound before values bound?)
    (present : bound ∈ bound?) :
    bound ∈ values := by
  obtain rfl := Option.mem_def.mp present
  exact First.among bounds

namespace Totals

/-- The bounds that are there come from the batches, and are finite if all numbers are. -/
theorem isIntact_combine (finite : ∀ group ∈ groups, ∀ value ∈ group, value.isFinite = true) :
    (combine (groups.map Summary.ofValues)).IsIntact := by
  have counts := Tally.ofList_counts fun group among value present =>
    IsFinite.of_isFinite (finite group among value present)
  have flat : ∀ value ∈ groups.flatten, value.isFinite = true := by
    intro value present
    obtain ⟨group, among, present⟩ := List.mem_flatten.mp present
    exact finite group among value present
  exact ⟨fun bound present => flat bound (counts.least.mem present),
    fun bound present => flat bound (counts.greatest.mem present)⟩

theorem isReadable_combine (summaries : List Summary) :
    (combine summaries).isReadable = (combine summaries).sum.isFinite := by
  rw [isReadable]
  cases finite : (combine summaries).sum.isFinite with
  | false => rfl
  | true => exact isFinite_average finite _

/-- A batch whose sum is not finite leaves a total sum that is not finite. -/
theorem isFinite_sum_of_combine
    {summaries : List Summary}
    {summary : Summary}
    (finite : (combine summaries).sum.isFinite = true)
    (present : summary ∈ summaries) :
    summary.sum.isFinite = true := by
  change (Tally.ofList summaries).sum.isFinite = true at finite
  rw [Tally.ofList_sum] at finite
  exact (isFinite_foldl_add finite).2 _ (List.mem_map_of_mem present)

/-- The sum over numbers within the bounds of a filter is finite. -/
theorem isFinite_sum_of_withinFilterBounds
    (within : ∀ group ∈ groups, ∀ value ∈ group, withinFilterBounds value = true) :
    (combine (groups.map Summary.ofValues)).sum.isFinite = true := by
  have batches : ∀ sum ∈ (groups.map Summary.ofValues).map Summary.sum, IsAtMost 60 sum := by
    intro sum present
    obtain ⟨summary, made, rfl⟩ := List.mem_map.mp present
    obtain ⟨group, among, rfl⟩ := List.mem_map.mp made
    exact .foldl_add (by decide) (by decide) (isAtMost_zero _) fun value present =>
      isAtMost_of_withinFilterBounds (within group among value present)
  change (Tally.ofList (groups.map Summary.ofValues)).sum.isFinite = true
  rw [Tally.ofList_sum]
  exact (IsAtMost.foldl_add (by decide) (by decide) (isAtMost_zero (60 + 53)) batches).isFinite

end Totals

end Summaries

/-! ## Reports -/

namespace Report

/-- A report over groups of numbers, one for each batch. -/
structure Summarises (report : Report) (groups : List (List Float)) : Prop where
  summaries : report.summaries = groups.map Summary.ofValues
  totals : report.totals = Totals.combine (groups.map Summary.ofValues)

variable
  {report : Report}
  {groups : List (List Float)}

theorem Summarises.isIntact
    (summarises : report.Summarises groups)
    (finite : ∀ group ∈ groups, ∀ value ∈ group, value.isFinite = true) :
    report.IsIntact := by
  constructor
  · rw [summarises.totals]
    exact Totals.isIntact_combine finite
  · intro summary present
    rw [summarises.summaries] at present
    obtain ⟨group, among, rfl⟩ := List.mem_map.mp present
    exact Summary.isIntact_ofValues (finite group among)

theorem Summarises.isReadable_eq (summarises : report.Summarises groups) :
    report.isReadable = report.totals.sum.isFinite := by
  rw [isReadable, summarises.summaries, summarises.totals, Totals.isReadable_combine]
  cases finite : (Totals.combine (groups.map Summary.ofValues)).sum.isFinite with
  | false => rfl
  | true =>
      rw [Bool.true_and, List.all_eq_true]
      intro summary present
      have sum := Totals.isFinite_sum_of_combine finite present
      obtain ⟨group, -, rfl⟩ := List.mem_map.mp present
      exact Summary.isReadable_ofValues sum

/-- A report over finite numbers comes back as the text layer echoes it if the total sum is
finite, and does not come back otherwise. -/
theorem Summarises.ofJson?_transmit?
    {layer : TextLayer}
    (summarises : report.Summarises groups)
    (lawful : layer.Lawful)
    (finite : ∀ group ∈ groups, ∀ value ∈ group, value.isFinite = true)
    (fits : report.Fits) :
    (layer.transmit? report.toJson).bind ofJson? =
      if report.totals.sum.isFinite then report.echoed? layer else none := by
  have readable := summarises.isReadable_eq
  split
  · rename_i sum
    exact Report.ofJson?_transmit? lawful fits (summarises.isIntact finite) (readable.trans sum)
  · rename_i sum
    rw [Bool.not_eq_true] at sum
    exact ofJson?_transmit?_eq_none lawful fits (readable.trans sum)

end Report

/-! ## Runs -/

/-- Summaries over some numbers each are those over groups of numbers. -/
theorem Summary.exists_groups
    {summaries : List Summary}
    {property : Float → Prop}
    (each : ∀ summary ∈ summaries,
      ∃ values, summary = ofValues values ∧ ∀ value ∈ values, property value) :
    ∃ groups : List (List Float), summaries = groups.map ofValues ∧
      ∀ group ∈ groups, ∀ value ∈ group, property value := by
  induction summaries with
  | nil => exact ⟨[], rfl, nofun⟩
  | cons summary rest inductionHypothesis =>
      obtain ⟨⟨values, rfl, first⟩, others⟩ := List.forall_mem_cons.mp each
      obtain ⟨groups, rfl, later⟩ := inductionHypothesis others
      exact ⟨values :: groups, rfl, List.forall_mem_cons.mpr ⟨first, later⟩⟩

/-- Raw records carry no numbers yet. -/
theorem Batch.IsRaw.areSound {batch : Batch} (raw : batch.IsRaw) :
    AreSound False batch.records := by
  intro record present
  obtain ⟨number, text, rfl⟩ := raw record present
  exact not_false

/-- Built-in stages report sound numbers. -/
theorem Run.Standing.exists_summarises
    {settings : Settings}
    {clocks : Clocks}
    {stages : List Stage}
    {batches : List Batch}
    {run : Run}
    {finished : List Finished}
    {ordinal : Nat}
    {job? : Option Worker.Job}
    (standing : Run.Standing settings clocks stages batches run finished
      (.ended .completed ordinal job?))
    (builtin : ∀ stage ∈ stages, stage.kind.isBuiltin = true)
    (raw : ∀ batch ∈ batches, batch.IsRaw)
    (runId : RunId) :
    ∃ groups, (run.report runId).Summarises groups ∧
      ∀ group ∈ groups, ∀ value ∈ group,
        IsSound (∃ stage ∈ stages, stage.kind = .filter) (some value) := by
  cases standing with
  | completed ledger =>
      have each : ∀ summary ∈ run.summaries, ∃ values, summary = Summary.ofValues values ∧
          ∀ value ∈ values, IsSound (∃ stage ∈ stages, stage.kind = .filter) (some value) := by
        intro summary present
        rw [ledger.summaries] at present
        obtain ⟨⟨index, summary⟩, among, rfl⟩ := List.mem_map.mp present
        obtain ⟨turn, there⟩ := List.mem_iff_getElem?.mp among
        obtain ⟨batch, given, -, passes⟩ := ledger.finishes turn index summary there
        obtain ⟨values, made, sound⟩ := Sequential.exists_ofValues_of_passBatch builtin
          (raw batch (List.mem_of_getElem? given)).areSound passes
        exact ⟨values, made, fun value present => (sound value present).congr (by simp)⟩
      obtain ⟨groups, summaries, sound⟩ := Summary.exists_groups each
      refine ⟨groups, ⟨summaries, ?_⟩, sound⟩
      rw [← summaries]
      exact congrArg Tally.finish ledger.tally

namespace Coordinator

/-- Under every schedule a report of built-in stages on raw records comes back from a text
layer as the layer echoes it if its total sum is finite, and cannot be read back if the sum has
overflowed.  It is echoed as it was if and only if each of its floats is.  With a filter among
the stages the sum never overflows. -/
theorem reports_read_back
    {stages : List Stage}
    {settings : Settings}
    {runId : RunId}
    {coordinator : Coordinator}
    {clocks : Clocks}
    {observer? : Option Observer}
    {batches : List Batch}
    {answer : RunAnswer}
    {report : Report}
    {layer : TextLayer}
    (lawful : layer.Lawful)
    (created : create stages settings runId = .ok coordinator)
    (builtin : ∀ stage ∈ stages, stage.kind.isBuiltin = true)
    (raw : ∀ batch ∈ batches, batch.IsRaw)
    (answers : coordinator.Answers clocks observer? batches answer)
    (reported : answer.result = .report report)
    (fits : report.Fits) :
    (layer.transmit? report.toJson).bind Report.ofJson? =
        (if report.totals.sum.isFinite then report.echoed? layer else none) ∧
      (report.echoed? layer = some report ↔
        ∀ value ∈ report.floats, value.isFinite = true → layer.echo? value = some value) ∧
      ((∃ stage ∈ stages, stage.kind = .filter) → report.totals.sum.isFinite = true) := by
  obtain ⟨reached, finished, ordinal, job?, standing, rfl⟩ :=
    answers.exists_completed created reported
  obtain ⟨groups, summarises, sound⟩ :=
    standing.exists_summarises builtin raw coordinator.runId
  refine ⟨?_, Report.echoed?_eq_self_iff, fun filtered => ?_⟩
  · exact summarises.ofJson?_transmit? lawful
      (fun group among value present => (sound group among value present).1) fits
  · rw [summarises.totals]
    exact Totals.isFinite_sum_of_withinFilterBounds fun group among value present =>
      (sound group among value present).2 filtered

/-- A filter keeps one of two records of the first batch, and nothing of the second one. -/
theorem reports_read_back_filtered :
    ∃ coordinator answer report,
      create [.parse, .filter, .aggregate] Settings.standard default = .ok coordinator ∧
      coordinator.run? .still none
        [⟨0, [.raw 0 "30", .raw 1 "1e308"]⟩, ⟨1, [.raw 2 "1e308"]⟩] = some answer ∧
      answer.result = .report report ∧ report.Fits ∧
      report.summaries = [Summary.ofValues [30], Summary.empty] ∧
      (TextLayer.exact.transmit? report.toJson).bind Report.ofJson? = some report := by
  obtain ⟨coordinator, answer, created, ran, outcome⟩ :=
    exists_answer [.parse, .filter, .aggregate] Settings.standard
      (·.run? .still none [⟨0, [.raw 0 "30", .raw 1 "1e308"]⟩, ⟨1, [.raw 2 "1e308"]⟩])
      (·.result.report?.map fun report : Report => (decide report.Fits, report.summaries))
      (some (true, [Summary.ofValues [30], Summary.empty])) (by decide +kernel)
  obtain ⟨report, found, outcome⟩ := Option.map_eq_some_iff.mp outcome
  obtain ⟨fits, summaries⟩ := Prod.mk.inj outcome
  have fits := of_decide_eq_true fits
  have reported := RunResult.eq_of_report? found
  have raw : ∀ batch ∈ ([⟨0, [.raw 0 "30", .raw 1 "1e308"]⟩, ⟨1, [.raw 2 "1e308"]⟩] :
      List Batch), batch.IsRaw := by
    simp [Batch.IsRaw]
  obtain ⟨read, echoes, filtered⟩ :=
    reports_read_back TextLayer.exact_lawful created (by decide) raw (Answers.of_run? ran)
      reported fits
  refine ⟨coordinator, answer, report, created, ran, reported, fits, summaries, ?_⟩
  rw [read, if_pos (filtered ⟨.filter, by simp, rfl⟩)]
  exact echoes.mpr fun value _ finite => if_pos finite

/-- Two numbers that are finite, and a sum that is not: the report cannot be read back, whatever
the text layer. -/
theorem overflow_not_read_back :
    ∃ coordinator answer report,
      create [.parse, .aggregate] Settings.standard default = .ok coordinator ∧
      coordinator.run? .still none [⟨0, [.raw 0 "1e308", .raw 1 "1e308"]⟩] = some answer ∧
      answer.result = .report report ∧ report.Fits ∧
      ∀ layer : TextLayer, layer.Lawful →
        (layer.transmit? report.toJson).bind Report.ofJson? = none := by
  obtain ⟨coordinator, answer, created, ran, outcome⟩ :=
    exists_answer [.parse, .aggregate] Settings.standard
      (·.run? .still none [⟨0, [.raw 0 "1e308", .raw 1 "1e308"]⟩])
      (·.result.report?.map fun report : Report => (decide report.Fits, report.isReadable))
      (some (true, false)) (by decide +kernel)
  obtain ⟨report, found, outcome⟩ := Option.map_eq_some_iff.mp outcome
  obtain ⟨fits, unreadable⟩ := Prod.mk.inj outcome
  have fits := of_decide_eq_true fits
  exact ⟨coordinator, answer, report, created, ran, RunResult.eq_of_report? found, fits,
    fun layer lawful => Report.ofJson?_transmit?_eq_none lawful fits unreadable⟩

end Coordinator
end StagePipeline
