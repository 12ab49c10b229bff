import StagePipeline.Pipeline
import StagePipeline.Proofs.Arrangement

/-!
# The built-in pipeline

Batches of raw records, the four built-in stages and the standard settings.  A run of
these comes to the summaries of the numbers that survive the filter, or to the fault of
the first raw text that is not a number.
-/

namespace StagePipeline

open Binary64

/-! ## A whole run -/

namespace Pipeline

variable {batches : List Batch}

/-- What a report says of the numbers in some batches that survive the filter. -/
structure Summarises (report : Report) (batches : List Batch) : Prop where
  summaries :
    report.summaries = batches.map fun batch => Summary.ofValues batch.survivors
  empty : ∀ (turn : Nat) (batch : Batch), batches[turn]? = some batch →
    batch.survivors = [] → report.summaries[turn]? = some Summary.empty
  count : report.totals.count = (batches.flatMap Batch.survivors).length
  batchCount : report.totals.batchCount = batches.length
  unbounded : batches.flatMap Batch.survivors = [] →
    report.totals.least = none ∧ report.totals.greatest = none
  bounded : batches.flatMap Batch.survivors ≠ [] →
    ∃ least greatest,
      report.totals.least = some least ∧ report.totals.greatest = some greatest ∧
        First (· ≤ ·) (batches.flatMap Batch.survivors) least ∧
        First (· ≥ ·) (batches.flatMap Batch.survivors) greatest ∧
        25 < least ∧ least < 75 ∧ 25 < greatest ∧ greatest < 75

theorem groups_finite (batches : List Batch) :
    ∀ group ∈ batches.map Batch.survivors, ∀ value ∈ group, IsFinite value := by
  intro group present value among
  obtain ⟨batch, -, rfl⟩ := List.mem_map.mp present
  exact Batch.survivors_finite among

/-- A report of the summaries of all batches summarises what survives. -/
theorem summarises_of_report
    {report : Report}
    (summaries : report.summaries = batches.map fun batch => Summary.ofValues batch.survivors)
    (totals : report.totals = Totals.combine report.summaries) :
    Summarises report batches := by
  have groups : report.summaries = (batches.map Batch.survivors).map Summary.ofValues := by
    rw [summaries, List.map_map]
    rfl
  have within : ∀ value ∈ batches.flatMap Batch.survivors, 25 < value ∧ value < 75 := by
    intro value present
    obtain ⟨batch, -, among⟩ := List.mem_flatMap.mp present
    exact Batch.mem_survivors among
  have counts := Tally.ofList_counts (groups_finite batches)
  rw [List.length_map, ← List.flatMap_def, ← groups] at counts
  refine ⟨summaries, ?_, ?_, ?_, ?_, ?_⟩
  · intro turn batch there nothing
    rw [summaries, List.getElem?_map, there, Option.map_some, nothing]
    rfl
  · rw [totals]
    exact counts.count
  · rw [totals]
    exact counts.batchCount
  · intro nothing
    rw [totals]
    exact ⟨counts.least.eq_none nothing, counts.greatest.eq_none nothing⟩
  · intro something
    obtain ⟨least, least_eq, leastFirst⟩ := counts.least.exists_first something
    obtain ⟨greatest, greatest_eq, greatestFirst⟩ := counts.greatest.exists_first something
    obtain ⟨leastAbove, leastBelow⟩ := within least leastFirst.among
    obtain ⟨greatestAbove, greatestBelow⟩ := within greatest greatestFirst.among
    rw [totals]
    exact ⟨least, greatest, least_eq, greatest_eq, leastFirst, greatestFirst, leastAbove,
      leastBelow, greatestAbove, greatestBelow⟩

/-- What a run of the built-in stages over batches of raw records comes to. -/
structure MatchesBuiltin (batches : List Batch) (result : RunResult) : Prop where
  succeeds_iff :
    (∃ report, result = .report report) ↔ ∀ batch ∈ batches, Readable batch.records
  reported : ∀ report, result = .report report → Summarises report batches
  faulty : (∀ report, result ≠ .report report) →
    ∃ front batch back before id text after fault,
      batches = front ++ batch :: back ∧
        (∀ earlier ∈ front, Readable earlier.records) ∧
        batch.records = before ++ .raw id text :: after ∧
        Readable before ∧ parseValue text = .error fault ∧
        result = .fault (.parseFailed "parse" batch.index id text fault.reason)

theorem matchesBuiltin_of_readable
    {clocks : Clocks}
    {result : RunResult}
    (matching : Coordinator.MatchesReference clocks Stage.builtin batches result)
    (raw : ∀ batch ∈ batches, batch.IsRaw)
    (readable : ∀ batch ∈ batches, Readable batch.records) :
    MatchesBuiltin batches result := by
  obtain ⟨report, rfl, summaries, totals⟩ :=
    matching.reports_of_readable .builtin raw readable
  refine ⟨⟨fun _ => readable, fun _ => ⟨report, rfl⟩⟩, ?_, ?_⟩
  · intro other same
    cases same
    exact summarises_of_report summaries totals
  · intro unreported
    exact absurd rfl (unreported report)

/-- If a batch cannot be read, the reference fails at the first one of these. -/
theorem matchesBuiltin_of_unreadable
    {clocks : Clocks}
    {result : RunResult}
    {front back : List Batch}
    {batch : Batch}
    (matching :
      Coordinator.MatchesReference clocks Stage.builtin (front ++ batch :: back) result)
    (raw : ∀ other ∈ front ++ batch :: back, other.IsRaw)
    (readable : ∀ earlier ∈ front, Readable earlier.records)
    (unreadable : ¬Readable batch.records) :
    MatchesBuiltin (front ++ batch :: back) result := by
  have batchRaw : batch.IsRaw := raw batch (List.mem_append_right _ List.mem_cons_self)
  obtain ⟨before, id, text, after, fault, split, beforeReadable, unread⟩ :=
    first_unreadable batchRaw unreadable
  obtain rfl := matching.fault_of_unreadable .builtin raw readable split beforeReadable unread
  refine ⟨⟨?_, ?_⟩, ?_, ?_⟩
  · rintro ⟨report, same⟩
    cases same
  · intro all
    exact absurd (all batch (List.mem_append_right _ List.mem_cons_self)) unreadable
  · intro report same
    cases same
  · intro _
    exact ⟨front, batch, back, before, id, text, after, fault, rfl, readable, split,
      beforeReadable, unread, rfl⟩

theorem matchesBuiltin_of_matchesReference
    {clocks : Clocks}
    {result : RunResult}
    (matching : Coordinator.MatchesReference clocks Stage.builtin batches result)
    (raw : ∀ batch ∈ batches, batch.IsRaw) :
    MatchesBuiltin batches result := by
  rcases forall_or_first (fun batch => Readable batch.records) batches with
    readable | ⟨front, batch, back, rfl, readable, unreadable⟩
  · exact matchesBuiltin_of_readable matching raw readable
  · exact matchesBuiltin_of_unreadable matching raw readable unreadable

/-- For all batches of raw records, the built-in stages under the standard settings come
to a result, and whatever the order of their steps, they succeed exactly if every text is
a number, then summarise what survives the filter, and otherwise name the first text that
is not a number. -/
theorem runStandard_builtin
    (surroundings : Surroundings)
    (batches : List Batch)
    (raw : ∀ batch ∈ batches, batch.IsRaw) :
    (∃ result, runStandard surroundings Stage.builtin batches = some result ∧
      MatchesBuiltin batches result) ∧
    ∃ coordinator,
      Coordinator.create Stage.builtin Settings.standard surroundings.runId =
        .ok coordinator ∧
      ∀ answer, coordinator.Answers surroundings.clocks none batches answer →
        MatchesBuiltin batches answer.result := by
  have created : Coordinator.create Stage.builtin Settings.standard surroundings.runId =
      .ok ⟨Settings.standard, Stage.builtin, .idle, surroundings.runId⟩ := rfl
  have nameable : ∀ stage ∈ Stage.builtin,
      Worker.acceptsThreadName (Settings.standard.threadName stage.name) = true := by decide
  have builtin : ∀ stage ∈ Stage.builtin, stage.kind.isBuiltin = true := by decide
  have free : ∀ stage ∈ Stage.builtin, ∀ batch, stage.holds batch = false := by
    intro stage present batch
    exact Stage.holds_of_isBuiltin (builtin stage present) batch
  have calm : ∀ observer ∈ (none : Option Observer), ∀ told,
      observer.panics told = false := by
    intro observer present
    cases present
  constructor
  · obtain ⟨answer, ran, matching⟩ := Coordinator.run?_matchesReference surroundings.clocks
      batches created nameable free calm
    refine ⟨answer.result, ?_, matchesBuiltin_of_matchesReference matching raw⟩
    rw [runStandard, run, runObserved, created]
    simp only [ran, Option.map_some]
  · refine ⟨_, created, ?_⟩
    intro answer answers
    have matching := answers.matchesReference created nameable rfl calm
    exact matchesBuiltin_of_matchesReference matching raw

/-- Of two numbers in the first batch one is a bound and does not survive, and there is
none in the second batch. -/
theorem runStandard_builtin_boundary :
    ∃ report,
      runStandard ⟨default, ⟨fun _ _ => default, fun _ _ => default, default⟩⟩ Stage.builtin
        [⟨7, [.raw 0 " 50 ", .raw 1 "75"]⟩, ⟨7, []⟩] = some (.report report) ∧
      report.summaries = [Summary.ofValues [50], Summary.empty] ∧
      report.totals.count = 1 ∧ report.totals.batchCount = 2 := by
  have raw : ∀ batch ∈ [(⟨7, [.raw 0 " 50 ", .raw 1 "75"]⟩ : Batch), ⟨7, []⟩],
      batch.IsRaw := by
    simp [Batch.IsRaw]
  obtain ⟨⟨result, ran, matching⟩, -⟩ := runStandard_builtin
    ⟨default, ⟨fun _ _ => default, fun _ _ => default, default⟩⟩ _ raw
  have readable : ∀ batch ∈ [(⟨7, [.raw 0 " 50 ", .raw 1 "75"]⟩ : Batch), ⟨7, []⟩],
      Readable batch.records := by
    have fifty : parseValue " 50 " = .ok 50 := by rfl
    have seventyFive : parseValue "75" = .ok 75 := by rfl
    simp [Readable, or_imp, forall_and, fifty, seventyFive]
  obtain ⟨report, rfl⟩ := matching.succeeds_iff.mpr readable
  have summarises := matching.reported report rfl
  have first : Batch.survivors ⟨7, [.raw 0 " 50 ", .raw 1 "75"]⟩ = [50] := by decide +kernel
  refine ⟨report, ran, ?_, ?_, summarises.batchCount⟩
  · rw [summarises.summaries, List.map_cons, first]
    rfl
  · rw [summarises.count, List.flatMap_cons, first]
    rfl

end Pipeline
end StagePipeline
