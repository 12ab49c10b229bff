import StagePipeline.Proofs.Chunks
import StagePipeline.Proofs.Pipeline

/-!
# The size of batches

Raw values are cut into batches, and every batch is summarised on its own.  What a run
says of all values together does not depend on where they were cut: the count and the
bounds of the numbers that survive the filter, or the first text that is not a number.
Only the number of batches and the index of the faulty one tell the size.
-/

namespace StagePipeline

open Binary64

/-! ## Runs without an expired deadline -/

/-- The answers that calls of `run` may have if no deadline passes. -/
def Coordinator.TimelyAnswers
    (coordinator : Coordinator)
    (clocks : Clocks)
    (observer? : Option Observer)
    (batches : List Batch)
    (answer : RunAnswer) :
    Prop :=
  if coordinator.state ≠ .idle then
    answer = ⟨coordinator, .fault coordinator.alreadyStarted, []⟩
  else
    match Run.start? coordinator.stages coordinator.settings clocks observer? batches with
    | none => answer = ⟨coordinator, .panic, []⟩
    | some started =>
        ∃ schedule events ended ending,
          started.execute? schedule = some (ended, events) ∧
            .client .expire ∉ schedule ∧
            ended.ending? = some ending ∧ answer = coordinator.answer ended ending

theorem Coordinator.TimelyAnswers.matchesReference
    {stages : List Stage}
    {settings : Settings}
    {runId : RunId}
    {coordinator : Coordinator}
    {clocks : Clocks}
    {observer? : Option Observer}
    {batches : List Batch}
    {answer : RunAnswer}
    (answers : coordinator.TimelyAnswers clocks observer? batches answer)
    (created : create stages settings runId = .ok coordinator)
    (nameable : ∀ stage ∈ stages,
      Worker.acceptsThreadName (settings.threadName stage.name) = true)
    (calm : ∀ observer ∈ observer?, ∀ told, observer.panics told = false) :
    MatchesReference clocks stages batches answer.result := by
  obtain ⟨inRange, nonempty, rfl⟩ := create_eq_ok created
  obtain ⟨started, start_eq⟩ := Run.start?_isSome inRange nameable clocks observer? batches
  simp only [TimelyAnswers, ne_eq, not_true_eq_false, if_false, start_eq] at answers
  obtain ⟨schedule, events, reached, ending, executed, timely, ended, rfl⟩ := answers
  exact matchesReference_of_ended _ nonempty start_eq executed (Or.inr timely) calm ended

namespace Pipeline

/-- What a run of raw values may come to if no deadline passes. -/
def TimelyResult
    (surroundings : Surroundings)
    (stages : List Stage)
    (values : List String)
    (settings : Settings)
    (result : RunResult) :
    Prop :=
  match settings.validate with
  | .error fault => result = .fault fault
  | .ok () =>
      match Batch.chunks? settings.batchSize values with
      | none => result = .panic
      | some batches =>
          match Coordinator.create stages settings surroundings.runId with
          | .error fault => result = .fault fault
          | .ok coordinator =>
              ∃ answer, coordinator.TimelyAnswers surroundings.clocks none batches answer ∧
                result = answer.result

/-! ## What a single run comes to -/

/-- The numbers of some values that survive the filter. -/
def survivors (values : List String) : List Float :=
  (Batch.ofRaw 0 0 values).survivors

/-- Threads for the built-in stages can bear their names. -/
def Nameable (settings : Settings) : Prop :=
  ∀ stage ∈ Stage.builtin, Worker.acceptsThreadName (settings.threadName stage.name) = true

instance (settings : Settings) : Decidable (Nameable settings) :=
  inferInstanceAs (Decidable (∀ stage ∈ Stage.builtin,
    Worker.acceptsThreadName (settings.threadName stage.name) = true))

/-- What a report says of the numbers that survive, wherever the values were cut. -/
structure Reports (values : List String) (size : Nat) (report : Report) : Prop where
  count : report.totals.count = (survivors values).length
  least : report.totals.least = Tally.foremost lesser (survivors values)
  greatest : report.totals.greatest = Tally.foremost greater (survivors values)
  batchCount : report.totals.batchCount = (values.length + (size - 1)) / size
  counts : (report.summaries.map Summary.count).sum = (survivors values).length

/-- The fault of the first text that is not a number. -/
structure FirstFault
    (values before : List String)
    (text : String)
    (fault : NumberFault) :
    Prop where
  split : ∃ after, values = before ++ text :: after
  legible : Legible before
  unread : parseValue text = .error fault

/-- The result of the built-in stages over some values. -/
inductive Verdict (values : List String) (settings : Settings) : RunResult → Prop where
  | reported {report : Report} :
      Legible values → Reports values settings.batchSize report →
      Verdict values settings (.report report)
  | failed {before : List String} {text : String} {fault : NumberFault} :
      FirstFault values before text fault →
      Verdict values settings
        (.fault (.parseFailed "parse" (before.length / settings.batchSize) before.length text
          fault.reason))

/-- The numbers that survive are the same wherever the values are cut. -/
theorem flatMap_survivors_chunks (size : Nat) (values : List String) :
    (Batch.chunks size values).flatMap Batch.survivors = survivors values := by
  rw [survivors, Batch.survivors, Batch.readings, Batch.ofRaw, ← Batch.chunks_records size,
    List.filterMap_flatMap, List.filter_flatMap]
  rfl

section Verdicts

variable
  {values : List String}
  {settings : Settings}
  {clocks : Clocks}
  {result : RunResult}

theorem reports_of_summaries
    {size : Nat}
    {report : Report}
    (positive : 0 < size)
    (summaries : report.summaries =
      (Batch.chunks size values).map fun batch => Summary.ofValues batch.survivors)
    (totals : report.totals = Totals.combine report.summaries) :
    Reports values size report := by
  have finite := groups_finite (Batch.chunks size values)
  have groups : report.summaries =
      ((Batch.chunks size values).map Batch.survivors).map Summary.ofValues := by
    rw [summaries, List.map_map]
    rfl
  have flat : ((Batch.chunks size values).map Batch.survivors).flatten = survivors values := by
    rw [← List.flatMap_def, flatMap_survivors_chunks]
  have counts := Tally.ofList_counts finite
  have bounds := Tally.ofList_bounds finite
  rw [← groups, flat] at counts bounds
  refine ⟨?_, ?_, ?_, ?_, ?_⟩
  · rw [totals]
    exact counts.count
  · rw [totals]
    exact bounds.least
  · rw [totals]
    exact bounds.greatest
  · rw [totals, ← Batch.chunks_length positive, ← List.length_map Batch.survivors]
    exact counts.batchCount
  · rw [groups, List.map_map, ← flat, List.length_flatten]
    rfl

/-- The first batch that cannot be read holds the first text that is not a number. -/
theorem firstFault_of_chunks
    {size id : Nat}
    {front back : List Batch}
    {batch : Batch}
    {before after : List Record}
    {text : String}
    {fault : NumberFault}
    (positive : 0 < size)
    (split : Batch.chunks size values = front ++ batch :: back)
    (frontReadable : ∀ earlier ∈ front, Readable earlier.records)
    (record : batch.records = before ++ .raw id text :: after)
    (readable : Readable before)
    (unread : parseValue text = .error fault) :
    ∃ earlier, FirstFault values earlier text fault ∧ id = earlier.length ∧
      batch.index = earlier.length / size := by
  have whole : Batch.rawRecords 0 values =
      (front.flatMap Batch.records ++ before) ++
        .raw id text :: (after ++ back.flatMap Batch.records) := by
    rw [← Batch.chunks_records size, split, List.flatMap_append, List.flatMap_cons, record]
    simp only [List.append_assoc, List.cons_append]
  obtain ⟨earlier, later, rfl, ahead, position⟩ := Batch.rawRecords_split whole
  have allReadable : Readable (Batch.rawRecords 0 earlier) := by
    rw [← ahead]
    intro id text present
    rcases List.mem_append.mp present with present | present
    · obtain ⟨chunk, among, present⟩ := List.mem_flatMap.mp present
      exact frontReadable chunk among id text present
    · exact readable id text present
  refine ⟨earlier, ⟨⟨later, rfl⟩, Batch.legible_of_readable allReadable, unread⟩, ?_, ?_⟩
  · rw [position, Nat.zero_add]
  · rw [Batch.chunks_index positive split record, ahead, Batch.rawRecords_length]

/-- A run of the built-in stages that matches the reference has its verdict. -/
theorem verdict_of_matchesReference
    (positive : 0 < settings.batchSize)
    (matching : Coordinator.MatchesReference clocks Stage.builtin
      (Batch.chunks settings.batchSize values) result) :
    Verdict values settings result := by
  have raw : ∀ batch ∈ Batch.chunks settings.batchSize values, batch.IsRaw :=
    fun batch present => Batch.chunks_isRaw present
  by_cases readable : ∀ batch ∈ Batch.chunks settings.batchSize values,
      Readable batch.records
  · obtain ⟨report, rfl, summaries, totals⟩ :=
      matching.reports_of_readable .builtin raw readable
    have allReadable : Readable (Batch.rawRecords 0 values) := by
      rw [← Batch.chunks_records settings.batchSize]
      intro id text present
      obtain ⟨batch, among, present⟩ := List.mem_flatMap.mp present
      exact readable batch among id text present
    exact .reported (Batch.legible_of_readable allReadable)
      (reports_of_summaries positive summaries totals)
  · have matched := matchesBuiltin_of_matchesReference matching raw
    obtain ⟨front, batch, back, before, id, text, after, fault, split, frontReadable, record,
        beforeReadable, unread, rfl⟩ :=
      matched.faulty fun report same => readable (matched.succeeds_iff.mp ⟨report, same⟩)
    obtain ⟨earlier, first, rfl, place⟩ :=
      firstFault_of_chunks positive split frontReadable record beforeReadable unread
    rw [place]
    exact .failed first

theorem batchSize_positive (inRange : settings.InRange) : 0 < settings.batchSize :=
  (inRange .batchSize _ rfl).1

/-- A batch of the largest size can be addressed. -/
theorem chunks?_of_inRange
    (inRange : settings.InRange)
    (values : List String) :
    Batch.chunks? settings.batchSize values =
      some (Batch.chunks settings.batchSize values) := by
  have few : settings.batchSize ≤ 1000000 := (inRange .batchSize _ rfl).2
  have fits : Word.fitsBuffer (max settings.batchSize 1) Batch.recordBytes = true := by
    have room : Word.addressableBytes = 9223372036854775807 := by decide
    rw [Word.fitsBuffer, decide_eq_true_eq, room, Batch.recordBytes]
    omega
  rw [Batch.chunks?, if_pos fits]

theorem create_builtin
    (valid : settings.validate = .ok ())
    (runId : RunId) :
    Coordinator.create Stage.builtin settings runId =
      .ok ⟨settings, Stage.builtin, .idle, runId⟩ := by
  rw [Coordinator.create, valid]
  rfl

/-- The built-in stages come to a result, and whatever the order of their steps, the result
is that of the verdict unless a deadline passes. -/
theorem runValues_verdict
    (surroundings : Surroundings)
    (values : List String)
    (valid : settings.validate = .ok ())
    (nameable : Nameable settings) :
    (∃ result, runValues surroundings Stage.builtin values settings = some result ∧
      Verdict values settings result) ∧
    ∀ result, TimelyResult surroundings Stage.builtin values settings result →
      Verdict values settings result := by
  have inRange := Settings.inRange_of_validate valid
  have positive := batchSize_positive inRange
  have cut := chunks?_of_inRange inRange values
  have created := create_builtin valid surroundings.runId
  simp only [runValues, TimelyResult, valid, cut, run, runObserved, created]
  constructor
  · obtain ⟨answer, ran, matching⟩ :=
      Coordinator.run?_matchesReference surroundings.clocks
        (Batch.chunks settings.batchSize values) created nameable Stage.holds_builtin
        Observer.calm_none
    refine ⟨answer.result, ?_, verdict_of_matchesReference positive matching⟩
    rw [ran]
    rfl
  · rintro result ⟨answer, answers, rfl⟩
    have matching := answers.matchesReference created nameable Observer.calm_none
    exact verdict_of_matchesReference positive matching

end Verdicts

/-! ## Two runs -/

/-- Two results for the same values, cut into batches of the size of the settings and of
another size. -/
inductive Agree (values : List String) (settings : Settings) (other : Nat) :
    RunResult → RunResult → Prop where
  | reports {left right : Report} :
      left.totals.count = right.totals.count →
      left.totals.least = right.totals.least →
      left.totals.greatest = right.totals.greatest →
      (left.summaries.map Summary.count).sum = (right.summaries.map Summary.count).sum →
      left.totals.batchCount = (values.length + (settings.batchSize - 1)) / settings.batchSize →
      right.totals.batchCount = (values.length + (other - 1)) / other →
      Agree values settings other (.report left) (.report right)
  /-- Both results name the first text that is not a number. -/
  | faults {before : List String} {text : String} {fault : NumberFault} :
      FirstFault values before text fault →
      Agree values settings other
        (.fault (.parseFailed "parse" (before.length / settings.batchSize) before.length text
          fault.reason))
        (.fault (.parseFailed "parse" (before.length / other) before.length text fault.reason))

section FirstFault

variable
  {values before others : List String}
  {text other : String}
  {fault otherFault : NumberFault}

/-- A text that is not a number is not among numbers. -/
theorem FirstFault.not_mem
    (first : FirstFault values before text fault)
    (legible : Legible others) :
    text ∉ others := by
  intro among
  obtain ⟨value, read⟩ := legible text among
  cases first.unread.symm.trans read

theorem FirstFault.not_legible (first : FirstFault values before text fault) :
    ¬Legible values := by
  obtain ⟨after, rfl⟩ := first.split
  exact fun legible =>
    first.not_mem legible (List.mem_append_right before List.mem_cons_self)

/-- No text in front of a first fault is a first fault. -/
theorem FirstFault.prefix_eq
    {between after rest : List String}
    (first : FirstFault values before text fault)
    (legible : Legible (before ++ between))
    (same : text :: after = between ++ other :: rest) :
    between = [] := by
  cases between with
  | nil => rfl
  | cons head tail =>
      obtain ⟨rfl, -⟩ := List.cons.inj same
      exact absurd (List.mem_append_right before List.mem_cons_self) (first.not_mem legible)

/-- There is only one first fault. -/
theorem FirstFault.unique
    (first : FirstFault values before text fault)
    (second : FirstFault values others other otherFault) :
    before = others ∧ text = other ∧ fault = otherFault := by
  obtain ⟨after, split⟩ := first.split
  obtain ⟨rest, otherSplit⟩ := second.split
  have places : before = others ∧ text = other := by
    rcases List.append_eq_append_iff.mp (split.symm.trans otherSplit) with
      ⟨between, rfl, same⟩ | ⟨between, rfl, same⟩
    · cases first.prefix_eq second.legible same
      exact ⟨(List.append_nil before).symm, (List.cons.inj same).1⟩
    · cases second.prefix_eq first.legible same
      exact ⟨List.append_nil others, (List.cons.inj same).1.symm⟩
  obtain ⟨rfl, rfl⟩ := places
  exact ⟨rfl, rfl, Except.error.inj (first.unread.symm.trans second.unread)⟩

end FirstFault

/-- Two verdicts over the same values agree. -/
theorem Verdict.agree
    {values : List String}
    {settings : Settings}
    {other : Nat}
    {left right : RunResult}
    (verdict : Verdict values settings left)
    (otherVerdict : Verdict values { settings with batchSize := other } right) :
    Agree values settings other left right := by
  cases verdict with
  | reported legible reports =>
      cases otherVerdict with
      | reported _ otherReports =>
          exact .reports (reports.count.trans otherReports.count.symm)
            (reports.least.trans otherReports.least.symm)
            (reports.greatest.trans otherReports.greatest.symm)
            (reports.counts.trans otherReports.counts.symm)
            reports.batchCount otherReports.batchCount
      | failed first => exact absurd legible first.not_legible
  | failed first =>
      cases otherVerdict with
      | reported legible => exact absurd legible first.not_legible
      | failed second =>
          obtain ⟨rfl, rfl, rfl⟩ := first.unique second
          exact .faults first

/-- Whatever the size of the batches, the built-in stages come to a result if their threads can
bear their names, and unless a deadline passes, two runs over the same values agree: both
report the same count and the same bounds of the numbers that survive, or both name the same
first text that is not a number.  Each tells the size of its own batches. -/
theorem batch_size_immaterial
    (here there : Surroundings)
    (values : List String)
    (settings : Settings)
    (other : Nat)
    (valid : settings.validate = .ok ())
    (otherValid : { settings with batchSize := other }.validate = .ok ())
    (nameable : Nameable settings) :
    (∃ left right,
      runValues here Stage.builtin values settings = some left ∧
      runValues there Stage.builtin values { settings with batchSize := other } = some right ∧
      Agree values settings other left right) ∧
    ∀ left right,
      TimelyResult here Stage.builtin values settings left →
      TimelyResult there Stage.builtin values { settings with batchSize := other } right →
      Agree values settings other left right := by
  obtain ⟨⟨left, ran, verdict⟩, verdicts⟩ := runValues_verdict here values valid nameable
  obtain ⟨⟨right, otherRan, otherVerdict⟩, otherVerdicts⟩ :=
    runValues_verdict there values otherValid nameable
  refine ⟨⟨left, right, ran, otherRan, verdict.agree otherVerdict⟩, ?_⟩
  intro left right timely otherTimely
  exact (verdicts left timely).agree (otherVerdicts right otherTimely)

/-- Three values, of which one does not survive, in one batch and in two. -/
theorem batch_size_immaterial_two :
    ∃ left right,
      runValues ⟨default, ⟨fun _ _ => default, fun _ _ => default, default⟩⟩ Stage.builtin
        ["50", "75", "30"] Settings.testing = some (.report left) ∧
      runValues ⟨default, ⟨fun _ _ => default, fun _ _ => default, default⟩⟩ Stage.builtin
        ["50", "75", "30"] { Settings.testing with batchSize := 2 } = some (.report right) ∧
      left.totals.count = right.totals.count ∧ left.totals.least = right.totals.least ∧
      left.totals.batchCount = 1 ∧ right.totals.batchCount = 2 := by
  have valid : Settings.testing.validate = .ok () := by decide
  have otherValid : { Settings.testing with batchSize := 2 }.validate = .ok () := by decide
  have nameable : Nameable Settings.testing := by decide
  have legible : Legible ["50", "75", "30"] := by
    have fifty : parseValue "50" = .ok 50 := by rfl
    have seventyFive : parseValue "75" = .ok 75 := by rfl
    have thirty : parseValue "30" = .ok 30 := by rfl
    simp [Legible, fifty, seventyFive, thirty]
  obtain ⟨⟨left, right, ran, otherRan, agree⟩, -⟩ :=
    batch_size_immaterial ⟨default, ⟨fun _ _ => default, fun _ _ => default, default⟩⟩
      ⟨default, ⟨fun _ _ => default, fun _ _ => default, default⟩⟩ ["50", "75", "30"]
      Settings.testing 2 valid otherValid nameable
  cases agree with
  | reports count least greatest counts batchCount otherCount =>
      exact ⟨_, _, ran, otherRan, count, least, batchCount, otherCount⟩
  | faults first => exact absurd legible first.not_legible

/-- Settings under which no thread can bear its name. -/
def severedSettings : Settings :=
  { Settings.standard with threadNamePrefix := "a\x00b" }

/-- The settings are accepted, and there is no value that is not a number, but the run panics
whatever the size of its batches. -/
theorem severed_values_panic :
    severedSettings.validate = .ok () ∧
      { severedSettings with batchSize := 2 }.validate = .ok () ∧ Legible [] ∧
      runValues ⟨default, .still⟩ Stage.builtin [] severedSettings = some .panic ∧
      runValues ⟨default, .still⟩ Stage.builtin [] { severedSettings with batchSize := 2 } =
        some .panic :=
  ⟨by decide, by decide, nofun, by decide +kernel, by decide +kernel⟩

end Pipeline
end StagePipeline
