import StagePipeline.Coordinator
import StagePipeline.Proofs.Run.Counted
import StagePipeline.Proofs.Run.Progress
import StagePipeline.Proofs.Run.Refinement
import StagePipeline.Proofs.Settings.Bounds

/-!
# Coordinators and their reference

A coordinator that has been created can start its workers, and whatever the order of
their steps it comes to the result of the reference, as long as no counter overflows.
-/

namespace StagePipeline

/-! ## Observers that return -/

/-- Clocks that stand still. -/
def Clocks.still : Clocks :=
  ⟨fun _ _ => default, fun _ _ => default, default⟩

namespace Observer

theorem calm_none : ∀ observer ∈ (none : Option Observer), ∀ told,
    observer.panics told = false := by
  intro observer present
  cases present

theorem calm_silent : ∀ observer ∈ some silent, ∀ told, observer.panics told = false := by
  intro observer present told
  cases present
  rfl

end Observer

/-! ## Workers that start -/

namespace Worker

/-- The mailbox of a worker can be addressed if the settings are in range. -/
theorem fitsBuffer_of_inRange
    {settings : Settings}
    (inRange : settings.InRange) :
    Word.fitsBuffer settings.mailboxCapacity commandBytes = true := by
  have few : settings.mailboxCapacity ≤ 1024 := (inRange .mailboxCapacity _ rfl).2
  have room : Word.addressableBytes = 9223372036854775807 := by decide
  rw [Word.fitsBuffer, decide_eq_true_eq, room, commandBytes]
  omega

/-- A worker starts if the settings are in range and its thread can bear its name. -/
theorem spawn?_eq_some
    {stage : Stage}
    {ordinal : Nat}
    {settings : Settings}
    {clock : UInt64 → Timestamp}
    (inRange : settings.InRange)
    (named : acceptsThreadName (settings.threadName stage.name) = true) :
    spawn? stage ordinal settings clock = some (ofStage stage ordinal settings clock) := by
  rw [spawn?, fitsBuffer_of_inRange inRange, named]
  rfl

end Worker

namespace Run

theorem spawnFrom?_crew
    {settings : Settings}
    {stages : List Stage}
    (inRange : settings.InRange)
    (nameable : ∀ stage ∈ stages,
      Worker.acceptsThreadName (settings.threadName stage.name) = true)
    (clocks : Clocks)
    (ordinal : Nat) :
    spawnFrom? settings clocks ordinal stages =
      some (crew settings clocks 0 ordinal stages) := by
  induction stages generalizing ordinal with
  | nil => rfl
  | cons stage rest inductionHypothesis =>
      obtain ⟨named, othersNamed⟩ := List.forall_mem_cons.mp nameable
      rw [spawnFrom?, Worker.spawn?_eq_some inRange named,
        inductionHypothesis othersNamed (ordinal + 1)]
      rfl

theorem start?_isSome
    {settings : Settings}
    {stages : List Stage}
    (inRange : settings.InRange)
    (nameable : ∀ stage ∈ stages,
      Worker.acceptsThreadName (settings.threadName stage.name) = true)
    (clocks : Clocks)
    (observer? : Option Observer)
    (batches : List Batch) :
    ∃ started, start? stages settings clocks observer? batches = some started := by
  rw [start?, spawnFrom?_crew inRange nameable]
  exact ⟨_, rfl⟩

/-- No run starts if one of its threads cannot bear its name. -/
theorem start?_eq_none
    {settings : Settings}
    {stages : List Stage}
    (unnameable : ¬∀ stage ∈ stages,
      Worker.acceptsThreadName (settings.threadName stage.name) = true)
    (clocks : Clocks)
    (observer? : Option Observer)
    (batches : List Batch) :
    start? stages settings clocks observer? batches = none := by
  have spawned : ∀ ordinal, spawnFrom? settings clocks ordinal stages = none := by
    induction stages with
    | nil => exact absurd (fun stage present => by cases present) unnameable
    | cons stage rest inductionHypothesis =>
        intro ordinal
        by_cases named : Worker.acceptsThreadName (settings.threadName stage.name) = true
        · have others := inductionHypothesis
            (fun all => unnameable (List.forall_mem_cons.mpr ⟨named, all⟩)) (ordinal + 1)
          rw [spawnFrom?, others]
          cases Worker.spawn? stage ordinal settings (clocks.stamp ordinal) <;> rfl
        · rw [Bool.not_eq_true] at named
          rw [spawnFrom?, Worker.spawn?, named, Bool.and_false]
          rfl
  rw [start?, spawned]
  rfl

end Run

namespace Coordinator

section Creation

variable
  {stages : List Stage}
  {settings : Settings}
  {runId : RunId}
  {coordinator : Coordinator}

/-- A coordinator is created over settings and stages that have both been accepted. -/
theorem accepted_of_create (created : create stages settings runId = .ok coordinator) :
    settings.validate = .ok () ∧ Stage.validateList stages = .ok () ∧
      coordinator = ⟨settings, stages, .idle, runId⟩ := by
  unfold create at created
  cases validated : settings.validate with
  | error fault =>
      rw [validated] at created
      cases created
  | ok accepted =>
      rw [validated] at created
      cases listed : Stage.validateList stages with
      | error fault =>
          rw [listed] at created
          cases created
      | ok _ =>
          rw [listed] at created
          cases created
          exact ⟨rfl, rfl, rfl⟩

theorem create_eq_ok (created : create stages settings runId = .ok coordinator) :
    settings.InRange ∧ stages ≠ [] ∧ coordinator = ⟨settings, stages, .idle, runId⟩ := by
  obtain ⟨validated, listed, same⟩ := accepted_of_create created
  refine ⟨Settings.inRange_of_validate validated, ?_, same⟩
  rintro rfl
  cases listed

end Creation

/-- What a batch, which came into a run in this turn, comes to on its way through all
stages. -/
def passes (clocks : Clocks) (stages : List Stage) (turn : Nat) (batch : Batch) :
    Except Fault Summary :=
  Sequential.passBatch clocks turn batch.index 0 stages batch

/-- The result of a run is that of the reference: the summaries of all batches, or the
fault of the first batch that fails. -/
structure MatchesReference
    (clocks : Clocks)
    (stages : List Stage)
    (batches : List Batch)
    (result : RunResult) :
    Prop where
  complete :
    (∀ (turn : Nat) (batch : Batch), batches[turn]? = some batch →
      ∃ summary, passes clocks stages turn batch = .ok summary) →
    ∃ report, result = .report report ∧ report.summaries.length = batches.length ∧
      (∀ (turn : Nat) (batch : Batch) (summary : Summary), batches[turn]? = some batch →
        passes clocks stages turn batch = .ok summary →
        report.summaries[turn]? = some summary) ∧
      report.totals = Totals.combine report.summaries
  failed :
    ∀ (turn : Nat) (batch : Batch) (fault : Fault), batches[turn]? = some batch →
      passes clocks stages turn batch = .error fault →
      (∀ (earlier : Nat) (other : Batch), earlier < turn → batches[earlier]? = some other →
        ∃ summary, passes clocks stages earlier other = .ok summary) →
      result = .fault fault ∧ ∃ stage ∈ stages, Sequential.Tagged fault stage batch.index

namespace MatchesReference

variable
  {clocks : Clocks}
  {stages : List Stage}
  {result : RunResult}

/-- If all batches pass, the result reports what they come to. -/
theorem exists_report
    {batches : List Batch}
    {summarise : Batch → Summary}
    (matching : MatchesReference clocks stages batches result)
    (allPass : ∀ (turn : Nat) (batch : Batch), batches[turn]? = some batch →
      passes clocks stages turn batch = .ok (summarise batch)) :
    ∃ report, result = .report report ∧ report.summaries = batches.map summarise ∧
      report.totals = Totals.combine report.summaries := by
  obtain ⟨report, rfl, length_eq, listed, totals⟩ :=
    matching.complete fun turn batch there => ⟨_, allPass turn batch there⟩
  refine ⟨report, rfl, ?_, totals⟩
  apply List.ext_getElem?
  intro turn
  rw [List.getElem?_map]
  cases there : batches[turn]? with
  | none =>
      rw [List.getElem?_eq_none_iff] at there
      rw [Option.map_none, List.getElem?_eq_none_iff, length_eq]
      exact there
  | some batch => exact listed turn batch _ there (allPass turn batch there)

/-- If the batches in front of one that fails all pass, the result is its fault. -/
theorem eq_fault
    {front back : List Batch}
    {batch : Batch}
    {fault : Fault}
    (matching : MatchesReference clocks stages (front ++ batch :: back) result)
    (earlierPass : ∀ (turn : Nat) (other : Batch), front[turn]? = some other →
      ∃ summary, passes clocks stages turn other = .ok summary)
    (fails : passes clocks stages front.length batch = .error fault) :
    result = .fault fault := by
  have there : (front ++ batch :: back)[front.length]? = some batch := by
    rw [List.getElem?_append_right (Nat.le_refl _), Nat.sub_self, List.getElem?_cons_zero]
  refine (matching.failed front.length batch fault there fails ?_).1
  intro earlier other inFront present
  rw [List.getElem?_append_left inFront] at present
  exact earlierPass earlier other present

end MatchesReference

/-- The batches that the reference finishes pass. -/
theorem passes_of_finished
    {clocks : Clocks}
    {stages : List Stage}
    {batches : List Batch}
    {turn : Nat}
    {batch : Batch}
    (there : batches[turn]? = some batch)
    (finished : turn < (Sequential.passAll clocks stages 0 batches).finished.length) :
    ∃ summary, passes clocks stages turn batch = .ok summary ∧
      ((Sequential.passAll clocks stages 0 batches).finished.map Prod.snd)[turn]? =
        some summary := by
  obtain ⟨⟨index, summary⟩, present⟩ :
      ∃ entry, (Sequential.passAll clocks stages 0 batches).finished[turn]? = some entry :=
    ⟨_, List.getElem?_eq_getElem finished⟩
  obtain ⟨other, same, -, passed⟩ := Sequential.passAll_finished present
  cases there.symm.trans same
  rw [Nat.zero_add] at passed
  exact ⟨summary, passed, by rw [List.getElem?_map, present]; rfl⟩

/-- A run that has ended as the reference does has the result of the reference. -/
theorem matchesReference_of_outcome
    {clocks : Clocks}
    {stages : List Stage}
    {batches : List Batch}
    {reached : Run}
    (coordinator : Coordinator)
    (nonempty : stages ≠ [])
    (summaries : reached.summaries =
      (Sequential.passAll clocks stages 0 batches).finished.map Prod.snd)
    (tally : reached.tally = Tally.ofList reached.summaries) :
    MatchesReference clocks stages batches
      (coordinator.answer reached
        (Run.endingOf (Sequential.passAll clocks stages 0 batches))).result := by
  rcases Sequential.passAll_fault? clocks stages 0 batches with
    ⟨whole, all⟩ | ⟨culprit, cause, failed, there, fails⟩
  · have ends : Run.endingOf (Sequential.passAll clocks stages 0 batches) = .completed := by
      rw [Run.endingOf, whole]
    rw [ends]
    refine ⟨fun _ => ⟨reached.report coordinator.runId, rfl, ?_, ?_, ?_⟩, ?_⟩
    · rw [Run.report, summaries, List.length_map, all]
    · intro turn batch summary present passed
      have inside := (List.getElem?_eq_some_iff.mp present).1
      rw [← all] at inside
      obtain ⟨other, same, listed⟩ := passes_of_finished present inside
      cases passed.symm.trans same
      rw [Run.report, summaries]
      exact listed
    · rw [Run.report, tally]
      rfl
    · intro turn batch fault present failed
      have inside := (List.getElem?_eq_some_iff.mp present).1
      rw [← all] at inside
      obtain ⟨other, same, -⟩ := passes_of_finished present inside
      cases failed.symm.trans same
  · have ends : Run.endingOf (Sequential.passAll clocks stages 0 batches) = .failed cause := by
      rw [Run.endingOf, failed]
    rw [Nat.zero_add] at fails
    rw [ends]
    constructor
    · intro allPass
      obtain ⟨summary, passed⟩ := allPass _ culprit there
      cases fails.symm.trans passed
    · intro turn batch fault present failed earlierPass
      rcases Nat.lt_trichotomy turn
          (Sequential.passAll clocks stages 0 batches).finished.length with
        before | same | behind
      · obtain ⟨summary, passed, -⟩ := passes_of_finished present before
        cases failed.symm.trans passed
      · subst same
        cases there.symm.trans present
        cases fails.symm.trans failed
        exact ⟨rfl, Sequential.passBatch_fault nonempty rfl fails⟩
      · obtain ⟨summary, passed⟩ := earlierPass _ culprit behind there
        cases fails.symm.trans passed

/-- A run that ends without a deadline has the result of the reference. -/
theorem matchesReference_of_ended
    {stages : List Stage}
    {settings : Settings}
    {clocks : Clocks}
    {observer? : Option Observer}
    {batches : List Batch}
    {started reached : Run}
    {schedule : List Run.Action}
    {events : List Run.Event}
    {ending : Run.Ending}
    (coordinator : Coordinator)
    (nonempty : stages ≠ [])
    (start_eq : Run.start? stages settings clocks observer? batches = some started)
    (executed : started.execute? schedule = some (reached, events))
    (timely : settings.stageLimit? = none ∨ .client .expire ∉ schedule)
    (calm : ∀ observer ∈ observer?, ∀ told, observer.panics told = false)
    (ended : reached.ending? = some ending) :
    MatchesReference clocks stages batches (coordinator.answer reached ending).result := by
  obtain ⟨rfl, summaries, tally, -⟩ :=
    Run.ends_as_reference start_eq executed timely calm ended
  rw [← summaries] at tally
  exact matchesReference_of_outcome coordinator nonempty summaries tally

/-- Without a deadline, all answers are those of the reference. -/
theorem Answers.matchesReference
    {stages : List Stage}
    {settings : Settings}
    {runId : RunId}
    {coordinator : Coordinator}
    {clocks : Clocks}
    {observer? : Option Observer}
    {batches : List Batch}
    {answer : RunAnswer}
    (answers : coordinator.Answers clocks observer? batches answer)
    (created : create stages settings runId = .ok coordinator)
    (nameable : ∀ stage ∈ stages,
      Worker.acceptsThreadName (settings.threadName stage.name) = true)
    (unlimited : settings.stageLimit? = none)
    (calm : ∀ observer ∈ observer?, ∀ told, observer.panics told = false) :
    MatchesReference clocks stages batches answer.result := by
  obtain ⟨inRange, nonempty, rfl⟩ := create_eq_ok created
  obtain ⟨started, start_eq⟩ := Run.start?_isSome inRange nameable clocks observer? batches
  simp only [Answers, AnswersBy, ne_eq, not_true_eq_false, if_false, start_eq] at answers
  obtain ⟨schedule, events, reached, ending, executed, ended, rfl⟩ := answers
  exact matchesReference_of_ended _ nonempty start_eq executed (Or.inl unlimited) calm ended

/-- The usual schedule leads to an answer, which is that of the reference. -/
theorem run?_matchesReference
    {stages : List Stage}
    {settings : Settings}
    {runId : RunId}
    {coordinator : Coordinator}
    {observer? : Option Observer}
    (clocks : Clocks)
    (batches : List Batch)
    (created : create stages settings runId = .ok coordinator)
    (nameable : ∀ stage ∈ stages,
      Worker.acceptsThreadName (settings.threadName stage.name) = true)
    (free : ∀ stage ∈ stages, ∀ batch, stage.holds batch = false)
    (calm : ∀ observer ∈ observer?, ∀ told, observer.panics told = false) :
    ∃ answer, coordinator.run? clocks observer? batches = some answer ∧
      MatchesReference clocks stages batches answer.result := by
  obtain ⟨inRange, nonempty, rfl⟩ := create_eq_ok created
  obtain ⟨started, start_eq⟩ := Run.start?_isSome inRange nameable clocks observer? batches
  obtain ⟨schedule, events, ending, executed, timely, ended⟩ :=
    (Run.Orderly.of_start start_eq).follow_ends free (Run.start_effort_le start_eq)
  have answered : run? ⟨settings, stages, .idle, runId⟩ clocks observer? batches =
      some (answer ⟨settings, stages, .idle, runId⟩ started.toEnd ending) := by
    simp only [run?, runBy?, ne_eq, not_true_eq_false, if_false, start_eq]
    rw [Run.toEnd, ended]
    rfl
  exact ⟨_, answered,
    matchesReference_of_ended _ nonempty start_eq executed (Or.inr timely) calm ended⟩

/-- Under every schedule in which no deadline passes, a run that counts in words can go on
until it is over, is over in time, and then has the result of the reference, if the counters of
the reference fit a word. -/
theorem run_matches_reference
    {stages : List Stage}
    {settings : Settings}
    {runId : RunId}
    {coordinator : Coordinator}
    {observer? : Option Observer}
    (clocks : Clocks)
    (batches : List Batch)
    (created : create stages settings runId = .ok coordinator)
    (nameable : ∀ stage ∈ stages,
      Worker.acceptsThreadName (settings.threadName stage.name) = true)
    (calm : ∀ observer ∈ observer?, ∀ told, observer.panics told = false)
    (countable : Sequential.Countable clocks stages batches) :
    ∃ started,
      Run.start? coordinator.stages coordinator.settings clocks observer? batches =
        some started ∧
      ∀ schedule reached events,
        started.executeCounted? schedule = some (reached, events) →
        .client .expire ∉ schedule →
        schedule.length ≤ started.stepBound ∧
          (reached.ending? = none →
            ∃ action transition,
              action ≠ .client .expire ∧ reached.stepCounted action = some transition) ∧
          ∀ ending, reached.ending? = some ending →
            MatchesReference clocks stages batches
              (coordinator.answer reached ending).result := by
  obtain ⟨inRange, nonempty, rfl⟩ := create_eq_ok created
  obtain ⟨started, start_eq⟩ := Run.start?_isSome inRange nameable clocks observer? batches
  refine ⟨started, start_eq, fun schedule reached events counted timely => ?_⟩
  have executed := counted
  rw [Run.executeCounted?_eq start_eq countable] at executed
  refine ⟨Run.length_le_stepBound start_eq executed,
    Run.canStepCounted start_eq countable executed, fun ending ended => ?_⟩
  obtain ⟨rfl, summaries, tally, -⟩ :=
    Run.ends_as_reference start_eq executed (Or.inr timely) calm ended
  rw [← summaries] at tally
  exact matchesReference_of_outcome _ nonempty summaries tally

/-- A stage that hands on what it gets. -/
def relay : Stage :=
  ⟨"relay", .custom ⟨fun batch => .output (.batch batch), fun _ => false⟩⟩

/-- A stage that panics at a batch without records. -/
def census : Stage :=
  ⟨"census", .custom
    ⟨fun batch =>
      if batch.isEmpty then .panic (some "nobody") else .output (.summary Summary.empty),
      fun _ => false⟩⟩

/-- Two batches that bear the same index, of which the second one makes a stage panic. -/
theorem run_matches_reference_census :
    ∃ started,
      Run.start? [relay, census] Settings.standard .still (some .silent)
        [⟨7, [.raw 0 "somebody"]⟩, ⟨7, []⟩] = some started ∧
      ∀ schedule reached events ending,
        started.executeCounted? schedule = some (reached, events) →
        .client .expire ∉ schedule → reached.ending? = some ending →
        (answer ⟨Settings.standard, [relay, census], .idle, default⟩ reached ending).result =
          .fault (.stageFailed "census" 7 "stage panicked: nobody") := by
  have countable : Sequential.Countable .still [relay, census]
      [⟨7, [.raw 0 "somebody"]⟩, ⟨7, []⟩] := by decide +kernel
  obtain ⟨started, start_eq, follows⟩ :=
    run_matches_reference .still [⟨7, [.raw 0 "somebody"]⟩, ⟨7, []⟩]
      (show create [relay, census] Settings.standard default = .ok _ from rfl)
      (by decide) Observer.calm_silent countable
  refine ⟨started, start_eq, fun schedule reached events ending executed timely ended => ?_⟩
  obtain ⟨-, -, matching⟩ := follows schedule reached events executed timely
  refine ((matching ending ended).failed 1 ⟨7, []⟩ _ rfl rfl ?_).1
  intro earlier other before present
  obtain rfl : earlier = 0 := by omega
  cases present
  exact ⟨Summary.empty, rfl⟩

/-- If a new coordinator is seen to answer, there are such a coordinator and such an answer.
The run is computed in the last premise only: coordinator and answer are variables afterwards. -/
theorem exists_answer
    {Seen : Type}
    (stages : List Stage)
    (settings : Settings)
    (call : Coordinator → Option RunAnswer)
    (view : RunAnswer → Seen)
    (seen : Seen)
    (answered : (create stages settings default).toOption.bind
      (fun coordinator => (call coordinator).map view) = some seen) :
    ∃ coordinator answer, create stages settings default = .ok coordinator ∧
      call coordinator = some answer ∧ view answer = seen := by
  obtain ⟨coordinator, created, viewed⟩ := Option.bind_eq_some_iff.mp answered
  obtain ⟨answer, called, seen_eq⟩ := Option.map_eq_some_iff.mp viewed
  cases accepted : create stages settings default with
  | error fault =>
      rw [accepted] at created
      cases created
  | ok other =>
      rw [accepted] at created
      cases created
      exact ⟨coordinator, answer, rfl, called, seen_eq⟩

/-- A stage that claims to have seen as many values as fit a word. -/
def hoard : Stage :=
  ⟨"hoard", .custom
    ⟨fun _ => .output (.summary { Summary.empty with count := Word.limit - 1 }), fun _ => false⟩⟩

/-- Both batches pass, but their counts together do not fit a word, and the call panics.  Its
settings set no deadline. -/
theorem hoard_unwinds :
    ∃ coordinator answer,
      create [hoard] Settings.standard default = .ok coordinator ∧
      (∀ stage ∈ [hoard],
        Worker.acceptsThreadName (Settings.standard.threadName stage.name) = true) ∧
      Settings.standard.stageLimit? = none ∧
      coordinator.runCounted? .still none [⟨0, []⟩, ⟨1, []⟩] = some answer ∧
      answer.result = .panic ∧
      ¬MatchesReference .still [hoard] [⟨0, []⟩, ⟨1, []⟩] answer.result := by
  obtain ⟨coordinator, answer, created, ran, outcome⟩ :=
    exists_answer [hoard] Settings.standard (·.runCounted? .still none [⟨0, []⟩, ⟨1, []⟩])
      (·.result == .panic) true (by decide +kernel)
  have panicked : answer.result = .panic := by simpa using outcome
  refine ⟨coordinator, answer, created, by decide, rfl, ran, panicked, fun matching => ?_⟩
  obtain ⟨report, reported, -⟩ := matching.complete fun turn batch _ => ⟨_, rfl⟩
  rw [panicked] at reported
  cases reported

end Coordinator
end StagePipeline
