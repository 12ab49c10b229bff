import StagePipeline.Proofs.Answers
import StagePipeline.Session

/-!
# Coordinators run once

Whatever comes of the first call of a coordinator that returns, the state tells it, and all
further calls are refused without an effect.  If the system refuses no thread, the calls of
a session are answered as single calls are.
-/

namespace StagePipeline

/-! ## Calls whose threads all start -/

namespace Call

/-- If the system refuses no thread, all workers come up, or one of them cannot be set up. -/
theorem launch_of_granted
    {call : Call}
    (granted : ∀ position, call.refusal? position = none)
    (settings : Settings)
    (ordinal : Nat)
    (stages : List Stage) :
    (call.launch settings ordinal stages = .up ∧
        ∃ workers, Run.spawnFrom? settings call.clocks ordinal stages = some workers) ∨
      ∃ started, call.launch settings ordinal stages = .panicked started ∧
        Run.spawnFrom? settings call.clocks ordinal stages = none := by
  induction stages generalizing ordinal with
  | nil => exact Or.inl ⟨rfl, [], rfl⟩
  | cons stage rest inductionHypothesis =>
      rw [launch, Run.spawnFrom?, granted]
      cases Worker.spawn? stage ordinal settings (call.clocks.stamp ordinal) with
      | none => exact Or.inr ⟨ordinal, rfl, rfl⟩
      | some worker =>
          rcases inductionHypothesis (ordinal + 1) with
            ⟨launched, others, spawned⟩ | ⟨started, launched, spawned⟩
          · exact Or.inl ⟨launched, worker :: others, by rw [spawned]; rfl⟩
          · exact Or.inr ⟨started, launched, by rw [spawned]; rfl⟩

end Call

namespace Coordinator

variable {coordinator : Coordinator} {call : Call} {response : Response}

/-- If the system refuses no thread, what may come of a call is what it may answer. -/
theorem answers_iff_responds
    (call : Call)
    {answer : RunAnswer}
    (granted : ∀ position, call.refusal? position = none) :
    coordinator.Answers call.clocks call.observer? call.batches answer ↔
      ∃ response, coordinator.Responds call response ∧ response.answer = answer := by
  by_cases idle : coordinator.state = .idle
  · simp only [Answers, AnswersBy, idle, ne_eq, not_true_eq_false, if_false]
    rcases call.launch_of_granted granted coordinator.settings 0 coordinator.stages with
      ⟨launched, workers, spawned⟩ | ⟨count, launched, spawned⟩
    · obtain ⟨started, start_eq⟩ : ∃ started, Run.start? coordinator.stages
          coordinator.settings call.clocks call.observer? call.batches = some started := by
        rw [Run.start?, spawned]
        exact ⟨_, rfl⟩
      rw [start_eq]
      constructor
      · rintro ⟨schedule, events, reached, ending, executed, ended, rfl⟩
        exact ⟨_, .run idle launched start_eq executed ended, rfl⟩
      · rintro ⟨response, responds, rfl⟩
        cases responds with
        | refuse used => exact absurd idle used
        | panic _ other | fail _ other => cases launched.symm.trans other
        | run _ _ also executed ended =>
            cases start_eq.symm.trans also
            exact ⟨_, _, _, _, executed, ended, rfl⟩
    · have start_eq : Run.start? coordinator.stages coordinator.settings call.clocks
          call.observer? call.batches = none := by
        rw [Run.start?, spawned]
        rfl
      rw [start_eq]
      constructor
      · rintro rfl
        exact ⟨_, .panic idle launched, rfl⟩
      · rintro ⟨response, responds, rfl⟩
        cases responds with
        | refuse used => exact absurd idle used
        | panic => rfl
        | fail _ other | run _ other => cases launched.symm.trans other
  · rw [Answers, AnswersBy, if_pos idle]
    constructor
    · rintro rfl
      exact ⟨_, .refuse idle, rfl⟩
    · rintro ⟨response, responds, rfl⟩
      cases responds with
      | refuse => rfl
      | panic other | fail other | run other => exact absurd other idle

/-- If the counters of the reference fit a word, the same may come of a call that counts in
words. -/
theorem respondsCounted_iff
    {stages : List Stage}
    {settings : Settings}
    {runId : RunId}
    (created : create stages settings runId = .ok coordinator)
    (countable : Sequential.Countable call.clocks stages call.batches) :
    coordinator.RespondsCounted call response ↔ coordinator.Responds call response := by
  obtain ⟨-, -, rfl⟩ := create_eq_ok created
  constructor
  · intro responds
    cases responds with
    | refuse used => exact .refuse used
    | panic idle launched => exact .panic idle launched
    | fail idle launched => exact .fail idle launched
    | run idle launched start_eq executed ended =>
        rw [Run.executeCounted?_eq start_eq countable] at executed
        exact .run idle launched start_eq executed ended
  · intro responds
    cases responds with
    | refuse used => exact .refuse used
    | panic idle launched => exact .panic idle launched
    | fail idle launched => exact .fail idle launched
    | run idle launched start_eq executed ended =>
        rw [← Run.executeCounted?_eq start_eq countable] at executed
        exact .run idle launched start_eq executed ended

/-! ## First calls -/

/-- A call touches nothing of the coordinator but its state. -/
theorem Responds.coordinator_eq (responds : coordinator.Responds call response) :
    response.answer.coordinator =
      { coordinator with state := response.answer.coordinator.state } := by
  cases responds with
  | refuse | panic | fail => rfl
  | @run _ _ _ _ ending => cases ending <;> rfl

/-- A first call that returns leaves the state that tells how it has ended. -/
theorem Responds.state_of_idle
    (responds : coordinator.Responds call response)
    (idle : coordinator.state = .idle)
    (returns : response.answer.result ≠ .panic) :
    ((∃ report, response.answer.result = .report report) ∧
        response.answer.coordinator.state = .completed) ∨
      ((∃ fault, response.answer.result = .fault fault) ∧
        response.answer.coordinator.state = .failed) := by
  cases responds with
  | refuse used => exact absurd idle used
  | panic => exact absurd rfl returns
  | fail => exact Or.inr ⟨⟨_, rfl⟩, rfl⟩
  | @run _ _ _ _ ending =>
      cases ending with
      | completed => exact Or.inl ⟨⟨_, rfl⟩, rfl⟩
      | failed fault => exact Or.inr ⟨⟨fault, rfl⟩, rfl⟩
      | unwound => exact absurd rfl returns

theorem Responds.used_of_idle
    (responds : coordinator.Responds call response)
    (idle : coordinator.state = .idle)
    (returns : response.answer.result ≠ .panic) :
    response.answer.coordinator.state ≠ .idle := by
  rcases responds.state_of_idle idle returns with ⟨-, state⟩ | ⟨-, state⟩
  · rw [state]
    decide
  · rw [state]
    decide

/-- A report bears the identity of its coordinator. -/
theorem Responds.runId_eq
    {report : Report}
    (responds : coordinator.Responds call response)
    (reported : response.answer.result = .report report) :
    report.runId = coordinator.runId := by
  cases responds with
  | refuse | panic | fail => cases reported
  | @run _ _ _ _ ending =>
      cases ending with
      | completed =>
          cases reported
          rfl
      | failed | unwound => cases reported

/-! ## Further calls -/

/-- A coordinator that has been used refuses every call, and nothing else comes of it. -/
theorem responds_iff_of_used (used : coordinator.state ≠ .idle) :
    coordinator.Responds call response ↔ response = coordinator.refusal := by
  constructor
  · intro responds
    cases responds with
    | refuse => rfl
    | panic idle | fail idle | run idle => exact absurd idle used
  · rintro rfl
    exact .refuse used

end Coordinator

/-- All calls of a coordinator that has been used are refused, and leave it as it is. -/
theorem Session.of_used
    {coordinator last : Coordinator}
    {history : List (Call × Response)}
    (session : Session coordinator history last)
    (used : coordinator.state ≠ .idle) :
    last = coordinator ∧ ∀ entry ∈ history, entry.2 = coordinator.refusal := by
  induction session with
  | nil => exact ⟨rfl, fun entry present => by cases present⟩
  | cons responds _ inductionHypothesis =>
      obtain rfl := (Coordinator.responds_iff_of_used used).mp responds
      obtain ⟨rfl, refused⟩ := inductionHypothesis used
      exact ⟨rfl, List.forall_mem_cons.mpr ⟨rfl, refused⟩⟩

namespace Coordinator

/-- The first call that returns leaves the state that tells how it has ended, and nothing
else of the coordinator is ever changed.  All further calls are refused: they leave the
coordinator as it is, start no worker, begin nothing and tell the observer nothing, and
nothing else may come of any other call. -/
theorem runs_once
    {stages : List Stage}
    {settings : Settings}
    {runId : RunId}
    {coordinator last : Coordinator}
    {call : Call}
    {response : Response}
    {later : List (Call × Response)}
    (created : create stages settings runId = .ok coordinator)
    (session : Session coordinator ((call, response) :: later) last)
    (returns : response.answer.result ≠ .panic) :
    (last.state = .completed ↔ ∃ report, response.answer.result = .report report) ∧
      (last.state = .failed ↔ ∃ fault, response.answer.result = .fault fault) ∧
      (∀ report, response.answer.result = .report report → report.runId = runId) ∧
      response.answer.coordinator = last ∧ last = ⟨settings, stages, last.state, runId⟩ ∧
      (∀ entry ∈ later, entry.2 = last.refusal) ∧
      (∀ next any, last.Responds next any ↔ any = last.refusal) ∧
      last.refusal =
        ⟨⟨last, .fault (.configuration "coordinator"
          ("run " ++ runId.text ++ " has already been started")), []⟩, 0, []⟩ := by
  obtain ⟨-, -, rfl⟩ := create_eq_ok created
  cases session with
  | cons responds further =>
      have ended := responds.state_of_idle rfl returns
      have used := responds.used_of_idle rfl returns
      have kept := responds.coordinator_eq
      obtain ⟨rfl, refused⟩ := further.of_used used
      refine ⟨?_, ?_, fun report => responds.runId_eq, rfl, kept, refused,
        fun next any => responds_iff_of_used used, ?_⟩
      · rcases ended with ⟨reported, state⟩ | ⟨⟨fault, failed⟩, state⟩
        · exact iff_of_true state reported
        · rw [state, failed]
          exact iff_of_false nofun nofun
      · rcases ended with ⟨⟨report, reported⟩, state⟩ | ⟨failed, state⟩
        · rw [state, reported]
          exact iff_of_false nofun nofun
        · exact iff_of_true state failed
      · rw [refusal, alreadyStarted, kept]

/-- A call fails, and a second one with other batches and an observer is refused. -/
theorem runs_once_census :
    ∃ coordinator last first second,
      create [relay, census] Settings.standard default = .ok coordinator ∧
      Session coordinator
        [(⟨.still, none, [⟨7, []⟩], fun _ => none⟩, first),
          (⟨.still, some .silent, [⟨8, [.raw 0 "somebody"]⟩], fun _ => none⟩, second)] last ∧
      first.answer.result = .fault (.stageFailed "census" 7 "stage panicked: nobody") ∧
      last.state = .failed ∧ second.answer.coordinator = last ∧ second.workers = 0 ∧
      second.events = [] ∧ second.answer.told = [] := by
  obtain ⟨coordinator, answer, created, ran, outcome⟩ :=
    exists_answer [relay, census] Settings.standard (·.run? .still none [⟨7, []⟩])
      (·.result.fault?) (some (.stageFailed "census" 7 "stage panicked: nobody"))
      (by decide +kernel)
  have failed := RunResult.eq_of_fault? outcome
  have returns : answer.result ≠ .panic := by
    rw [failed]
    nofun
  obtain ⟨first, responds, rfl⟩ :=
    (answers_iff_responds ⟨.still, none, [⟨7, []⟩], fun _ => none⟩ fun _ => rfl).mp
      (Answers.of_run? ran)
  have idle : coordinator.state = .idle := by
    obtain ⟨-, -, rfl⟩ := create_eq_ok created
    rfl
  have used := responds.used_of_idle idle returns
  have session : Session coordinator
      [(⟨.still, none, [⟨7, []⟩], fun _ => none⟩, first),
        (⟨.still, some .silent, [⟨8, [.raw 0 "somebody"]⟩], fun _ => none⟩,
          first.answer.coordinator.refusal)]
      first.answer.coordinator :=
    .cons responds (.cons (.refuse used) .nil)
  obtain ⟨-, fails, -⟩ := runs_once created session returns
  exact ⟨coordinator, _, first, _, created, session, failed, fails.mpr ⟨_, failed⟩, rfl, rfl,
    rfl, rfl⟩

end Coordinator
end StagePipeline
