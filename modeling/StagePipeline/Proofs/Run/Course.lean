import StagePipeline.Proofs.Run.Errand

/-!
# The course of a run

Whatever the order of its steps, a run is in one of three positions: between two
batches with all workers at rest, at a hop with one worker on its errand, or at its
end with nothing left to do but a job that came too late.  Every step is a turn that
leads from one position to another, and a turn is all that later proofs need to know
about a step.
-/

namespace StagePipeline
namespace Run

/-! ## Workers at rest -/

/-- The workers of a list of stages, from a position on, that wait for the call with
this number. -/
def crew
    (settings : Settings)
    (clocks : Clocks)
    (number : UInt64) :
    Nat → List Stage → List Worker
  | _, [] => []
  | ordinal, stage :: rest =>
      Worker.atRest stage ordinal settings (clocks.stamp ordinal) number ::
        crew settings clocks number (ordinal + 1) rest

section Crew

variable {settings : Settings} {clocks : Clocks} {number : UInt64}

@[simp] theorem crew_length (ordinal : Nat) (stages : List Stage) :
    (crew settings clocks number ordinal stages).length = stages.length := by
  induction stages generalizing ordinal with
  | nil => rfl
  | cons stage rest inductionHypothesis => simp [crew, inductionHypothesis]

/-- A crew of two rows of stages is the crew of one and then that of the other. -/
theorem crew_append (ordinal : Nat) (front back : List Stage) :
    crew settings clocks number ordinal (front ++ back) =
      crew settings clocks number ordinal front ++
        crew settings clocks number (ordinal + front.length) back := by
  induction front generalizing ordinal with
  | nil => rfl
  | cons stage rest inductionHypothesis =>
      have shifted : ordinal + 1 + rest.length = ordinal + (rest.length + 1) := by omega
      simp [crew, inductionHypothesis, shifted]

/-- Every worker of a crew is at rest. -/
theorem atRest_of_mem_crew
    {worker : Worker}
    {ordinal : Nat}
    {stages : List Stage}
    (present : worker ∈ crew settings clocks number ordinal stages) :
    ∃ stage position,
      worker = Worker.atRest stage position settings (clocks.stamp position) number := by
  induction stages generalizing ordinal with
  | nil => cases present
  | cons stage rest inductionHypothesis =>
      rcases List.mem_cons.mp present with rfl | present
      · exact ⟨stage, ordinal, rfl⟩
      · exact inductionHypothesis present

theorem tenure_of_mem_crew
    {worker : Worker}
    {ordinal : Nat}
    {stages : List Stage}
    (present : worker ∈ crew settings clocks number ordinal stages) :
    worker.tenure = .serving := by
  obtain ⟨stage, position, rfl⟩ := atRest_of_mem_crew present
  rfl

/-- The workers that are spawned are a crew without a number. -/
theorem spawnFrom?_eq_some
    {ordinal : Nat}
    {stages : List Stage}
    {workers : List Worker}
    (spawned : spawnFrom? settings clocks ordinal stages = some workers) :
    workers = crew settings clocks 0 ordinal stages := by
  induction stages generalizing ordinal workers with
  | nil =>
      cases spawned
      rfl
  | cons stage rest inductionHypothesis =>
      obtain ⟨worker, started, spawned⟩ := Option.bind_eq_some_iff.mp spawned
      obtain ⟨others, followed, result⟩ := Option.bind_eq_some_iff.mp spawned
      cases result
      unfold Worker.spawn? at started
      split at started
      · cases started
        rw [inductionHypothesis followed]
        rfl
      · cases started

end Crew

/-! ## Positions -/

/-- A batch on its way: the stages that it has passed, the one that it is at, those
ahead of it, and what has become of it. -/
structure Passage where
  passed : List Stage
  stage : Stage
  ahead : List Stage
  index : Nat
  batch : Batch

namespace Passage

def stages (passage : Passage) : List Stage :=
  passage.passed ++ passage.stage :: passage.ahead

def ordinal (passage : Passage) : Nat :=
  passage.passed.length

/-- The passage of a batch that sets out. -/
def start (batch : Batch) (stage : Stage) (ahead : List Stage) : Passage :=
  ⟨[], stage, ahead, batch.index, batch⟩

/-- The passage that goes on with a batch to a next stage. -/
def onward (passage : Passage) (batch : Batch) (stage : Stage) (ahead : List Stage) : Passage :=
  ⟨passage.passed ++ [passage.stage], stage, ahead, passage.index, batch⟩

/-- What the stage makes of the batch in this turn. -/
def reply (passage : Passage) (clocks : Clocks) (turn : Nat) : Reply :=
  Sequential.reply passage.stage (clocks.stamp passage.ordinal (UInt64.ofNat turn)) passage.batch

theorem onward_ordinal
    (passage : Passage)
    (batch : Batch)
    (stage : Stage)
    (ahead : List Stage) :
    (passage.onward batch stage ahead).ordinal = passage.ordinal + 1 :=
  List.length_append

/-- A batch goes on as its stage replies. -/
theorem pass_eq (passage : Passage) (clocks : Clocks) (turn : Nat) :
    Sequential.passBatch clocks turn passage.index passage.ordinal
        (passage.stage :: passage.ahead) passage.batch =
      match passage.reply clocks turn with
      | .error fault => .error fault
      | .ok output =>
          match route passage.index passage.ahead.isEmpty output with
          | .next batch =>
              Sequential.passBatch clocks turn passage.index (passage.ordinal + 1) passage.ahead
                batch
          | .finished summary => .ok summary
          | .refused reason => .error (.stageFailed passage.stage.name passage.index reason) :=
  rfl

end Passage

inductive Position where
  | between
  | hop (passage : Passage) (begun : Bool)
  /-- The run comes to this ending; the worker at a position may have a job left. -/
  | ended (ending : Ending) (ordinal : Nat) (job? : Option Worker.Job)

/-- How many batches have been finished, which is the turn of the next one. -/
def turn (run : Run) : Nat :=
  run.summaries.length

/-- The number that all workers have for the next batch. -/
def number (run : Run) : UInt64 :=
  UInt64.ofNat run.turn

def Control.ending? : Control → Option Ending
  | .ready => none
  | .hop _ _ _ => none
  | .stopping ending _ => some ending
  | .releasing ending _ => some ending
  | .over ending => some ending

/-- How far the worker at a position has been stopped. -/
def Control.Expects (ordinal : Nat) (tenure : Worker.Tenure) : Control → Prop
  | .ready => False
  | .hop _ _ _ => False
  | .stopping _ current =>
      (ordinal < current → tenure = .closed) ∧
        (ordinal = current → tenure ≠ .closed ∧ tenure ≠ .released) ∧
        (current < ordinal → tenure = .serving)
  | .releasing _ current =>
      (ordinal < current → tenure = .released) ∧ (current ≤ ordinal → tenure = .closed)
  | .over _ => tenure = .released

/-- The workers at a hop: one of them is called, those of the stages that the batch has
passed have been called once more than those ahead of it. -/
def Passage.crews
    (passage : Passage)
    (settings : Settings)
    (clocks : Clocks)
    (number : UInt64)
    (worker : Worker) :
    List Worker :=
  crew settings clocks (number + 1) 0 passage.passed ++
    worker :: crew settings clocks number (passage.ordinal + 1) passage.ahead

/-- The worker of a passage stands at its place. -/
theorem Passage.crews_getElem?
    (passage : Passage)
    (settings : Settings)
    (clocks : Clocks)
    (number : UInt64)
    (worker : Worker) :
    (passage.crews settings clocks number worker)[passage.ordinal]? = some worker := by
  have here : passage.ordinal =
      (crew settings clocks (number + 1) 0 passage.passed).length :=
    (crew_length 0 passage.passed).symm
  rw [crews, here, List.getElem?_append_right (Nat.le_refl _), Nat.sub_self]
  rfl

/-- What a run looks like in a position. -/
inductive Orderly
    (settings : Settings)
    (clocks : Clocks)
    (stages : List Stage)
    (run : Run) :
    Position → Prop where
  | between :
      run.control = .ready →
      run.workers = crew settings clocks run.number 0 stages →
      Orderly settings clocks stages run .between
  | hop {passage : Passage} {begun : Bool} {worker : Worker} :
      stages = passage.stages →
      run.control = .hop passage.index passage.ordinal passage.batch.size →
      run.workers = passage.crews settings clocks run.number worker →
      Worker.Errand passage.stage passage.ordinal settings (clocks.stamp passage.ordinal)
        run.number passage.batch begun worker →
      Orderly settings clocks stages run (.hop passage begun)
  | ended {ending : Ending} {ordinal : Nat} {job? : Option Worker.Job} :
      run.control.ending? = some ending →
      (∀ position worker, run.workers[position]? = some worker →
        worker.Remains (position = ordinal) job? ∧
          run.control.Expects position worker.tenure) →
      Orderly settings clocks stages run (.ended ending ordinal job?)

/-! ## Turns -/

/-- The hop whose begin an event tells: a position, and the job that is begun there. -/
def Event.hop? (event : Event) : Option (Nat × Worker.Job) :=
  event.2.job?.map (event.1, ·)

/-- What a step comes to.  Workers and control are left open: the position says enough
about them. -/
inductive Turn
    (settings : Settings)
    (clocks : Clocks)
    (stages : List Stage)
    (run : Run) :
    Position → Action → Option Event → Run → Position → Prop where
  /-- Thread, caller or owner go on. -/
  | inner {position : Position} {action : Action} {event? : Option Event}
      {workers : List Worker} {control : Control} :
      event?.bind Event.hop? = none →
      Turn settings clocks stages run position action event? { run with workers, control } position
  | begin {passage : Passage} {action : Action} {workers : List Worker} {control : Control} :
      Turn settings clocks stages run (.hop passage false) action
        (some (passage.ordinal, .began run.number passage.batch))
        { run with workers, control } (.hop passage true)
  | complete {action : Action} {control : Control} :
      run.waiting = [] →
      Turn settings clocks stages run .between action none
        { run with control } (.ended .completed 0 none)
  | astray {action : Action} {batch : Batch} {rest : List Batch} {control : Control} :
      run.waiting = batch :: rest → stages = [] →
      Turn settings clocks stages run .between action none
        { run with waiting := rest, control } (.ended (.failed noStages) 0 none)
  | take {action : Action} {batch : Batch} {rest : List Batch} {stage : Stage}
      {ahead : List Stage} {workers : List Worker} {control : Control} :
      run.waiting = batch :: rest → stages = stage :: ahead →
      Turn settings clocks stages run .between action none
        { run with waiting := rest, workers, control }
        (.hop (Passage.start batch stage ahead) false)
  | pass {passage : Passage} {action : Action} {output : StageOutput} {batch : Batch}
      {stage : Stage} {ahead : List Stage} {workers : List Worker} {control : Control} :
      passage.ahead = stage :: ahead →
      passage.reply clocks run.turn = .ok output →
      route passage.index false output = .next batch →
      Turn settings clocks stages run (.hop passage true) action
        (some (passage.ordinal, .answered passage.batch (.ok output)))
        { run.countHop passage.ordinal passage.batch.size output.recordCount with
          workers, control }
        (.hop (passage.onward batch stage ahead) false)
  | finish {passage : Passage} {action : Action} {output : StageOutput} {summary : Summary}
      {workers : List Worker} {control : Control} :
      stages = passage.stages → passage.ahead = [] →
      passage.reply clocks run.turn = .ok output →
      route passage.index true output = .finished summary →
      (∀ observer ∈ run.observer?,
        observer.panics (run.told ++ [(passage.index, summary)]) = false) →
      Turn settings clocks stages run (.hop passage true) action
        (some (passage.ordinal, .answered passage.batch (.ok output)))
        { (run.countHop passage.ordinal passage.batch.size
            output.recordCount).completeBatch passage.index summary with workers, control }
        .between
  | unwind {passage : Passage} {action : Action} {output : StageOutput} {summary : Summary}
      {observer : Observer} {workers : List Worker} {control : Control} :
      passage.ahead = [] →
      passage.reply clocks run.turn = .ok output →
      route passage.index true output = .finished summary →
      observer ∈ run.observer? →
      observer.panics (run.told ++ [(passage.index, summary)]) = true →
      Turn settings clocks stages run (.hop passage true) action
        (some (passage.ordinal, .answered passage.batch (.ok output)))
        { (run.countHop passage.ordinal passage.batch.size
            output.recordCount).completeBatch passage.index summary with workers, control }
        (.ended .unwound passage.ordinal none)
  | refuse {passage : Passage} {action : Action} {output : StageOutput} {reason : String}
      {workers : List Worker} {control : Control} :
      passage.reply clocks run.turn = .ok output →
      route passage.index passage.ahead.isEmpty output = .refused reason →
      Turn settings clocks stages run (.hop passage true) action
        (some (passage.ordinal, .answered passage.batch (.ok output)))
        { run.countHop passage.ordinal passage.batch.size output.recordCount with
          workers, control }
        (.ended (.failed (.stageFailed passage.stage.name passage.index reason))
          passage.ordinal none)
  | fail {passage : Passage} {action : Action} {fault : Fault} {workers : List Worker}
      {control : Control} :
      passage.reply clocks run.turn = .error fault →
      Turn settings clocks stages run (.hop passage true) action
        (some (passage.ordinal, .answered passage.batch (.error fault)))
        { run with workers, control } (.ended (.failed fault) passage.ordinal none)
  | expire {passage : Passage} {begun : Bool} {limit : Duration} {workers : List Worker}
      {control : Control} :
      settings.stageLimit? = some limit →
      Turn settings clocks stages run (.hop passage begun) (.client .expire)
        (some (passage.ordinal, .answered passage.batch
          (.error (.timedOut passage.stage.name passage.batch.index limit))))
        { run with workers, control }
        (.ended (.failed (.timedOut passage.stage.name passage.batch.index limit))
          passage.ordinal (if begun then none else some (run.number, passage.batch)))
  /-- A thread begins the job of a call that has returned. -/
  | beginLate {ending : Ending} {ordinal : Nat} {job : Worker.Job} {action : Action}
      {workers : List Worker} :
      Turn settings clocks stages run (.ended ending ordinal (some job)) action
        (some (ordinal, .began job.1 job.2)) { run with workers } (.ended ending ordinal none)

/-! ## Every step is a turn -/

/-- A list with one element in the middle. -/
theorem getElem?_middle
    {α : Type}
    {front back : List α}
    {middle found : α}
    {position : Nat}
    (present : (front ++ middle :: back)[position]? = some found) :
    found ∈ front ∨ found ∈ back ∨ (position = front.length ∧ found = middle) := by
  rcases Nat.lt_trichotomy position front.length with before | same | behind
  · rw [List.getElem?_append_left before] at present
    exact Or.inl (List.mem_of_getElem? present)
  · subst same
    simp only [List.getElem?_append_right (Nat.le_refl _), Nat.sub_self,
      List.getElem?_cons_zero, Option.some.injEq] at present
    exact Or.inr (Or.inr ⟨rfl, present.symm⟩)
  · obtain ⟨distance, rfl⟩ := Nat.exists_eq_add_of_lt behind
    rw [List.getElem?_append_right (by omega)] at present
    have shifted : front.length + distance + 1 - front.length = distance + 1 := by omega
    rw [shifted, List.getElem?_cons_succ] at present
    exact Or.inr (Or.inl (List.mem_of_getElem? present))

/-- What the new element has at its place, and all others elsewhere, all have. -/
theorem forall_getElem?_set
    {α : Type}
    {elements : List α}
    {next : α}
    {position : Nat}
    {property : Nat → α → Prop}
    (here : property position next)
    (elsewhere : ∀ place found, place ≠ position → elements[place]? = some found →
      property place found) :
    ∀ place found, (elements.set position next)[place]? = some found →
      property place found := by
  intro place found present
  by_cases same : position = place
  · subst same
    rw [List.getElem?_set_self'] at present
    obtain ⟨replaced, inside, rfl⟩ := Option.map_eq_some_iff.mp present
    exact here
  · rw [List.getElem?_set_ne same] at present
    exact elsewhere place found (Ne.symm same) present

theorem set_middle
    {α : Type}
    {front back : List α}
    {middle : α}
    {position : Nat}
    (here : position = front.length)
    (next : α) :
    (front ++ middle :: back).set position next = front ++ next :: back := by
  subst here
  rw [List.set_append_right _ _ (Nat.le_refl _), Nat.sub_self, List.set_cons_zero]

end Run

namespace Worker

variable {worker : Worker} {action : Action} {transition : Transition}

/-- A step that stops a worker either goes on unseen or has stopped it. -/
theorem OwnerMove.tenure_of_isStopAction
    (move : OwnerMove worker action transition)
    (stops : Run.isStopAction action = true) :
    (transition.event? = none ∧ transition.next.tenure ≠ .closed ∧
        transition.next.tenure ≠ .released) ∨
      (∃ exited, transition.event? = some (.terminated exited)) ∧
        transition.next.tenure = .closed := by
  cases move with
  | terminate | close | closeWithHandOver | closeWithCommand =>
      exact Or.inl ⟨rfl, nofun, nofun⟩
  | terminateAgain _ closed => exact Or.inr ⟨⟨true, rfl⟩, closed⟩
  | join => exact Or.inr ⟨⟨true, rfl⟩, rfl⟩
  | abandon => exact Or.inr ⟨⟨false, rfl⟩, rfl⟩
  | release => cases stops

end Worker

namespace Run

variable
  {settings : Settings}
  {clocks : Clocks}
  {stages : List Stage}
  {run : Run}

namespace Control.Expects

variable {ending : Ending} {position current : Nat} {tenure : Worker.Tenure}

/-- The worker that is being stopped may be in any state but the last two. -/
theorem of_current
    (unstopped : tenure ≠ .closed ∧ tenure ≠ .released) :
    Expects current tenure (.stopping ending current) :=
  ⟨fun before => absurd before (Nat.lt_irrefl _), fun _ => unstopped,
    fun behind => absurd behind (Nat.lt_irrefl _)⟩

/-- A worker that has been stopped is behind the one that is stopped next. -/
theorem of_stopped (closed : tenure = .closed) :
    Expects current tenure (.stopping ending (current + 1)) :=
  ⟨fun _ => closed, fun same => by omega, fun behind => by omega⟩

/-- To stop one worker leaves the expectations of the others alone. -/
theorem stop_next
    (expects : Expects position tenure (.stopping ending current))
    (elsewhere : position ≠ current) :
    Expects position tenure (.stopping ending (current + 1)) := by
  obtain ⟨stopped, _, serving⟩ := expects
  refine ⟨fun before => stopped (by omega), fun same => ?_, fun behind => serving (by omega)⟩
  rw [serving (by omega)]
  exact ⟨by simp, by simp⟩

/-- When the last worker has been stopped, the first one is given up. -/
theorem release_first
    (expects : Expects position tenure (.stopping ending current))
    (before : position < current) :
    Expects position tenure (.releasing ending 0) :=
  ⟨fun before => absurd before (Nat.not_lt_zero _), fun _ => expects.1 before⟩

theorem of_released (released : tenure = .released) :
    Expects current tenure (.releasing ending (current + 1)) :=
  ⟨fun _ => released, fun behind => by omega⟩

/-- To give up one worker leaves the expectations of the others alone. -/
theorem release_next
    (expects : Expects position tenure (.releasing ending current))
    (elsewhere : position ≠ current) :
    Expects position tenure (.releasing ending (current + 1)) :=
  ⟨fun before => expects.1 (by omega), fun behind => expects.2 (by omega)⟩

end Control.Expects

theorem lt_of_absent
    {α : Type}
    {elements : List α}
    {element : α}
    {position place : Nat}
    (absent : elements[position]? = none)
    (present : elements[place]? = some element) :
    place < position := by
  have inside := (List.getElem?_eq_some_iff.mp present).1
  have outside := List.getElem?_eq_none_iff.mp absent
  omega

/-- When the coordinator begins to stop the workers, all of them serve. -/
theorem Orderly.of_stopping
    {ending : Ending}
    {ordinal : Nat}
    {job? : Option Worker.Job}
    (stopping : run.control = .stopping ending 0)
    (workers : ∀ (position : Nat) (worker : Worker), run.workers[position]? = some worker →
      worker.Remains (position = ordinal) job? ∧ worker.tenure = .serving) :
    Orderly settings clocks stages run (.ended ending ordinal job?) := by
  refine .ended (by rw [stopping]; rfl) fun position worker found => ?_
  obtain ⟨remains, serving⟩ := workers position worker found
  refine ⟨remains, ?_⟩
  rw [stopping]
  refine ⟨fun before => absurd before (Nat.not_lt_zero _), fun _ => ?_, fun _ => serving⟩
  rw [serving]
  exact ⟨by simp, by simp⟩

/-- Nothing is left to do for the workers of a crew. -/
theorem remains_of_mem_crew
    {last : Prop}
    {job? : Option Worker.Job}
    {number : UInt64}
    {ordinal : Nat}
    {worker : Worker}
    (present : worker ∈ crew settings clocks number ordinal stages) :
    worker.Remains last job? ∧ worker.tenure = .serving := by
  obtain ⟨stage, position, rfl⟩ := atRest_of_mem_crew present
  exact ⟨.of_atRest stage position settings (clocks.stamp position) number, rfl⟩

/-- The last stage of a passage is the one with nothing ahead of it. -/
theorem Passage.isLast_eq
    (passage : Passage)
    (number : UInt64)
    (worker : Worker) :
    (passage.ordinal + 1 == (passage.crews settings clocks number worker).length) =
      passage.ahead.isEmpty := by
  unfold Passage.crews Passage.ordinal
  rw [List.length_append, List.length_cons, crew_length, crew_length]
  cases passage.ahead with
  | nil => simp
  | cons stage ahead =>
      rw [List.isEmpty_cons, beq_eq_false_iff_ne, List.length_cons]
      omega

/-- After the return of a call all workers are at rest but that of the call. -/
theorem Passage.remains_of_crews
    {job? : Option Worker.Job}
    {worker : Worker}
    (passage : Passage)
    (settings : Settings)
    (clocks : Clocks)
    (number : UInt64)
    (remains : worker.Remains True job?)
    (serving : worker.tenure = .serving) :
    ∀ (position : Nat) (found : Worker),
      (passage.crews settings clocks number worker)[position]? = some found →
      found.Remains (position = passage.ordinal) job? ∧ found.tenure = .serving := by
  intro position found present
  rcases getElem?_middle present with before | behind | ⟨rfl, rfl⟩
  · exact remains_of_mem_crew before
  · exact remains_of_mem_crew behind
  · rw [crew_length]
    exact ⟨remains.of_iff (by simp [Passage.ordinal]), serving⟩

/-- A run starts between two batches. -/
theorem Orderly.of_start
    {observer? : Option Observer}
    {batches : List Batch}
    (started : start? stages settings clocks observer? batches = some run) :
    Orderly settings clocks stages run .between := by
  obtain ⟨workers, spawned, result⟩ := Option.bind_eq_some_iff.mp started
  cases result
  exact .between rfl (spawnFrom?_eq_some spawned)

/-! ### Hops -/

/-- A batch goes on from a stage that is not the last one, under its own index. -/
theorem route_eq_next
    {index : Nat}
    {isLast : Bool}
    {output : StageOutput}
    {batch : Batch}
    (routed : route index isLast output = .next batch) :
    isLast = false ∧ output = .batch batch ∧ batch.index = index := by
  unfold route at routed
  grind

/-- A summary is the end of a batch at the last stage only. -/
theorem route_eq_finished
    {index : Nat}
    {isLast : Bool}
    {output : StageOutput}
    {summary : Summary}
    (routed : route index isLast output = .finished summary) :
    isLast = true := by
  unfold route at routed
  grind

/-- An observer's panic keeps the summary of a finished batch out of the run. -/
theorem completeBatch_cases
    (run : Run)
    (index : Nat)
    (summary : Summary) :
    ((run.completeBatch index summary).summaries = run.summaries ++ [summary] ∧
        (run.completeBatch index summary).control = .ready ∧
        ∀ observer ∈ run.observer?,
          observer.panics (run.told ++ [(index, summary)]) = false) ∨
      ((run.completeBatch index summary).summaries = run.summaries ∧
        (run.completeBatch index summary).control = .stopping .unwound 0 ∧
        ∃ observer ∈ run.observer?,
          observer.panics (run.told ++ [(index, summary)]) = true) := by
  unfold completeBatch
  cases run.observer? with
  | none => simp
  | some observer =>
      cases panics : observer.panics (run.told ++ [(index, summary)]) with
      | true => simp [panics, conclude]
      | false => simp [panics]

theorem completeBatch_waiting (run : Run) (index : Nat) (summary : Summary) :
    (run.completeBatch index summary).waiting = run.waiting := by
  unfold completeBatch
  split
  · rfl
  · simp only
    split <;> rfl

/-- A finished batch makes the turn of the next one. -/
theorem completeBatch_turn
    (run : Run)
    (index : Nat)
    (summary : Summary)
    (calm : ∀ observer ∈ run.observer?,
      observer.panics (run.told ++ [(index, summary)]) = false) :
    (run.completeBatch index summary).turn = run.turn + 1 := by
  rcases completeBatch_cases run index summary with
    ⟨summaries, -⟩ | ⟨-, -, observer, present, panics⟩
  · rw [turn, summaries, List.length_append]
    rfl
  · rw [calm observer present] at panics
    cases panics

/-- To complete a batch leaves the workers alone. -/
theorem completeBatch_workers
    (run : Run)
    (workers : List Worker)
    (index : Nat)
    (summary : Summary) :
    { run with workers }.completeBatch index summary =
      { run.completeBatch index summary with workers } := by
  unfold completeBatch
  cases run.observer? with
  | none => rfl
  | some observer =>
      simp only
      split <;> rfl

/-- The worker of a passage, waiting for the call with this number. -/
def Passage.host
    (passage : Passage)
    (settings : Settings)
    (clocks : Clocks)
    (number : UInt64) :
    Worker :=
  Worker.atRest passage.stage passage.ordinal settings (clocks.stamp passage.ordinal) number

/-- A run whose call has been answered. -/
def answered
    (run : Run)
    (passage : Passage)
    (settings : Settings)
    (clocks : Clocks) :
    Run :=
  { run with
    workers := passage.crews settings clocks run.number
      (passage.host settings clocks (run.number + 1)) }

/-- When the stage of a passage has answered, its worker is one call further than those ahead.
-/
theorem answered_workers (passage : Passage) :
    (run.answered passage settings clocks).workers =
      crew settings clocks (run.number + 1) 0 (passage.passed ++ [passage.stage]) ++
        crew settings clocks run.number (passage.ordinal + 1) passage.ahead := by
  rw [crew_append, List.append_assoc, Nat.zero_add]
  rfl

/-- When the stage of a passage has answered, nothing is left to do for any worker. -/
theorem remains_of_answered (passage : Passage) :
    ∀ (position : Nat) (found : Worker),
      (run.answered passage settings clocks).workers[position]? = some found →
      found.Remains (position = passage.ordinal) none ∧ found.tenure = .serving :=
  passage.remains_of_crews settings clocks run.number (.of_atRest _ _ _ _ _) rfl

/-- A stage that replies gives the reply of the reference. -/
theorem reply_of_eq_some
    {stage : Stage}
    {now : Timestamp}
    {batch : Batch}
    {reply : Reply}
    (replied : stage.reply? now batch = some reply) :
    Sequential.reply stage now batch = reply := by
  rw [Sequential.reply, replied]

/-- A stage that does not reply has killed its thread, which the reference tells. -/
theorem reply_of_eq_none
    {stage : Stage}
    {now : Timestamp}
    {batch : Batch}
    (silent : stage.reply? now batch = none) :
    Sequential.reply stage now batch =
      .error (.workerUnavailable stage.name "worker thread exited before replying") := by
  rw [Sequential.reply, silent]

section Arrivals

variable
  {passage : Passage}
  {action : Action}
  {output : StageOutput}

/-- The output of a stage goes on to the next one. -/
theorem Orderly.next_turn
    {batch : Batch}
    {next : Run}
    (passes : stages = passage.stages)
    (replied : passage.reply clocks run.turn = .ok output)
    (routed : route passage.index passage.ahead.isEmpty output = .next batch)
    (entry : Entry
      ((run.answered passage settings clocks).countHop passage.ordinal passage.batch.size
        output.recordCount)
      passage.index (passage.ordinal + 1) batch next) :
    ∃ position,
      Turn settings clocks stages run (.hop passage true) action
        (some (passage.ordinal, .answered passage.batch (.ok output))) next position ∧
      Orderly settings clocks stages next position := by
  have more := (route_eq_next routed).1
  rw [more] at routed
  cases ahead : passage.ahead with
  | nil => simp [ahead] at more
  | cons stage rest =>
      have workers : (run.answered passage settings clocks).workers =
          crew settings clocks (run.number + 1) 0 (passage.passed ++ [passage.stage]) ++
            Worker.atRest stage (passage.ordinal + 1) settings
                (clocks.stamp (passage.ordinal + 1)) run.number ::
              crew settings clocks run.number (passage.ordinal + 1 + 1) rest := by
        rw [answered_workers, ahead]
        rfl
      have here : passage.ordinal + 1 =
          (crew settings clocks (run.number + 1) 0
            (passage.passed ++ [passage.stage])).length := by
        rw [crew_length, List.length_append]
        rfl
      have found : (run.answered passage settings clocks).workers[passage.ordinal + 1]? =
          some (Worker.atRest stage (passage.ordinal + 1) settings
            (clocks.stamp (passage.ordinal + 1)) run.number) := by
        rw [workers, here, List.getElem?_append_right (Nat.le_refl _), Nat.sub_self]
        rfl
      cases entry with
      | nowhere absent =>
          have absent := found.symm.trans absent
          cases absent
      | claim present accepts free =>
          cases Option.some.inj (found.symm.trans present)
          refine ⟨_, .pass ahead replied routed, .hop ?_ ?_ ?_ .claimed⟩
          · rw [passes, Passage.stages, ahead, Passage.stages, Passage.onward]
            simp
          · rw [passage.onward_ordinal]
            rfl
          · rw [Passage.crews, passage.onward_ordinal]
            change (run.answered passage settings clocks).workers.set (passage.ordinal + 1) _ = _
            rw [workers, set_middle here]
            rfl
      | refuse present claimed =>
          cases Option.some.inj (found.symm.trans present)
          exact absurd rfl claimed

/-- The output of the last stage finishes the batch. -/
theorem Orderly.finished_turn
    {summary : Summary}
    (passes : stages = passage.stages)
    (replied : passage.reply clocks run.turn = .ok output)
    (routed : route passage.index passage.ahead.isEmpty output = .finished summary) :
    ∃ position,
      Turn settings clocks stages run (.hop passage true) action
        (some (passage.ordinal, .answered passage.batch (.ok output)))
        (((run.answered passage settings clocks).countHop passage.ordinal passage.batch.size
          output.recordCount).completeBatch passage.index summary) position ∧
      Orderly settings clocks stages
        (((run.answered passage settings clocks).countHop passage.ordinal passage.batch.size
          output.recordCount).completeBatch passage.index summary) position := by
  have last := route_eq_finished routed
  rw [last] at routed
  have empty : passage.ahead = [] := List.isEmpty_iff.mp last
  have workers : (run.answered passage settings clocks).workers =
      crew settings clocks (run.number + 1) 0 stages := by
    rw [answered_workers, passes, Passage.stages, empty]
    exact List.append_nil _
  have completed := completeBatch_workers
    (run.countHop passage.ordinal passage.batch.size output.recordCount)
    (run.answered passage settings clocks).workers passage.index summary
  change (((run.answered passage settings clocks).countHop _ _ _).completeBatch _ _) = _
    at completed
  rw [completed]
  rcases completeBatch_cases
      (run.countHop passage.ordinal passage.batch.size output.recordCount)
      passage.index summary with
    ⟨summaries, ready, calm⟩ | ⟨summaries, stopping, observer, present, panics⟩
  · refine ⟨_, .finish passes empty replied routed calm, .between ready ?_⟩
    rw [number, turn, summaries, List.length_append]
    simp only [workers]
    congr 1
    exact (UInt64.ofNat_add run.turn 1).symm
  · exact ⟨_, .unwind empty replied routed present panics,
      .of_stopping stopping (remains_of_answered passage)⟩

/-- A hop has returned with an answer of the stage. -/
theorem Orderly.arrival_turn
    {worker : Worker}
    {reply : Reply}
    {arrived : Run}
    (passes : stages = passage.stages)
    (named : worker.name = passage.stage.name)
    (replied : passage.reply clocks run.turn = reply)
    (arrival : Arrival (run.answered passage settings clocks) worker passage.index
      passage.ordinal passage.batch.size reply arrived) :
    ∃ position,
      Turn settings clocks stages run (.hop passage true) action
        (some (passage.ordinal, .answered passage.batch reply)) arrived position ∧
      Orderly settings clocks stages arrived position := by
  cases arrival with
  | fault => exact ⟨_, .fail replied, .of_stopping rfl (remains_of_answered passage)⟩
  | next routed entry =>
      rw [answered, Passage.isLast_eq] at routed
      exact Orderly.next_turn passes replied routed entry
  | finished routed =>
      rw [answered, Passage.isLast_eq] at routed
      exact Orderly.finished_turn passes replied routed
  | refused routed =>
      rw [answered, Passage.isLast_eq] at routed
      refine ⟨_, .refuse replied routed, .of_stopping ?_ (remains_of_answered passage)⟩
      rw [← named]
      rfl

/-- The call of a hop returns with a reply. -/
theorem Orderly.return_turn
    {begun : Bool}
    {worker next : Worker}
    {inner : Worker.Action}
    {reply : Reply}
    {arrived : Run}
    (passes : stages = passage.stages)
    (errand : Worker.Errand passage.stage passage.ordinal settings
      (clocks.stamp passage.ordinal) run.number passage.batch begun worker)
    (returned : Worker.ErrandReturn passage.stage passage.ordinal settings
      (clocks.stamp passage.ordinal) run.number passage.batch begun worker inner reply next)
    (arrival : Arrival
      { run with workers := passage.crews settings clocks run.number next } worker
      passage.index passage.ordinal passage.batch.size reply arrived) :
    ∃ position,
      Turn settings clocks stages run (.hop passage begun) (.client inner)
        (some (passage.ordinal, .answered passage.batch reply)) arrived position ∧
      Orderly settings clocks stages arrived position := by
  have remains := passage.remains_of_crews settings clocks run.number
    (.of_return errand returned trivial) (errand.return_tenure_eq returned)
  cases returned with
  | answered begins replied =>
      subst begins
      exact Orderly.arrival_turn passes errand.name_eq (reply_of_eq_some replied) arrival
  | lost begins silent =>
      subst begins
      cases arrival with
      | fault =>
          have failed : passage.reply clocks run.turn = .error worker.threadGone := by
            rw [Worker.threadGone, Worker.unavailable, errand.name_eq]
            exact reply_of_eq_none silent
          exact ⟨_, .fail failed, .of_stopping rfl remains⟩
  | late limited =>
      cases arrival with
      | fault => exact ⟨_, .expire limited, .of_stopping rfl remains⟩

end Arrivals

section Steps

variable {action : Action} {transition : Transition}

/-- Between two batches the coordinator takes the next one, or ends the run. -/
theorem Orderly.between_turn
    (ready : run.control = .ready)
    (workers : run.workers = crew settings clocks run.number 0 stages)
    (move : Move run action transition) :
    ∃ position, Turn settings clocks stages run .between action transition.event?
        transition.next position ∧
      Orderly settings clocks stages transition.next position := by
  have atEnd : ∀ (position : Nat) (worker : Worker), run.workers[position]? = some worker →
      worker.Remains (position = 0) none ∧ worker.tenure = .serving := by
    intro position worker found
    rw [workers] at found
    exact remains_of_mem_crew (List.mem_of_getElem? found)
  cases move with
  | thread found move =>
      rw [workers] at found
      obtain ⟨stage, ordinal, rfl⟩ := atRest_of_mem_crew (List.mem_of_getElem? found)
      exact absurd move Worker.ThreadMove.not_atRest
  | complete _ exhausted =>
      exact ⟨_, .complete exhausted, .of_stopping rfl atEnd⟩
  | @take batch rest next _ waiting entry =>
      cases entry with
      | nowhere absent =>
          have empty : stages = [] := by
            cases stages with
            | nil => rfl
            | cons stage ahead => simp [workers, crew] at absent
          exact ⟨_, .astray waiting empty, .of_stopping rfl atEnd⟩
      | @claim worker found accepts free =>
          cases stages with
          | nil => simp [workers, crew] at found
          | cons stage ahead =>
              have first : Worker.atRest stage 0 settings (clocks.stamp 0) run.number = worker := by
                simpa [workers, crew] using found
              subst first
              refine ⟨_, .take waiting rfl, .hop rfl rfl ?_ .claimed⟩
              simp only [workers, crew, List.set_cons_zero]
              rfl
      | refuse found claimed =>
          simp only [workers] at found
          obtain ⟨stage, ordinal, rfl⟩ := atRest_of_mem_crew (List.mem_of_getElem? found)
          exact absurd rfl claimed
  | call mismatch | arrive mismatch | stop mismatch | stopped mismatch | stoppedAll mismatch
  | release mismatch | releasedAll mismatch =>
      rw [ready] at mismatch
      cases mismatch

/-- During a hop one worker is on its errand and all others are at rest. -/
theorem Orderly.hop_turn
    {passage : Passage}
    {begun : Bool}
    {worker : Worker}
    (passes : stages = passage.stages)
    (hopping : run.control = .hop passage.index passage.ordinal passage.batch.size)
    (workers : run.workers = passage.crews settings clocks run.number worker)
    (errand : Worker.Errand passage.stage passage.ordinal settings
      (clocks.stamp passage.ordinal) run.number passage.batch begun worker)
    (move : Move run action transition) :
    ∃ position, Turn settings clocks stages run (.hop passage begun) action transition.event?
        transition.next position ∧
      Orderly settings clocks stages transition.next position := by
  have here : passage.ordinal =
      (crew settings clocks (run.number + 1) 0 passage.passed).length :=
    (crew_length 0 passage.passed).symm
  have replaced : ∀ next, run.workers.set passage.ordinal next =
      passage.crews settings clocks run.number next := by
    intro next
    rw [workers]
    exact set_middle here next
  have present : run.workers[passage.ordinal]? = some worker := by
    rw [workers]
    exact passage.crews_getElem? settings clocks run.number worker
  cases move with
  | thread found move =>
      rw [workers] at found
      rcases getElem?_middle found with before | behind | ⟨there, same⟩
      · obtain ⟨stage, position, rfl⟩ := atRest_of_mem_crew before
        exact absurd move Worker.ThreadMove.not_atRest
      · obtain ⟨stage, position, rfl⟩ := atRest_of_mem_crew behind
        exact absurd move Worker.ThreadMove.not_atRest
      · subst same
        rw [← here] at there
        subst there
        rcases errand.thread_step move with ⟨silent, onward⟩ | ⟨rfl, began, onward⟩
        · refine ⟨_, .inner ?_, .hop passes hopping (replaced _) onward⟩
          rw [silent]
          rfl
        · rw [began]
          exact ⟨_, .begin, .hop passes hopping (replaced _) onward⟩
  | call hopping' found ofCaller move unanswered =>
      cases hopping.symm.trans hopping'
      cases Option.some.inj (present.symm.trans found)
      rcases errand.caller_step move ofCaller with ⟨silent, onward⟩ | ⟨reply, answer, returned⟩
      · refine ⟨_, .inner ?_, .hop passes hopping (replaced _) onward⟩
        rw [silent]
        rfl
      · exact absurd answer (unanswered _ _)
  | arrive hopping' found ofCaller move arrival =>
      cases hopping.symm.trans hopping'
      cases Option.some.inj (present.symm.trans found)
      rcases errand.caller_step move ofCaller with ⟨silent, onward⟩ | ⟨reply, answer, returned⟩
      · cases silent
      · cases answer
        simp only [replaced] at arrival
        exact Orderly.return_turn passes errand returned arrival
  | complete mismatch | take mismatch | stop mismatch | stopped mismatch | stoppedAll mismatch
  | release mismatch | releasedAll mismatch =>
      rw [hopping] at mismatch
      cases mismatch

/-- At the end of a run the workers are stopped and given up one by one, while threads
may go on. -/
theorem Orderly.ended_turn
    {ending : Ending}
    {ordinal : Nat}
    {job? : Option Worker.Job}
    (ends : run.control.ending? = some ending)
    (workers : ∀ (position : Nat) (worker : Worker), run.workers[position]? = some worker →
      worker.Remains (position = ordinal) job? ∧ run.control.Expects position worker.tenure)
    (move : Move run action transition) :
    ∃ position,
      Turn settings clocks stages run (.ended ending ordinal job?) action transition.event?
        transition.next position ∧
      Orderly settings clocks stages transition.next position := by
  cases move with
  | @thread current action worker transition found move =>
      obtain ⟨remains, expects⟩ := workers _ _ found
      have expects : run.control.Expects current transition.next.tenure := by
        rw [move.tenure_eq]
        exact expects
      rcases remains.thread_step move with
        ⟨silent, remains⟩ | ⟨number, batch, rfl, rfl, began, remains⟩
      · refine ⟨_, .inner (by rw [silent]; rfl), .ended ends ?_⟩
        refine forall_getElem?_set ⟨remains, expects⟩ ?_
        intro place other _ present
        exact workers place other present
      · rw [began]
        refine ⟨_, .beginLate, .ended ends ?_⟩
        refine forall_getElem?_set ⟨remains, expects⟩ ?_
        intro place other elsewhere present
        obtain ⟨remains, expects⟩ := workers place other present
        exact ⟨remains.elsewhere elsewhere none, expects⟩
  | @stop ending current action worker next stopping found stops move =>
      have remains := (workers _ _ found).1.owner_step move
      refine ⟨_, .inner rfl, .ended ends ?_⟩
      refine forall_getElem?_set ?_ ?_
      · refine ⟨remains, ?_⟩
        rcases move.tenure_of_isStopAction stops with ⟨_, stopped⟩ | ⟨⟨exited, seen⟩, _⟩
        · simp only [stopping]
          exact .of_current stopped
        · cases seen
      · intro place other _ present
        exact workers place other present
  | @stopped ending current action worker next event stopping found stops move =>
      have remains := (workers _ _ found).1.owner_step move
      rw [stopping] at ends workers
      cases ends
      rcases move.tenure_of_isStopAction stops with ⟨unseen, _⟩ | ⟨⟨exited, seen⟩, closed⟩
      · cases unseen
      · cases seen
        refine ⟨_, .inner rfl, .ended rfl ?_⟩
        refine forall_getElem?_set ⟨remains, .of_stopped closed⟩ ?_
        intro place other elsewhere present
        obtain ⟨remains, expects⟩ := workers place other present
        exact ⟨remains, expects.stop_next elsewhere⟩
  | @stoppedAll ending current action stopping absent =>
      rw [stopping] at ends workers
      cases ends
      refine ⟨_, .inner rfl, .ended rfl fun place other present => ?_⟩
      obtain ⟨remains, expects⟩ := workers place other present
      exact ⟨remains, expects.release_first (lt_of_absent absent present)⟩
  | @release ending current action worker releasing found free closed =>
      have remains := (workers _ _ found).1.owner_step (.release free closed)
      rw [releasing] at ends workers
      cases ends
      refine ⟨_, .inner rfl, .ended rfl ?_⟩
      refine forall_getElem?_set ⟨remains, .of_released rfl⟩ ?_
      intro place other elsewhere present
      obtain ⟨remains, expects⟩ := workers place other present
      exact ⟨remains, expects.release_next elsewhere⟩
  | @releasedAll ending current action releasing absent =>
      rw [releasing] at ends workers
      cases ends
      refine ⟨_, .inner rfl, .ended rfl fun place other present => ?_⟩
      obtain ⟨remains, expects⟩ := workers place other present
      exact ⟨remains, expects.1 (lt_of_absent absent present)⟩
  | complete mismatch | take mismatch | call mismatch | arrive mismatch =>
      rw [mismatch] at ends
      cases ends

/-- Every step of an orderly run is a turn, and leaves the run orderly. -/
theorem Orderly.turn
    {position : Position}
    (orderly : Orderly settings clocks stages run position)
    (move : Move run action transition) :
    ∃ next, Turn settings clocks stages run position action transition.event?
        transition.next next ∧
      Orderly settings clocks stages transition.next next := by
  cases orderly with
  | between ready workers => exact Orderly.between_turn ready workers move
  | hop passes hopping workers errand =>
      exact Orderly.hop_turn passes hopping workers errand move
  | ended ends workers => exact Orderly.ended_turn ends workers move

end Steps

/-! ## Schedules -/

/-- One turn after the other. -/
inductive Turns (settings : Settings) (clocks : Clocks) (stages : List Stage) :
    Run → Position → List Action → List Event → Run → Position → Prop where
  | stay {run : Run} {position : Position} :
      Turns settings clocks stages run position [] [] run position
  | turn {run next reached : Run} {position onward last : Position} {action : Action}
      {event? : Option Event} {rest : List Action} {events : List Event} :
      Turn settings clocks stages run position action event? next onward →
      Turns settings clocks stages next onward rest events reached last →
      Turns settings clocks stages run position (action :: rest) (event?.toList ++ events)
        reached last

/-- Every schedule is a row of turns. -/
theorem Orderly.turns
    {position : Position}
    {schedule : List Action}
    {reached : Run}
    {events : List Event}
    (orderly : Orderly settings clocks stages run position)
    (executed : run.execute? schedule = some (reached, events)) :
    ∃ last, Turns settings clocks stages run position schedule events reached last ∧
      Orderly settings clocks stages reached last := by
  induction schedule generalizing run position events with
  | nil =>
      cases executed
      exact ⟨position, .stay, orderly⟩
  | cons action rest inductionHypothesis =>
      obtain ⟨transition, later, taken, continued, rfl⟩ := execute?_cons_eq_some executed
      obtain ⟨onward, turned, orderly⟩ := orderly.turn (.of_step taken)
      obtain ⟨last, followed, orderly⟩ := inductionHypothesis orderly continued
      exact ⟨last, .turn turned followed, orderly⟩

end Run
end StagePipeline
