import StagePipeline.Proofs.Run.Refinement
import StagePipeline.Proofs.Worker.Retirement

/-!
# The workers that a run leaves

A run has a worker for every stage, whatever becomes of it.  Before it is over all of them
have been stopped and given up, also if it ends with a fault or a panic of the observer.
-/

namespace StagePipeline

namespace Run

variable {run next reached : Run} {action : Action} {transition : Transition}

theorem map_stage_set
    {workers : List Worker}
    {ordinal : Nat}
    {worker next : Worker}
    (found : workers[ordinal]? = some worker)
    (same : next.stage = worker.stage) :
    (workers.set ordinal next).map Worker.stage = workers.map Worker.stage := by
  obtain ⟨inside, rfl⟩ := List.getElem?_eq_some_iff.mp found
  rw [List.map_set, same, ← List.getElem_map Worker.stage, List.set_getElem_self]
  rwa [List.length_map]

theorem Entry.stages_eq
    {index ordinal : Nat}
    {batch : Batch}
    (entry : Entry run index ordinal batch next) :
    next.workers.map Worker.stage = run.workers.map Worker.stage := by
  cases entry with
  | claim found => exact map_stage_set found rfl
  | nowhere | refuse => rfl

theorem Arrival.stages_eq
    {worker : Worker}
    {index ordinal recordsIn : Nat}
    {reply : Reply}
    (arrival : Arrival run worker index ordinal recordsIn reply next) :
    next.workers.map Worker.stage = run.workers.map Worker.stage := by
  cases arrival with
  | next _ entry => exact entry.stages_eq
  | finished => rw [completeBatch_workers, countHop]
  | fault | refused => rfl

/-- The workers of a run stay those of its stages. -/
theorem Move.stages_eq (move : Move run action transition) :
    transition.next.workers.map Worker.stage = run.workers.map Worker.stage := by
  cases move with
  | thread found move => exact map_stage_set found (Worker.Move.thread move).fixed.1
  | take _ _ entry => exact entry.stages_eq
  | call _ found _ move => exact map_stage_set found (Worker.Move.caller move).fixed.1
  | arrive _ found _ move arrival =>
      exact arrival.stages_eq.trans (map_stage_set found (Worker.Move.caller move).fixed.1)
  | stop _ found _ move | stopped _ found _ move =>
      exact map_stage_set found (Worker.Move.owner move).fixed.1
  | release _ found => exact map_stage_set found rfl
  | complete | stoppedAll | releasedAll => rfl

/-- The workers of a crew stand in the order of its stages. -/
theorem crew_stages
    (settings : Settings)
    (clocks : Clocks)
    (number : UInt64)
    (ordinal : Nat)
    (stages : List Stage) :
    (crew settings clocks number ordinal stages).map Worker.stage = stages := by
  induction stages generalizing ordinal with
  | nil => rfl
  | cons stage rest inductionHypothesis =>
      rw [crew, List.map_cons, inductionHypothesis]
      rfl

/-- A run starts with one worker for each stage, in their order. -/
theorem start?_stages_eq
    {stages : List Stage}
    {settings : Settings}
    {clocks : Clocks}
    {observer? : Option Observer}
    {batches : List Batch}
    (started : start? stages settings clocks observer? batches = some run) :
    run.workers.map Worker.stage = stages := by
  obtain ⟨workers, spawned, result⟩ := Option.bind_eq_some_iff.mp started
  cases result
  rw [spawnFrom?_eq_some spawned, crew_stages]

/-! ## The end of a run -/

/-- When a run is over, its workers take nothing on any more.  It has given up the last one
then, and no call is in progress. -/
theorem Orderly.retired_of_over
    {settings : Settings}
    {clocks : Clocks}
    {stages : List Stage}
    {position : Position}
    {ending : Ending}
    (orderly : Orderly settings clocks stages run position)
    (ended : run.ending? = some ending) :
    ∀ worker ∈ run.workers, worker.Retired := by
  obtain ⟨ordinal, job?, rfl⟩ := orderly.position_of_over ended
  intro worker present
  obtain ⟨place, listed⟩ := List.mem_iff_getElem?.mp present
  cases orderly with
  | ended _ workers =>
      obtain ⟨remains, expects⟩ := workers place worker listed
      unfold ending? at ended
      split at ended
      · rename_i isOver
        rw [isOver] at expects
        have released : worker.tenure = .released := expects
        apply Worker.Retired.of_ended
        · rw [released]
          nofun
        · rw [remains.free]
          rfl
      · cases ended

end Run
end StagePipeline
