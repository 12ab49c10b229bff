import Mathlib.Data.List.Chain
import StagePipeline.Proofs.Run.Course

/-!
# The itinerary of a run

The reference takes the batches from stage to stage in one fixed order, up to the first
fault: this is its itinerary.  A run begins its hops in the order of the itinerary,
under every schedule, and it begins no hop behind one that has failed.
-/

namespace StagePipeline

/-- A batch at a stage: the turn of the batch, the position of the stage, and what the
stage gets to see. -/
structure Hop where
  turn : Nat
  ordinal : Nat
  input : Batch

namespace Hop

def place (hop : Hop) : Nat × Nat :=
  (hop.turn, hop.ordinal)

/-- How the begin of a hop is seen: a position, and the job that is begun there. -/
def job (hop : Hop) : Nat × Worker.Job :=
  (hop.ordinal, UInt64.ofNat hop.turn, hop.input)

/-- The stage of a hop makes this output of its input. -/
def Yields (clocks : Clocks) (stages : List Stage) (hop : Hop) (output : StageOutput) : Prop :=
  ∃ stage, stages[hop.ordinal]? = some stage ∧
    stage.reply? (clocks.stamp hop.ordinal (UInt64.ofNat hop.turn)) hop.input =
      some (.ok output)

/-- A hop has not failed, and the hop behind it gets to see its output, unless that is the
first one of a batch. -/
def Feeds (clocks : Clocks) (stages : List Stage) (previous next : Hop) : Prop :=
  ∃ output, previous.Yields clocks stages output ∧
    (next.ordinal ≠ 0 → output = .batch next.input)

end Hop

/-- All hops of so many batches through so many stages, batch by batch, the first batch
in a given turn. -/
def grid (turn batches stages : Nat) : List (Nat × Nat) :=
  (List.range' turn batches).flatMap fun turn => (List.range stages).map (turn, ·)

/-! ## The reference -/

namespace Sequential

/-- The hops of a batch through the stages from a position on. -/
def batchHops (clocks : Clocks) (turn index ordinal : Nat) : List Stage → Batch → List Hop
  | [], _ => []
  | stage :: rest, batch =>
      ⟨turn, ordinal, batch⟩ ::
        match reply stage (clocks.stamp ordinal (UInt64.ofNat turn)) batch with
        | .error _ => []
        | .ok output =>
            match Run.route index rest.isEmpty output with
            | .next next => batchHops clocks turn index (ordinal + 1) rest next
            | .finished _ => []
            | .refused _ => []

/-- What is ahead after the hops of a batch: nothing if the batch fails. -/
def unlessFailed {α : Type} (result : Except Fault Summary) (ahead : List α) : List α :=
  match result with
  | .error _ => []
  | .ok _ => ahead

/-- The hops of batches through all stages, the first batch in a given turn. -/
def hops (clocks : Clocks) (stages : List Stage) : Nat → List Batch → List Hop
  | _, [] => []
  | turn, batch :: rest =>
      batchHops clocks turn batch.index 0 stages batch ++
        unlessFailed (passBatch clocks turn batch.index 0 stages batch)
          (hops clocks stages (turn + 1) rest)

/-- The hops of a batch go along the stages. -/
theorem batchHops_along
    (clocks : Clocks)
    (turn index ordinal : Nat)
    (stages : List Stage)
    (batch : Batch) :
    (batchHops clocks turn index ordinal stages batch).map Hop.place <+:
      (List.range' ordinal stages.length).map (turn, ·) := by
  induction stages generalizing ordinal batch with
  | nil => exact List.nil_prefix
  | cons stage rest inductionHypothesis =>
      rw [batchHops, List.length_cons, List.range'_succ, List.map_cons, List.map_cons]
      apply (List.prefix_cons_inj _).mpr
      split
      · exact List.nil_prefix
      · split
        · exact inductionHypothesis (ordinal + 1) _
        · exact List.nil_prefix
        · exact List.nil_prefix

/-- A batch that passes has a hop to every stage. -/
theorem batchHops_of_pass
    {clocks : Clocks}
    {turn index ordinal : Nat}
    {stages : List Stage}
    {batch : Batch}
    {summary : Summary}
    (passes : passBatch clocks turn index ordinal stages batch = .ok summary) :
    (batchHops clocks turn index ordinal stages batch).map Hop.place =
      (List.range' ordinal stages.length).map (turn, ·) := by
  induction stages generalizing ordinal batch with
  | nil => cases passes
  | cons stage rest inductionHypothesis =>
      rw [passBatch] at passes
      rw [batchHops, List.length_cons, List.range'_succ, List.map_cons, List.map_cons]
      cases replied : reply stage (clocks.stamp ordinal (UInt64.ofNat turn)) batch with
      | error fault =>
          rw [replied] at passes
          cases passes
      | ok output =>
          rw [replied] at passes
          cases routed : Run.route index rest.isEmpty output with
          | next next =>
              simp only [routed] at passes ⊢
              rw [inductionHypothesis passes]
              rfl
          | finished last =>
              have empty := List.isEmpty_iff.mp (Run.route_eq_finished routed)
              subst empty
              simp only [routed]
              rfl
          | refused reason =>
              simp only [routed] at passes
              cases passes

/-- The itinerary goes along the grid. -/
theorem hops_along
    (clocks : Clocks)
    (stages : List Stage)
    (turn : Nat)
    (batches : List Batch) :
    (hops clocks stages turn batches).map Hop.place <+:
      grid turn batches.length stages.length := by
  induction batches generalizing turn with
  | nil => exact List.nil_prefix
  | cons batch rest inductionHypothesis =>
      rw [hops, List.map_append, grid, List.length_cons, List.range'_succ, List.flatMap_cons,
        List.range_eq_range']
      cases passes : passBatch clocks turn batch.index 0 stages batch with
      | error fault =>
          rw [unlessFailed, List.map_nil, List.append_nil]
          exact (batchHops_along clocks turn batch.index 0 stages batch).trans
            (List.prefix_append _ _)
      | ok summary =>
          rw [batchHops_of_pass passes]
          have behind := inductionHypothesis (turn + 1)
          rw [grid, List.range_eq_range'] at behind
          exact (List.prefix_append_right_inj _).mpr behind

/-- The first hop of a batch gets to see the batch as it came in. -/
theorem batchHops_input
    {clocks : Clocks}
    {turn index ordinal : Nat}
    {stages : List Stage}
    {batch : Batch}
    {hop : Hop}
    (present : hop ∈ batchHops clocks turn index ordinal stages batch) :
    hop.turn = turn ∧ ordinal ≤ hop.ordinal ∧ (hop.ordinal = ordinal → hop.input = batch) := by
  induction stages generalizing ordinal batch with
  | nil => cases present
  | cons stage rest inductionHypothesis =>
      rw [batchHops] at present
      rcases List.mem_cons.mp present with rfl | present
      · exact ⟨rfl, Nat.le_refl _, fun _ => rfl⟩
      · split at present
        · cases present
        · split at present
          · obtain ⟨same, behind, -⟩ := inductionHypothesis present
            exact ⟨same, by omega, by omega⟩
          · cases present
          · cases present

theorem hops_input
    {clocks : Clocks}
    {stages : List Stage}
    {turn : Nat}
    {batches : List Batch}
    {hop : Hop}
    (present : hop ∈ hops clocks stages turn batches) :
    turn ≤ hop.turn ∧ (hop.ordinal = 0 → batches[hop.turn - turn]? = some hop.input) := by
  induction batches generalizing turn with
  | nil => cases present
  | cons batch rest inductionHypothesis =>
      rw [hops] at present
      rcases List.mem_append.mp present with present | present
      · obtain ⟨rfl, -, first⟩ := batchHops_input present
        refine ⟨Nat.le_refl _, fun starts => ?_⟩
        rw [first starts, Nat.sub_self]
        rfl
      · unfold unlessFailed at present
        split at present
        · cases present
        · obtain ⟨behind, first⟩ := inductionHypothesis present
          refine ⟨by omega, fun starts => ?_⟩
          have distance : hop.turn - turn = hop.turn - (turn + 1) + 1 := by omega
          rw [distance, List.getElem?_cons_succ]
          exact first starts

theorem batchHops_head?
    {clocks : Clocks}
    {turn index ordinal : Nat}
    {stages : List Stage}
    {batch : Batch}
    {hop : Hop}
    (first : hop ∈ (batchHops clocks turn index ordinal stages batch).head?) :
    hop = ⟨turn, ordinal, batch⟩ := by
  cases stages with
  | nil => cases first
  | cons stage rest =>
      cases first
      rfl

theorem hops_head?
    {clocks : Clocks}
    {stages : List Stage}
    {turn : Nat}
    {batches : List Batch}
    {hop : Hop}
    (first : hop ∈ (hops clocks stages turn batches).head?) :
    hop.ordinal = 0 := by
  cases batches with
  | nil => cases first
  | cons batch rest =>
      cases stages with
      | nil => cases first
      | cons stage behind =>
          cases first
          rfl

theorem reply?_of_ok
    {stage : Stage}
    {now : Timestamp}
    {batch : Batch}
    {output : StageOutput}
    (replied : reply stage now batch = .ok output) :
    stage.reply? now batch = some (.ok output) := by
  unfold reply at replied
  split at replied
  · rename_i given
    rw [given, replied]
  · cases replied

/-- Every hop of a batch gets to see the output of the hop before it. -/
theorem batchHops_chain
    (clocks : Clocks)
    (turn index : Nat)
    (passed stages : List Stage)
    (batch : Batch) :
    (batchHops clocks turn index passed.length stages batch).IsChain
      (Hop.Feeds clocks (passed ++ stages)) := by
  induction stages generalizing passed batch with
  | nil => exact .nil
  | cons stage rest inductionHypothesis =>
      rw [batchHops]
      split
      · exact .singleton _
      · rename_i output replied
        split
        · rename_i next routed
          have further := inductionHypothesis (passed ++ [stage]) next
          rw [List.length_append, List.append_assoc] at further
          refine .cons further fun hop first => ?_
          cases batchHops_head? first
          obtain ⟨-, rfl, -⟩ := Run.route_eq_next routed
          exact ⟨_, ⟨stage, by simp, reply?_of_ok replied⟩, fun _ => rfl⟩
        · exact .singleton _
        · exact .singleton _

/-- No hop of a batch that passes has failed. -/
theorem yields_of_pass
    {clocks : Clocks}
    {turn index : Nat}
    {passed stages : List Stage}
    {batch : Batch}
    {summary : Summary}
    {hop : Hop}
    (passes : passBatch clocks turn index passed.length stages batch = .ok summary)
    (present : hop ∈ batchHops clocks turn index passed.length stages batch) :
    ∃ output, hop.Yields clocks (passed ++ stages) output := by
  induction stages generalizing passed batch with
  | nil => cases present
  | cons stage rest inductionHypothesis =>
      rw [passBatch] at passes
      rw [batchHops] at present
      cases replied : reply stage (clocks.stamp passed.length (UInt64.ofNat turn)) batch with
      | error fault =>
          rw [replied] at passes
          cases passes
      | ok output =>
          rw [replied] at passes present
          rcases List.mem_cons.mp present with rfl | present
          · exact ⟨output, stage, by simp, reply?_of_ok replied⟩
          · cases routed : Run.route index rest.isEmpty output with
            | next next =>
                simp only [routed] at passes present
                have length_eq : passed.length + 1 = (passed ++ [stage]).length := by
                  rw [List.length_append]
                  rfl
                rw [length_eq] at passes present
                have further := inductionHypothesis passes present
                rwa [List.append_assoc] at further
            | finished last =>
                simp only [routed] at present
                cases present
            | refused reason =>
                simp only [routed] at present
                cases present

theorem hops_chain
    (clocks : Clocks)
    (stages : List Stage)
    (turn : Nat)
    (batches : List Batch) :
    (hops clocks stages turn batches).IsChain (Hop.Feeds clocks stages) := by
  induction batches generalizing turn with
  | nil => exact .nil
  | cons batch rest inductionHypothesis =>
      have own := batchHops_chain clocks turn batch.index [] stages batch
      rw [hops]
      cases passes : passBatch clocks turn batch.index 0 stages batch with
      | error fault =>
          rw [unlessFailed, List.append_nil]
          exact own
      | ok summary =>
          refine own.append (inductionHypothesis (turn + 1)) ?_
          intro previous last hop first
          have succeeds : ∃ output, previous.Yields clocks ([] ++ stages) output :=
            yields_of_pass passes (List.mem_of_getLast? last)
          obtain ⟨output, yields⟩ := succeeds
          exact ⟨output, yields, fun behind => absurd (hops_head? first) behind⟩

end Sequential

/-! ## Turns -/

namespace Run

open StagePipeline.Sequential

/-- What is begun under a schedule, in order. -/
def beginnings (events : List Event) : List (Nat × Worker.Job) :=
  events.filterMap Event.hop?

/-- The hops of a batch from a stage on, and then those of the batches that wait. -/
def passageHops
    (clocks : Clocks)
    (stages : List Stage)
    (run : Run)
    (index ordinal : Nat)
    (ahead : List Stage)
    (batch : Batch) :
    List Hop :=
  batchHops clocks run.turn index ordinal ahead batch ++
    unlessFailed (passBatch clocks run.turn index ordinal ahead batch)
      (hops clocks stages (run.turn + 1) run.waiting)

/-- What a run has yet to begin, if it follows the reference from a position on. -/
def itinerary (clocks : Clocks) (stages : List Stage) (run : Run) :
    Position → List (Nat × Worker.Job)
  | .between => (hops clocks stages run.turn run.waiting).map Hop.job
  | .hop passage begun =>
      ((passageHops clocks stages run passage.index passage.ordinal
        (passage.stage :: passage.ahead) passage.batch).drop begun.toNat).map Hop.job
  | .ended _ ordinal job? => (job?.map (ordinal, ·)).toList

variable
  {settings : Settings}
  {clocks : Clocks}
  {stages : List Stage}
  {run next reached : Run}
  {position onward last : Position}
  {action : Action}
  {event? : Option Event}

/-- After a hop the itinerary goes on as its stage replies. -/
theorem Passage.hops_eq (passage : Passage) :
    (passageHops clocks stages run passage.index passage.ordinal
        (passage.stage :: passage.ahead) passage.batch).drop 1 =
      match passage.reply clocks run.turn with
      | .error _ => []
      | .ok output =>
          match route passage.index passage.ahead.isEmpty output with
          | .next batch =>
              passageHops clocks stages run passage.index (passage.ordinal + 1) passage.ahead
                batch
          | .finished _ => hops clocks stages (run.turn + 1) run.waiting
          | .refused _ => [] := by
  rw [passageHops, passage.pass_eq, batchHops, List.cons_append, List.drop_succ_cons,
    List.drop_zero, Passage.reply]
  cases Sequential.reply passage.stage
      (clocks.stamp passage.ordinal (UInt64.ofNat run.turn)) passage.batch with
  | error fault => rfl
  | ok output =>
      simp only
      cases route passage.index passage.ahead.isEmpty output <;> rfl

/-- A turn begins what the itinerary has first, or nothing, and drops nothing but the end
of the itinerary. -/
theorem Turn.itinerary_kept
    (turned : Turn settings clocks stages run position action event? next onward) :
    (event?.bind Event.hop?).toList ++ itinerary clocks stages next onward <+:
      itinerary clocks stages run position := by
  cases turned with
  | inner silent =>
      rw [silent]
      cases position <;> exact List.prefix_rfl
  | begin => exact List.prefix_rfl
  | complete exhausted =>
      rw [itinerary, exhausted]
      exact List.prefix_rfl
  | astray waiting empty => exact List.nil_prefix
  | take waiting nonempty =>
      subst nonempty
      rw [itinerary, itinerary, waiting]
      exact List.prefix_rfl
  | @pass passage action output batch stage ahead workers control more replied routed =>
      have rest : itinerary clocks stages run (.hop passage true) =
          (passageHops clocks stages run passage.index (passage.ordinal + 1) (stage :: ahead)
            batch).map Hop.job := by
        rw [itinerary, Bool.toNat_true, passage.hops_eq, replied, more]
        simp only [List.isEmpty_cons, routed]
      rw [rest, itinerary, passage.onward_ordinal]
      exact List.prefix_rfl
  | @finish passage action output summary workers control passes empty replied routed returns =>
      have rest : itinerary clocks stages run (.hop passage true) =
          (hops clocks stages (run.turn + 1) run.waiting).map Hop.job := by
        rw [itinerary, Bool.toNat_true, passage.hops_eq, replied, empty]
        simp only [List.isEmpty_nil, routed]
      have turn_eq := completeBatch_turn
        (run.countHop passage.ordinal passage.batch.size output.recordCount)
        passage.index summary returns
      have waiting_eq := completeBatch_waiting
        (run.countHop passage.ordinal passage.batch.size output.recordCount)
        passage.index summary
      rw [turn] at turn_eq
      rw [rest, itinerary, turn, turn_eq, waiting_eq]
      exact List.prefix_rfl
  | unwind empty replied routed present panics => exact List.nil_prefix
  | refuse replied routed => exact List.nil_prefix
  | fail replied => exact List.nil_prefix
  | @expire passage begun limit workers control limited =>
      cases begun with
      | true => exact List.nil_prefix
      | false => exact ⟨_, rfl⟩
  | beginLate => exact List.prefix_rfl

theorem beginnings_append (events later : List Event) :
    beginnings (events ++ later) = beginnings events ++ beginnings later :=
  List.filterMap_append

theorem beginnings_toList (event? : Option Event) :
    beginnings event?.toList = (event?.bind Event.hop?).toList :=
  Worker.filterMap_toList Event.hop? event?

/-- What is begun under a schedule, and then what is left of the itinerary, is in the
itinerary from the beginning. -/
theorem Turns.itinerary_kept
    {schedule : List Action}
    {events : List Event}
    (turned : Turns settings clocks stages run position schedule events reached last) :
    beginnings events ++ itinerary clocks stages reached last <+:
      itinerary clocks stages run position := by
  induction turned with
  | stay => exact List.prefix_rfl
  | turn first followed inductionHypothesis =>
      rw [beginnings_append, beginnings_toList, List.append_assoc]
      exact ((List.prefix_append_right_inj _).mpr inductionHypothesis).trans
        first.itinerary_kept

/-! ## How many hops have been begun -/

/-- How many hops have been begun before a position, unless the run is at its end. -/
def begunBefore (stages : List Stage) (run : Run) : Position → Option Nat
  | .between => some (run.turn * stages.length)
  | .hop passage begun => some (run.turn * stages.length + passage.ordinal + begun.toNat)
  | .ended _ _ _ => none

theorem Turn.begunBefore
    {count : Nat}
    (turned : Turn settings clocks stages run position action event? next onward)
    (counted : begunBefore stages next onward = some count) :
    ∃ before, Run.begunBefore stages run position = some before ∧
      before + (event?.bind Event.hop?).toList.length = count := by
  cases turned with
  | inner silent =>
      rw [silent]
      refine ⟨count, ?_, rfl⟩
      cases position <;> exact counted
  | begin =>
      cases counted
      exact ⟨_, rfl, rfl⟩
  | take waiting nonempty =>
      cases counted
      exact ⟨_, rfl, rfl⟩
  | @pass passage action output batch stage ahead =>
      cases counted
      refine ⟨_, rfl, ?_⟩
      rw [passage.onward_ordinal]
      rfl
  | @finish passage action output summary workers control passes empty replied routed returns =>
      have turn_eq := completeBatch_turn
        (run.countHop passage.ordinal passage.batch.size output.recordCount)
        passage.index summary returns
      have length_eq : stages.length = passage.ordinal + 1 := by
        rw [passes, Passage.stages, empty, List.length_append]
        rfl
      rw [Run.begunBefore, Option.some.injEq] at counted
      refine ⟨_, rfl, ?_⟩
      rw [← counted, length_eq]
      change _ = ((run.countHop passage.ordinal passage.batch.size
        output.recordCount).completeBatch passage.index summary).turn * _
      rw [turn_eq, Nat.add_mul, Nat.one_mul]
      rfl
  | complete | astray | unwind | refuse | fail | expire | beginLate => cases counted

theorem Turns.begunBefore
    {schedule : List Action}
    {events : List Event}
    {count : Nat}
    (turned : Turns settings clocks stages run position schedule events reached last)
    (counted : begunBefore stages reached last = some count) :
    ∃ before, Run.begunBefore stages run position = some before ∧
      before + (beginnings events).length = count := by
  induction turned with
  | stay => exact ⟨count, counted, rfl⟩
  | turn first followed inductionHypothesis =>
      obtain ⟨middle, between, later⟩ := inductionHypothesis counted
      obtain ⟨before, start, earlier⟩ := first.begunBefore between
      refine ⟨before, start, ?_⟩
      rw [beginnings_append, beginnings_toList, List.length_append]
      omega

/-- When a hop ends a run, nothing is left to begin but that hop itself. -/
theorem Turn.length_add_le_one
    {passage : Passage}
    {begun : Bool}
    {ending : Ending}
    {ordinal : Nat}
    {job? : Option Worker.Job}
    (turned : Turn settings clocks stages run (.hop passage begun) action event? next
      (.ended ending ordinal job?)) :
    begun.toNat + ((event?.bind Event.hop?).toList ++
      itinerary clocks stages next (.ended ending ordinal job?)).length ≤ 1 := by
  cases turned with
  | unwind | refuse | fail => exact Nat.le_refl _
  | expire => cases begun <;> exact Nat.le_refl _

/-! ## The grid -/

theorem length_grid_row (turn stages : Nat) :
    ((List.range stages).map (turn, ·)).length = stages := by
  rw [List.length_map, List.length_range]

theorem grid_getElem?
    {turn batches stages position batch ordinal : Nat}
    (present : (grid turn batches stages)[position]? = some (batch, ordinal)) :
    turn ≤ batch ∧ ordinal < stages ∧ position = (batch - turn) * stages + ordinal := by
  induction batches generalizing turn position with
  | zero => cases present
  | succ batches inductionHypothesis =>
      rw [grid, List.range'_succ, List.flatMap_cons] at present
      by_cases inRow : position < stages
      · rw [List.getElem?_append_left (by rwa [length_grid_row]), List.getElem?_map] at present
        obtain ⟨place, found, same⟩ := Option.map_eq_some_iff.mp present
        cases same
        have there := List.getElem?_range inRow
        cases there.symm.trans found
        refine ⟨Nat.le_refl _, inRow, ?_⟩
        rw [Nat.sub_self, Nat.zero_mul, Nat.zero_add]
      · rw [List.getElem?_append_right (by rw [length_grid_row]; omega),
          length_grid_row] at present
        obtain ⟨behind, inside, counted⟩ := inductionHypothesis present
        refine ⟨by omega, inside, ?_⟩
        have rows : batch - turn = batch - (turn + 1) + 1 := by omega
        rw [rows, Nat.add_mul, Nat.one_mul]
        omega

/-! ## All schedules -/

/-- What holds of all hops that a run has begun, in order. -/
structure InOrder
    (clocks : Clocks)
    (stages : List Stage)
    (batches : List Batch)
    (hops : List Hop) :
    Prop where
  places : hops.map Hop.place <+: grid 0 batches.length stages.length
  first : ∀ hop ∈ hops, hop.ordinal = 0 → batches[hop.turn]? = some hop.input
  fed : hops.IsChain (Hop.Feeds clocks stages)

theorem InOrder.not_behind
    {batches : List Batch}
    {hops : List Hop}
    {turn ordinal : Nat}
    (inOrder : InOrder clocks stages batches hops)
    (within : ordinal < stages.length)
    (few : hops.length ≤ turn * stages.length + ordinal + 1)
    {hop : Hop}
    (present : hop ∈ hops) :
    hop.turn < turn ∨ hop.turn = turn ∧ hop.ordinal ≤ ordinal := by
  obtain ⟨position, inside, rfl⟩ := List.mem_iff_getElem.mp present
  obtain ⟨rest, whole⟩ := inOrder.places
  have found : (grid 0 batches.length stages.length)[position]? =
      some (hops[position].turn, hops[position].ordinal) := by
    rw [← whole, List.getElem?_append_left (by rwa [List.length_map]), List.getElem?_map,
      List.getElem?_eq_getElem inside]
    rfl
  obtain ⟨-, narrow, counted⟩ := grid_getElem? found
  rw [Nat.sub_zero] at counted
  rcases Nat.lt_trichotomy hops[position].turn turn with before | same | behind
  · exact Or.inl before
  · rw [same] at counted
    exact Or.inr ⟨same, by omega⟩
  · have rows : (turn + 1) * stages.length ≤ hops[position].turn * stages.length :=
      Nat.mul_le_mul_right _ behind
    rw [Nat.add_mul, Nat.one_mul] at rows
    omega

/-- When a hop ends a run, no schedule begins a hop behind it. -/
theorem beginnings_of_stopping
    {before after : List Action}
    {middle : Run}
    {early late : List Event}
    {transition : Transition}
    {index ordinal size place : Nat}
    {ending : Ending}
    (orderly : Orderly settings clocks stages run .between)
    (fresh : run.turn = 0)
    (reaches : run.execute? before = some (middle, early))
    (hopping : middle.control = .hop index ordinal size)
    (taken : middle.step action = some transition)
    (stops : transition.next.control = .stopping ending place)
    (continued : transition.next.execute? after = some (reached, late)) :
    ordinal < stages.length ∧
      (beginnings (early ++ (transition.event?.toList ++ late))).length ≤
        middle.turn * stages.length + ordinal + 1 := by
  obtain ⟨position, turned, orderly⟩ := orderly.turns reaches
  cases orderly with
  | between ready => rw [ready] at hopping; cases hopping
  | ended ends => rw [hopping] at ends; cases ends
  | @hop passage begun worker passes control workers errand =>
      cases control.symm.trans hopping
      obtain ⟨nothing, start, counted⟩ := turned.begunBefore rfl
      rw [begunBefore, fresh, Nat.zero_mul, Option.some.injEq] at start
      obtain ⟨onward, last, orderlyNext⟩ :=
        (Orderly.hop passes control workers errand).turn (.of_step taken)
      obtain ⟨final, followed, -⟩ := orderlyNext.turns continued
      cases orderlyNext with
      | between ready => rw [stops] at ready; cases ready
      | hop _ control' => rw [stops] at control'; cases control'
      | ended ends workers =>
          have few := last.length_add_le_one
          have rest := followed.itinerary_kept.length_le
          rw [List.length_append] at few rest
          refine ⟨?_, ?_⟩
          · rw [passes, Passage.stages, List.length_append, List.length_cons, Passage.ordinal]
            omega
          · rw [beginnings_append, beginnings_append, beginnings_toList, List.length_append,
              List.length_append]
            omega

/-- Only the worker at one position may apply its stage. -/
theorem Orderly.applying_place
    (orderly : Orderly settings clocks stages run position) :
    ∃ here, ∀ (place : Nat) (worker : Worker), run.workers[place]? = some worker →
      worker.isApplying = true → place = here := by
  cases orderly with
  | between ready workers =>
      refine ⟨0, fun place worker found applying => ?_⟩
      rw [workers] at found
      obtain ⟨stage, ordinal, rfl⟩ := atRest_of_mem_crew (List.mem_of_getElem? found)
      cases applying
  | @hop passage begun called passes hopping workers errand =>
      refine ⟨passage.ordinal, fun place worker found applying => ?_⟩
      rw [workers, Passage.crews] at found
      rcases getElem?_middle found with before | behind | ⟨here, -⟩
      · obtain ⟨stage, ordinal, rfl⟩ := atRest_of_mem_crew before
        cases applying
      · obtain ⟨stage, ordinal, rfl⟩ := atRest_of_mem_crew behind
        cases applying
      · rw [here, crew_length]
        rfl
  | @ended ending ordinal job? ends workers =>
      exact ⟨ordinal, fun place worker found applying =>
        ((workers place worker found).1.applying applying).1⟩

/-- Under every schedule a run begins its hops one after the other in the order of the
batches and stages, each only after the one before it has succeeded and with its output,
applies one stage at a time, and begins no hop behind one that has ended the run. -/
theorem hops_in_order
    {observer? : Option Observer}
    {batches : List Batch}
    {schedule : List Action}
    {events : List Event}
    (started : start? stages settings clocks observer? batches = some run)
    (executed : run.execute? schedule = some (reached, events)) :
    (∃ hops, beginnings events = hops.map Hop.job ∧ InOrder clocks stages batches hops ∧
      ∀ before action after middle early transition index ordinal size fault place,
        schedule = before ++ action :: after →
        run.execute? before = some (middle, early) →
        middle.control = .hop index ordinal size →
        middle.step action = some transition →
        transition.next.control = .stopping (.failed fault) place →
        ∀ hop ∈ hops,
          hop.turn < middle.turn ∨ hop.turn = middle.turn ∧ hop.ordinal ≤ ordinal) ∧
      ∀ (place other : Nat) (worker otherWorker : Worker),
        reached.workers[place]? = some worker → reached.workers[other]? = some otherWorker →
        worker.isApplying = true → otherWorker.isApplying = true → place = other := by
  have orderly := Orderly.of_start started
  obtain ⟨workers, spawned, result⟩ := Option.bind_eq_some_iff.mp started
  cases result
  obtain ⟨last, turned, orderlyReached⟩ := orderly.turns executed
  obtain ⟨here, unique⟩ := orderlyReached.applying_place
  refine ⟨?_, fun place other worker otherWorker found otherFound applying otherApplying =>
    (unique place worker found applying).trans
      (unique other otherWorker otherFound otherApplying).symm⟩
  have begins : beginnings events <+: (Sequential.hops clocks stages 0 batches).map Hop.job :=
    (List.prefix_append _ _).trans turned.itinerary_kept
  obtain ⟨hops, along, same⟩ := List.prefix_map_iff.mp begins
  have inOrder : InOrder clocks stages batches hops := by
    refine ⟨(along.map Hop.place).trans (hops_along clocks stages 0 batches),
      fun hop present starts => ?_, List.IsChain.prefix (hops_chain clocks stages 0 batches) along⟩
    have first := (hops_input (along.subset present)).2 starts
    rwa [Nat.sub_zero] at first
  refine ⟨hops, same, inOrder, ?_⟩
  rintro before action after middle early transition index ordinal size fault place rfl reaches
    hopping taken stops hop present
  obtain ⟨middle', early', late, reaches', continues, rfl⟩ := execute?_append_eq_some executed
  cases reaches.symm.trans reaches'
  obtain ⟨transition', later, taken', continued, rfl⟩ := execute?_cons_eq_some continues
  cases taken.symm.trans taken'
  obtain ⟨within, few⟩ :=
    beginnings_of_stopping orderly rfl reaches hopping taken stops continued
  rw [same, List.length_map] at few
  exact inOrder.not_behind within few present

/-- A deadline that passes when the thread has accepted a command, and has not begun its
stage. -/
def missed : List Action :=
  [.take, .client .inspect, .client .send, .thread 0 .receive, .thread 0 .check,
    .client .expire]

/-- The thread begins the hop whose deadline has passed. -/
theorem hops_in_order_missed :
    ∃ run reached events,
      start? Stage.builtin Settings.testing
        ⟨fun _ _ => default, fun _ _ => default, default⟩ none
        [⟨7, [.raw 0 "50"]⟩, ⟨7, [.raw 1 "60"]⟩] = some run ∧
      run.execute? (missed ++ [.thread 0 .begin]) = some (reached, events) ∧
      beginnings events = [(0, 0, ⟨7, [.raw 0 "50"]⟩)] ∧
      ∃ hops : List Hop, beginnings events = hops.map Hop.job ∧
        ∀ hop ∈ hops, hop.turn = 0 ∧ hop.ordinal = 0 := by
  have seen :
      ((start? Stage.builtin Settings.testing
        ⟨fun _ _ => default, fun _ _ => default, default⟩ none
        [⟨7, [.raw 0 "50"]⟩, ⟨7, [.raw 1 "60"]⟩]).bind fun run =>
          (run.execute? (missed ++ [.thread 0 .begin])).map fun result =>
            beginnings result.2) = some [(0, 0, ⟨7, [.raw 0 "50"]⟩)] := by
    decide +kernel
  obtain ⟨run, started, seen⟩ := Option.bind_eq_some_iff.mp seen
  obtain ⟨⟨reached, events⟩, executed, begins⟩ := Option.map_eq_some_iff.mp seen
  obtain ⟨⟨hops, same, inOrder, -⟩, -⟩ := hops_in_order started executed
  refine ⟨run, reached, events, started, executed, begins, hops, same, fun hop present => ?_⟩
  rw [begins] at same
  obtain ⟨only, rfl, -⟩ := List.map_eq_singleton_iff.mp same.symm
  obtain ⟨rest, whole⟩ := inOrder.places
  have place : only.place = (0, 0) := (List.cons.inj whole).1
  cases List.mem_singleton.mp present
  exact ⟨congrArg Prod.fst place, congrArg Prod.snd place⟩

end Run
end StagePipeline
