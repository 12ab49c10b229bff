import StagePipeline.Summary
import StagePipeline.Proofs.Binary64.Extremes

/-!
# The bounds of summaries and totals

A summary starts from the infinities, which lose against every number, and empty summaries
leave the totals as they are.  So values that are summarised in groups come to the totals
that a summary over all of them tells, and the bounds are the least and the greatest number
wherever there is one.
-/

namespace StagePipeline

open Binary64

/-- A value strictly between the infinities. -/
def IsFinite (value : Float) : Prop :=
  negativeInfinity < value ∧ value < positiveInfinity

/-- A finite float is a number. -/
theorem IsFinite.isNaN_eq_false {value : Float} (finite : IsFinite value) :
    value.isNaN = false :=
  (lt_iff.mp finite.1).2.1

namespace Summary

variable {values : List Float} {value : Float}

/-- The least of two rows is the lesser of their least values. -/
theorem ofValues_append_least (values others : List Float) :
    (ofValues (values ++ others)).least = lesser (ofValues values).least (ofValues others).least :=
  lesser_picks.foldl_append positiveInfinity_isLast values others

/-- The greatest of two rows is the greater of their greatest values. -/
theorem ofValues_append_greatest (values others : List Float) :
    (ofValues (values ++ others)).greatest =
      greater (ofValues values).greatest (ofValues others).greatest :=
  greater_picks.foldl_append negativeInfinity_isLast values others

/-- As soon as a number is among the values, the least one comes before all numbers. -/
theorem leads_least (present : value ∈ values) (number : value.isNaN = false) :
    Leads (· ≤ ·) values (ofValues values).least :=
  lesser_picks.foldl_leads positiveInfinity_isLast present number

/-- As soon as a number is among the values, the greatest one comes behind all numbers. -/
theorem leads_greatest (present : value ∈ values) (number : value.isNaN = false) :
    Leads (· ≥ ·) values (ofValues values).greatest :=
  greater_picks.foldl_leads negativeInfinity_isLast present number

/-- The least of some finite values is one of them. -/
theorem first_least
    (finite : ∀ value ∈ values, IsFinite value)
    (nonempty : values ≠ []) :
    First (· ≤ ·) values (ofValues values).least := by
  have numbers := fun value present => (finite value present).isNaN_eq_false
  obtain ⟨value, present⟩ := List.exists_mem_of_ne_nil values nonempty
  exact (leads_least present (numbers value present)).first numbers

/-- The greatest of some finite values is one of them. -/
theorem first_greatest
    (finite : ∀ value ∈ values, IsFinite value)
    (nonempty : values ≠ []) :
    First (· ≥ ·) values (ofValues values).greatest := by
  have numbers := fun value present => (finite value present).isNaN_eq_false
  obtain ⟨value, present⟩ := List.exists_mem_of_ne_nil values nonempty
  exact (leads_greatest present (numbers value present)).first numbers

/-- Infinity loses against the first value. -/
theorem ofValues_cons_least
    {value : Float}
    (rest : List Float)
    (below : value < positiveInfinity) :
    (ofValues (value :: rest)).least = rest.foldl lesser value := by
  change rest.foldl lesser (lesser positiveInfinity value) = _
  rw [lesser_prefers.second (Or.inr below)]

/-- A first value above the lowest float takes the place of the initial bound. -/
theorem ofValues_cons_greatest
    {value : Float}
    (rest : List Float)
    (above : negativeInfinity < value) :
    (ofValues (value :: rest)).greatest = rest.foldl greater value := by
  change rest.foldl greater (greater negativeInfinity value) = _
  rw [greater_prefers.second (Or.inr above)]

@[simp] theorem ofValues_isEmpty (values : List Float) :
    (ofValues values).isEmpty = values.isEmpty := by
  cases values <;> rfl

end Summary

/-- A bound over some values: none if there are none, and otherwise the first one. -/
def IsBound (before : Float → Float → Prop) (values : List Float) : Option Float → Prop
  | none => values = []
  | some value => First before values value

namespace IsBound

variable
  {before : Float → Float → Prop}
  {values : List Float}
  {bound? : Option Float}

/-- Without values there is no bound. -/
theorem eq_none (bound : IsBound before values bound?) (nothing : values = []) :
    bound? = none := by
  cases bound? with
  | none => rfl
  | some value =>
      have among := First.among bound
      rw [nothing] at among
      cases among

/-- With values the bound is there, and is one of them. -/
theorem exists_first (bound : IsBound before values bound?) (something : values ≠ []) :
    ∃ value, bound? = some value ∧ First before values value := by
  cases bound? with
  | none => exact absurd bound something
  | some value => exact ⟨value, rfl, bound⟩

/-- A bound that is left out exactly if there are no values is one as described. -/
theorem of_first
    {value : Float}
    (first : values ≠ [] → First before values value) :
    IsBound before values (if values.length = 0 then none else some value) := by
  split
  · rename_i none
    exact List.length_eq_zero_iff.mp none
  · rename_i some
    exact first fun none => some (congrArg List.length none)

end IsBound

/-! ## Two levels of summaries -/

/-- Totals that say of some values what a summary over them says, where a bound over no
values is none. -/
structure Totals.Agrees (totals : Totals) (whole : Summary) : Prop where
  count : totals.count = whole.count
  least : totals.least = if whole.count = 0 then none else some whole.least
  greatest : totals.greatest = if whole.count = 0 then none else some whole.greatest

namespace Tally

variable
  {tally : Tally}
  {values : List Float}
  {groups : List (List Float)}

/-- A summary of no values leaves the bounds alone. -/
theorem push_bounds_of_isEmpty
    {summary : Summary}
    (tally : Tally)
    (nothing : summary.isEmpty = true) :
    (tally.push summary).least = tally.least ∧ (tally.push summary).greatest = tally.greatest := by
  simp only [push, nothing, if_true, and_self]

/-- A summary of some values is merged into both bounds. -/
theorem push_bounds
    {summary : Summary}
    (tally : Tally)
    (something : summary.isEmpty = false) :
    (tally.push summary).least = mergeBound lesser tally.least summary.least ∧
      (tally.push summary).greatest = mergeBound greater tally.greatest summary.greatest := by
  simp only [push, something, Bool.false_eq_true, if_false, and_self]

/-- A summary over some more values goes into the totals like the values themselves.  Over no
more values the tally keeps its bounds. -/
theorem agrees_push
    (agrees : tally.finish.Agrees (Summary.ofValues values))
    (others : List Float) :
    (tally.push (Summary.ofValues others)).finish.Agrees
      (Summary.ofValues (values ++ others)) := by
  have counted : (tally.push (Summary.ofValues others)).count = (values ++ others).length := by
    rw [push_count, Summary.ofValues_count, List.length_append]
    exact congrArg (· + others.length) agrees.count
  have least : tally.least =
      if values.length = 0 then none else some (Summary.ofValues values).least := agrees.least
  have greatest : tally.greatest =
      if values.length = 0 then none else some (Summary.ofValues values).greatest :=
    agrees.greatest
  cases others with
  | nil =>
      obtain ⟨sameLeast, sameGreatest⟩ := tally.push_bounds_of_isEmpty (Summary.ofValues_isEmpty [])
      rw [List.append_nil] at counted ⊢
      exact ⟨counted, sameLeast.trans least, sameGreatest.trans greatest⟩
  | cons other rest =>
      obtain ⟨newLeast, newGreatest⟩ :=
        tally.push_bounds (Summary.ofValues_isEmpty (other :: rest))
      have some : (Summary.ofValues (values ++ other :: rest)).count ≠ 0 := by simp
      refine ⟨counted, ?_, ?_⟩
      · rw [if_neg some, finish, newLeast, least]
        cases values with
        | nil => rfl
        | cons value front =>
            rw [Summary.ofValues_append_least]
            rfl
      · rw [if_neg some, finish, newGreatest, greatest]
        cases values with
        | nil => rfl
        | cons value front =>
            rw [Summary.ofValues_append_greatest]
            rfl

/-- What one group keeps, a row of groups keeps. -/
theorem agrees_foldl
    (agrees : tally.finish.Agrees (Summary.ofValues values))
    (groups : List (List Float)) :
    ((groups.map Summary.ofValues).foldl push tally).finish.Agrees
      (Summary.ofValues (values ++ groups.flatten)) := by
  induction groups generalizing tally values with
  | nil =>
      rw [List.flatten_nil, List.append_nil]
      exact agrees
  | cons group rest inductionHypothesis =>
      rw [List.flatten_cons, ← List.append_assoc]
      exact inductionHypothesis (agrees_push agrees group)

theorem foldl_push_batchCount (tally : Tally) (summaries : List Summary) :
    (summaries.foldl push tally).batchCount = tally.batchCount + summaries.length := by
  induction summaries generalizing tally with
  | nil => rfl
  | cons summary rest inductionHypothesis =>
      rw [List.foldl_cons, inductionHypothesis, push_batchCount, List.length_cons,
        Nat.add_right_comm, Nat.add_assoc]

/-- The totals of groups agree with the summary of all their values. -/
theorem ofList_agrees (groups : List (List Float)) :
    (ofList (groups.map Summary.ofValues)).finish.Agrees (Summary.ofValues groups.flatten) := by
  have empty : empty.finish.Agrees (Summary.ofValues []) := ⟨rfl, rfl, rfl⟩
  exact agrees_foldl empty groups

theorem foldl_push_count (tally : Tally) (summaries : List Summary) :
    (summaries.foldl push tally).count = tally.count + (summaries.map Summary.count).sum := by
  induction summaries generalizing tally with
  | nil => rfl
  | cons summary rest inductionHypothesis =>
      rw [List.foldl_cons, inductionHypothesis, push_count, List.map_cons, List.sum_cons,
        Nat.add_assoc]

theorem ofList_count (summaries : List Summary) :
    (ofList summaries).count = (summaries.map Summary.count).sum :=
  (foldl_push_count empty summaries).trans (Nat.zero_add _)

theorem ofList_batchCount (summaries : List Summary) :
    (ofList summaries).batchCount = summaries.length :=
  (foldl_push_batchCount empty summaries).trans (Nat.zero_add _)

/-! ## Finite values -/

/-- What a tally says of the values of the batches that it has counted. -/
structure Counts (tally : Tally) (batches : Nat) (values : List Float) : Prop where
  count : tally.count = values.length
  batchCount : tally.batchCount = batches
  least : IsBound (· ≤ ·) values tally.least
  greatest : IsBound (· ≥ ·) values tally.greatest

/-- The tally of the summaries of some batches counts all their values. -/
theorem ofList_counts
    (finite : ∀ group ∈ groups, ∀ value ∈ group, IsFinite value) :
    (ofList (groups.map Summary.ofValues)).Counts groups.length groups.flatten := by
  have all : ∀ value ∈ groups.flatten, IsFinite value := by
    intro value present
    obtain ⟨group, among, present⟩ := List.mem_flatten.mp present
    exact finite group among value present
  obtain ⟨count, least, greatest⟩ := ofList_agrees groups
  change (ofList (groups.map Summary.ofValues)).least = _ at least
  change (ofList (groups.map Summary.ofValues)).greatest = _ at greatest
  refine ⟨count, ?_, ?_, ?_⟩
  · rw [ofList_batchCount, List.length_map]
  · rw [least]
    exact .of_first (Summary.first_least all)
  · rw [greatest]
    exact .of_first (Summary.first_greatest all)

/-! ## Bounds as choices -/

/-- What is chosen among some values in a row, if there is one. -/
def foremost (choose : Float → Float → Float) : List Float → Option Float
  | [] => none
  | value :: rest => some (rest.foldl choose value)

/-- To merge the bounds of two rows is to go on from one row to the other. -/
theorem mergeBound_foremost
    (choose : Float → Float → Float)
    [Std.Associative choose]
    (values rest : List Float)
    (other : Float) :
    mergeBound choose (foremost choose values) (rest.foldl choose other) =
      foremost choose (values ++ other :: rest) := by
  cases values with
  | nil => rfl
  | cons value front =>
      simp only [foremost, mergeBound, List.cons_append, List.foldl_append, List.foldl_cons]
      rw [List.foldl_assoc]

/-- The bounds of a tally are those that are chosen among the values of all batches. -/
structure Bounds (tally : Tally) (values : List Float) : Prop where
  least : tally.least = foremost lesser values
  greatest : tally.greatest = foremost greater values

/-- However finite values are grouped, the bounds are the same. -/
theorem ofList_bounds
    (finite : ∀ group ∈ groups, ∀ value ∈ group, IsFinite value) :
    (ofList (groups.map Summary.ofValues)).Bounds groups.flatten := by
  obtain ⟨-, least, greatest⟩ := ofList_agrees groups
  change (ofList (groups.map Summary.ofValues)).least = _ at least
  change (ofList (groups.map Summary.ofValues)).greatest = _ at greatest
  cases flat : groups.flatten with
  | nil =>
      rw [flat] at least greatest
      exact ⟨least, greatest⟩
  | cons value rest =>
      have present : value ∈ groups.flatten := by
        rw [flat]
        exact List.mem_cons_self
      obtain ⟨group, among, present⟩ := List.mem_flatten.mp present
      obtain ⟨above, below⟩ := finite group among value present
      rw [flat, Summary.ofValues_cons_least rest below] at least
      rw [flat, Summary.ofValues_cons_greatest rest above] at greatest
      exact ⟨least, greatest⟩

end Tally
end StagePipeline
