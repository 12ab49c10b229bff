import StagePipeline.Proofs.Totals

/-!
# The bounds of a summary

What is not a number loses against everything, so it can be left out of the values before
the bounds are chosen.  The numbers that remain decide the bounds alone: the least and the
greatest of them, in whatever order they come, and the infinities if none remains.
-/

namespace StagePipeline

open Binary64

namespace Binary64

variable
  {before : Float → Float → Prop}
  {choose : Float → Float → Float}
  {start value : Float}

/-- Those of some values that are numbers. -/
def numbers (values : List Float) : List Float :=
  values.filter fun value => !value.isNaN

theorem numbers_eq_nil_iff {values : List Float} :
    numbers values = [] ↔ ∀ value ∈ values, value.isNaN = true := by
  simp [numbers]

/-- The choice between a number and any value is a number. -/
theorem Picks.isNaN_choose
    (picks : Picks before choose)
    (number : start.isNaN = false)
    (value : Float) :
    (choose start value).isNaN = false := by
  cases valueNumber : value.isNaN with
  | true => rwa [picks.passes_second number valueNumber]
  | false => exact picks.number (picks.first number valueNumber)

/-- A fold from a number passes over what is not a number. -/
theorem Picks.foldl_numbers
    (picks : Picks before choose)
    (number : start.isNaN = false)
    (values : List Float) :
    (numbers values).foldl choose start = values.foldl choose start := by
  induction values generalizing start with
  | nil => rfl
  | cons value rest inductionHypothesis =>
      rw [numbers, List.filter_cons, List.foldl_cons]
      cases valueNumber : value.isNaN with
      | true =>
          rw [picks.passes_second number valueNumber]
          exact inductionHypothesis number
      | false => exact inductionHypothesis (picks.isNaN_choose number value)

end Binary64

namespace Summary

variable {values others : List Float}

theorem ofValues_numbers (values : List Float) :
    (ofValues (numbers values)).least = (ofValues values).least ∧
      (ofValues (numbers values)).greatest = (ofValues values).greatest :=
  ⟨lesser_picks.foldl_numbers positiveInfinity_isLast.number values,
    greater_picks.foldl_numbers negativeInfinity_isLast.number values⟩

/-- Values among which the numbers are the same have the same bounds. -/
theorem bounds_eq_of_numbers (same : numbers others = numbers values) :
    (ofValues others).least = (ofValues values).least ∧
      (ofValues others).greatest = (ofValues values).greatest := by
  obtain ⟨least, greatest⟩ := ofValues_numbers values
  rw [← same] at least greatest
  obtain ⟨otherLeast, otherGreatest⟩ := ofValues_numbers others
  exact ⟨otherLeast.symm.trans least, otherGreatest.symm.trans greatest⟩

/-- Without a number the bounds are those from which a summary starts. -/
theorem bounds_of_no_number (none : ∀ value ∈ values, value.isNaN = true) :
    (ofValues values).least = positiveInfinity ∧
      (ofValues values).greatest = negativeInfinity := by
  have same : numbers values = numbers [] := numbers_eq_nil_iff.mpr none
  exact bounds_eq_of_numbers same

theorem sameBound_of_perm (perm : others.Perm values) :
    SameBound values (some (ofValues others).least) (some (ofValues values).least) ∧
      SameBound values (some (ofValues others).greatest) (some (ofValues values).greatest) := by
  by_cases none : ∀ value ∈ values, value.isNaN = true
  · obtain ⟨least, greatest⟩ := bounds_of_no_number none
    obtain ⟨otherLeast, otherGreatest⟩ :=
      bounds_of_no_number fun value present => none value (perm.mem_iff.mp present)
    rw [least, greatest, otherLeast, otherGreatest]
    exact ⟨.same _, .same _⟩
  · push Not at none
    obtain ⟨value, present, number⟩ := none
    rw [ne_eq, Bool.not_eq_true] at number
    have among := perm.mem_iff.mpr present
    exact ⟨.of_leads lesser_picks perm (leads_least present number) (leads_least among number),
      .of_leads greater_picks perm (leads_greatest present number) (leads_greatest among number)⟩

/-- The bounds of a summary are exact.  If there is a number among the values, they are
values themselves and enclose every number; without one they are the infinities.  Neither
the order of the values nor what is not a number among them has a part in them, except for
the sign of zero, which the order decides if both zeros are there. -/
theorem bounds_exact (values : List Float) :
    (ofValues values).count = values.length ∧
    (∀ value ∈ values, value.isNaN = false →
      Leads (· ≤ ·) values (ofValues values).least ∧
      Leads (· ≥ ·) values (ofValues values).greatest) ∧
    ((∀ value ∈ values, value.isNaN = true) →
      (ofValues values).least = positiveInfinity ∧
      (ofValues values).greatest = negativeInfinity) ∧
    (∀ others, others.Perm values →
      (ofValues others).count = (ofValues values).count ∧
      SameBound values (some (ofValues others).least) (some (ofValues values).least) ∧
      SameBound values (some (ofValues others).greatest) (some (ofValues values).greatest)) ∧
    (∀ others, numbers others = numbers values →
      (ofValues others).least = (ofValues values).least ∧
      (ofValues others).greatest = (ofValues values).greatest) ∧
    ((ofValues values).bounds? = none ↔ values = []) ∧
    (values ≠ [] → (∀ value ∈ values, value.isNaN = false) →
      (ofValues values).bounds? = some ((ofValues values).least, (ofValues values).greatest) ∧
      (ofValues values).least ≤ (ofValues values).greatest) := by
  refine ⟨rfl, fun value present number => ?_, bounds_of_no_number, fun others perm => ?_,
    fun others => bounds_eq_of_numbers, ?_, fun something number => ?_⟩
  · exact ⟨leads_least present number, leads_greatest present number⟩
  · exact ⟨perm.length_eq, sameBound_of_perm perm⟩
  · cases values <;> simp [bounds?]
  · obtain ⟨value, present⟩ := List.exists_mem_of_ne_nil values something
    have least := (leads_least present (number value present)).before_numbers value present
      (number value present)
    have greatest := (leads_greatest present (number value present)).before_numbers value present
      (number value present)
    refine ⟨?_, le_trans least greatest⟩
    rw [bounds?, ofValues_isEmpty, List.isEmpty_eq_false_iff.mpr something]
    rfl

/-- Two numbers, and in front of them what is not a number. -/
def blurred : List Float :=
  [notANumber, 3, -2]

/-- The numbers are the bounds, also backwards, and also where they stand alone; without
them the bounds are the infinities. -/
theorem bounds_exact_blurred :
    (3 : Float) ∈ blurred ∧ (3 : Float).isNaN = false ∧
    Leads (· ≤ ·) blurred (-2) ∧ Leads (· ≥ ·) blurred 3 ∧
    blurred.reverse.Perm blurred ∧
    SameBound blurred (some (ofValues blurred.reverse).least) (some (-2)) ∧
    numbers [3, -2] = numbers blurred ∧ (ofValues [3, -2]).least = (ofValues blurred).least ∧
    ([3, -2] : List Float) ≠ [] ∧ (∀ value ∈ ([3, -2] : List Float), value.isNaN = false) ∧
    (ofValues [3, -2]).bounds? = some (-2, 3) ∧
    (∀ value ∈ [notANumber], value.isNaN = true) ∧
    (ofValues [notANumber]).least = positiveInfinity := by
  have present : (3 : Float) ∈ blurred := by simp [blurred]
  have number : (3 : Float).isNaN = false := by decide +kernel
  have perm : blurred.reverse.Perm blurred := List.reverse_perm blurred
  have same : numbers [3, -2] = numbers blurred := by decide +kernel
  have something : ([3, -2] : List Float) ≠ [] := List.cons_ne_nil _ _
  have sharp : ∀ value ∈ ([3, -2] : List Float), value.isNaN = false := by decide +kernel
  have blank : ∀ value ∈ [notANumber], value.isNaN = true := by decide +kernel
  have least : (ofValues blurred).least = -2 := by decide +kernel
  have greatest : (ofValues blurred).greatest = 3 := by decide +kernel
  obtain ⟨-, leads, -, reordered, reduced, -, -⟩ := bounds_exact blurred
  obtain ⟨leadsLeast, leadsGreatest⟩ := leads 3 present number
  obtain ⟨-, sameLeast, -⟩ := reordered _ perm
  obtain ⟨-, -, infinite, -, -, -, -⟩ := bounds_exact [notANumber]
  obtain ⟨-, -, -, -, -, -, enclosed⟩ := bounds_exact [3, -2]
  have bounds := (enclosed something sharp).1
  obtain ⟨reducedLeast, reducedGreatest⟩ := reduced _ same
  rw [reducedLeast, reducedGreatest, least, greatest] at bounds
  rw [least] at leadsLeast sameLeast
  rw [greatest] at leadsGreatest
  exact ⟨present, number, leadsLeast, leadsGreatest, perm, sameLeast, same, reducedLeast,
    something, sharp, bounds, blank, (infinite blank).1⟩

end Summary
end StagePipeline
