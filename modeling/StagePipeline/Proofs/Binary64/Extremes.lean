import StagePipeline.Proofs.Binary64.Order

/-!
# The extremes of floats that need not be numbers

A choice among floats in a row leads to the least or the greatest number among them, and to
what is not a number only if nothing else is there.  Which value it is depends on the values
alone, and not on their order, up to the sign of zero: two numbers of which neither is less
are the same, or zeros.
-/

namespace StagePipeline
namespace Binary64

open Float.Model

variable {left right value other : Float}

/-! ## Values that are equal in the order -/

theorem unpacked_beq_of_le
    {left right : UnpackedFloat}
    (atMost : left.le right = true)
    (notLess : left.lt right = false) :
    left.beq right = true := by
  unfold UnpackedFloat.le at atMost
  unfold UnpackedFloat.lt at notLess
  unfold UnpackedFloat.beq
  cases compared : left.compare right with
  | none =>
      rw [compared] at atMost
      cases atMost
  | some ordering =>
      rw [compared] at atMost notLess
      cases ordering with
      | lt => cases notLess
      | eq => rfl
      | gt => cases atMost

/-- Floats that are at most each other are equal, and may still be opposite zeros. -/
theorem beq_of_le_of_le (first : left ≤ right) (second : right ≤ left) :
    (left == right) = true := by
  have notLess : ¬left < right := fun less => not_le_of_lt less second
  change decide (left.toModel ≤ right.toModel) = true at first
  change ¬decide (left.toModel < right.toModel) = true at notLess
  rw [decide_eq_true_eq] at first notLess
  exact unpacked_beq_of_le first (Bool.eq_false_iff.mpr notLess)

/-- Two zeros of different signs. -/
def OppositeZeros (left right : Float) : Prop :=
  left = 0 ∧ right = -0 ∨ left = -0 ∧ right = 0

/-- Numbers of which neither is less are the same, or zeros of different signs. -/
theorem eq_or_oppositeZeros (first : left ≤ right) (second : right ≤ left) :
    left = right ∨ OppositeZeros left right :=
  (Float.beq_iff_ne_nan_and_eq.mp (beq_of_le_of_le first second)).2.2

/-- There is only one value that is not a number. -/
theorem eq_of_isNaN (none : left.isNaN = true) (neither : right.isNaN = true) :
    left = right := by
  rw [Float.isNaN_eq_decide_eq_nan, decide_eq_true_eq] at none neither
  rw [none, neither]

/-! ## The first of some values -/

/-- A value among others that comes before all numbers among them. -/
structure Leads (before : Float → Float → Prop) (values : List Float) (value : Float) : Prop where
  among : value ∈ values
  before_numbers : ∀ other ∈ values, other.isNaN = false → before value other

/-- To choose the first of two values, where what is not a number comes last. -/
structure Picks (before : Float → Float → Prop) (choose : Float → Float → Float) : Prop
    extends Chooses before choose where
  number : ∀ {left right}, before left right → left.isNaN = false
  antisymm : ∀ {left right}, before left right → before right left →
    left = right ∨ OppositeZeros left right
  passes_first : ∀ {left right}, left.isNaN = true → choose left right = right
  passes_second : ∀ {left right}, left.isNaN = false → right.isNaN = true →
    choose left right = left

/-- The lesser of two floats picks the one in front. -/
theorem lesser_picks : Picks (· ≤ ·) lesser where
  toChooses := lesser_chooses
  number atMost := (le_iff.mp atMost).1
  antisymm := eq_or_oppositeZeros
  passes_first none := lesser_prefers.second (Or.inl none)
  passes_second number none := lesser_prefers.first number fun less => by
    rw [(lt_iff.mp less).1] at none
    cases none

/-- The greater of two floats picks the one behind. -/
theorem greater_picks : Picks (· ≥ ·) greater where
  toChooses := greater_chooses
  number atLeast := (le_iff.mp atLeast).2.1
  antisymm first second := eq_or_oppositeZeros second first
  passes_first none := greater_prefers.second (Or.inl none)
  passes_second number none := greater_prefers.first number fun more => by
    rw [(lt_iff.mp more).2.1] at none
    cases none

section Picks

variable
  {before : Float → Float → Prop}
  {choose : Float → Float → Float}
  {values others : List Float}

theorem Leads.singleton (picks : Picks before choose) (value : Float) :
    Leads before [value] value := by
  refine ⟨List.mem_singleton_self value, fun other present number => ?_⟩
  rw [List.mem_singleton] at present
  rw [present] at number ⊢
  exact picks.refl number

/-- The choice between two values that lead leads. -/
theorem Leads.append
    (picks : Picks before choose)
    (leads : Leads before values value)
    (otherLeads : Leads before others other) :
    Leads before (values ++ others) (choose value other) := by
  constructor
  · rcases picks.one value other with one | one
    · rw [one]
      exact List.mem_append_left _ leads.among
    · rw [one]
      exact List.mem_append_right _ otherLeads.among
  · intro candidate present number
    rcases List.mem_append.mp present with present | present
    · have ahead := leads.before_numbers candidate present number
      have valueNumber := picks.number ahead
      cases otherNumber : other.isNaN with
      | true => rwa [picks.passes_second valueNumber otherNumber]
      | false => exact picks.trans (picks.first valueNumber otherNumber) ahead
    · have ahead := otherLeads.before_numbers candidate present number
      have otherNumber := picks.number ahead
      cases valueNumber : value.isNaN with
      | true => rwa [picks.passes_first valueNumber]
      | false => exact picks.trans (picks.second valueNumber otherNumber) ahead

/-- What a fold chooses leads all that it goes over. -/
theorem Leads.foldl
    (picks : Picks before choose)
    (leads : Leads before values value) :
    Leads before (values ++ others) (others.foldl choose value) := by
  induction others generalizing values value with
  | nil => rwa [List.append_nil]
  | cons other rest inductionHypothesis =>
      rw [List.append_cons]
      exact inductionHypothesis (leads.append picks (.singleton picks other))

/-- What leads a number is a number. -/
theorem Leads.isNaN_eq_false
    (picks : Picks before choose)
    (leads : Leads before values value)
    (present : other ∈ values)
    (number : other.isNaN = false) :
    value.isNaN = false :=
  picks.number (leads.before_numbers other present number)

/-- What leads numbers is first among them. -/
theorem Leads.first
    (leads : Leads before values value)
    (numbers : ∀ other ∈ values, other.isNaN = false) :
    First before values value :=
  ⟨leads.among, fun other present => leads.before_numbers other present (numbers other present)⟩

/-- Which value leads depends on the values only, up to the sign of zero. -/
theorem Leads.eq_or_oppositeZeros
    (picks : Picks before choose)
    (leads : Leads before values value)
    (otherLeads : Leads before others other)
    (same : ∀ candidate, candidate ∈ values ↔ candidate ∈ others) :
    value = other ∨ OppositeZeros value other := by
  have valuePresent := (same value).mp leads.among
  have otherPresent := (same other).mpr otherLeads.among
  cases valueNumber : value.isNaN with
  | false =>
      have behind := otherLeads.before_numbers value valuePresent valueNumber
      have ahead := leads.before_numbers other otherPresent (picks.number behind)
      exact picks.antisymm ahead behind
  | true =>
      cases otherNumber : other.isNaN with
      | true => exact Or.inl (eq_of_isNaN valueNumber otherNumber)
      | false =>
          rw [leads.isNaN_eq_false picks otherPresent otherNumber] at valueNumber
          cases valueNumber

end Picks

/-! ## Folds that start from an infinity -/

/-- The infinite ranks are the outermost ones. -/
theorem not_rank_lt_rankOf (unpacked : Float.Model.UnpackedFloat) :
    ¬(⟨2, 0, 0⟩ : Rank).Lt (rankOf unpacked) ∧ ¬(rankOf unpacked).Lt ⟨-2, 0, 0⟩ := by
  rcases unpacked with ⟨_ | _⟩ | _ | _ | ⟨_ | _, significand, exponent, positive⟩ <;>
    simp [Rank.Lt, rankOf]

theorem not_positiveInfinity_lt (value : Float) : ¬positiveInfinity < value := by
  intro less
  exact (not_rank_lt_rankOf _).1 (lt_iff.mp less).2.2

theorem not_lt_negativeInfinity (value : Float) : ¬value < negativeInfinity := by
  intro less
  exact (not_rank_lt_rankOf _).2 (lt_iff.mp less).2.2

/-- A start that is a number and loses against every number. -/
structure IsLast (before : Float → Float → Prop) (choose : Float → Float → Float)
    (start : Float) : Prop where
  number : start.isNaN = false
  loses : ∀ {value}, value.isNaN = false → choose value start = value
  last : ∀ {value}, value.isNaN = false → before start value → value = start

/-- The positive infinity is last among what may be least. -/
theorem positiveInfinity_isLast : IsLast (· ≤ ·) lesser positiveInfinity where
  number := by decide +kernel
  loses number := lesser_prefers.first number (not_positiveInfinity_lt _)
  last number atMost := by
    have reversed := le_of_not_lt number (by decide +kernel) (not_positiveInfinity_lt _)
    refine (eq_or_oppositeZeros reversed atMost).resolve_right ?_
    rintro (⟨-, zero⟩ | ⟨-, zero⟩) <;> exact absurd zero (by decide +kernel)

/-- The negative infinity is last among what may be greatest. -/
theorem negativeInfinity_isLast : IsLast (· ≥ ·) greater negativeInfinity where
  number := by decide +kernel
  loses number := greater_prefers.first number (not_lt_negativeInfinity _)
  last number atLeast := by
    have reversed := le_of_not_lt (by decide +kernel) number (not_lt_negativeInfinity _)
    refine (eq_or_oppositeZeros atLeast reversed).resolve_right ?_
    rintro (⟨-, zero⟩ | ⟨-, zero⟩) <;> exact absurd zero (by decide +kernel)

section Folds

variable
  {before : Float → Float → Prop}
  {choose : Float → Float → Float}
  {start : Float}
  {values : List Float}

/-- A fold from the last start is a number, whatever it goes over. -/
theorem Picks.foldl_isNaN_eq_false
    (picks : Picks before choose)
    (last : IsLast before choose start)
    (values : List Float) :
    (values.foldl choose start).isNaN = false :=
  ((Leads.singleton picks start).foldl picks).isNaN_eq_false picks
    (List.mem_append_left values (List.mem_singleton_self start)) last.number

/-- Two folds from the last start come together to the one over both. -/
theorem Picks.foldl_append
    [Std.Associative choose]
    (picks : Picks before choose)
    (last : IsLast before choose start)
    (values others : List Float) :
    (values ++ others).foldl choose start =
      choose (values.foldl choose start) (others.foldl choose start) := by
  have number := picks.foldl_isNaN_eq_false last values
  calc
    _ = others.foldl choose (values.foldl choose start) := List.foldl_append
    _ = others.foldl choose (choose (values.foldl choose start) start) := by
        rw [last.loses number]
    _ = _ := List.foldl_assoc

/-- If there is a number, the last start does not show: the fold leads the values.  The start
could lead only if the number were as far back as it is. -/
theorem Picks.foldl_leads
    (picks : Picks before choose)
    (last : IsLast before choose start)
    (present : value ∈ values)
    (number : value.isNaN = false) :
    Leads before values (values.foldl choose start) := by
  have leads : Leads before (start :: values) (values.foldl choose start) :=
    (Leads.singleton picks start).foldl picks
  have ahead := fun other among => leads.before_numbers other (List.mem_cons_of_mem start among)
  refine ⟨?_, ahead⟩
  rcases List.mem_cons.mp leads.among with same | among
  · have behind := ahead value present number
    rw [same] at behind
    rwa [same, ← last.last number behind]
  · exact among

end Folds

end Binary64
end StagePipeline
