import Mathlib
import StagePipeline.Binary64

/-!
# The order of floats

All floats but the one that is not a number are ordered like triples of integers: by
class, then by exponent, then by significand.  From this the laws of the order follow,
as far as they hold for floats.
-/

namespace StagePipeline
namespace Binary64

open Float.Model

/-- The place of a number in the order. -/
structure Rank where
  level : Int
  exponent : Int
  significand : Int

namespace Rank

def Lt (left right : Rank) : Prop :=
  left.level < right.level ∨ left.level = right.level ∧
    (left.exponent < right.exponent ∨ left.exponent = right.exponent ∧
      left.significand < right.significand)

def Le (left right : Rank) : Prop :=
  left.level < right.level ∨ left.level = right.level ∧
    (left.exponent < right.exponent ∨ left.exponent = right.exponent ∧
      left.significand ≤ right.significand)

end Rank

/-- The rank of an unpacked float.  Both zeros have the same one. -/
def rankOf : UnpackedFloat → Rank
  | .notANumber => ⟨0, 0, 0⟩
  | .infinity .negative => ⟨-2, 0, 0⟩
  | .finite .negative significand exponent _ => ⟨-1, -exponent, -significand⟩
  | .zero _ => ⟨0, 0, 0⟩
  | .finite .positive significand exponent _ => ⟨1, exponent, significand⟩
  | .infinity .positive => ⟨2, 0, 0⟩

/-- The rank of a float. -/
def rank (value : Float) : Rank :=
  rankOf value.toModel.unpack

/-- Unpacked floats are compared by rank, and what is not a number is not compared. -/
theorem unpacked_lt_iff (left right : UnpackedFloat) :
    left.lt right = true ↔
      left ≠ .notANumber ∧ right ≠ .notANumber ∧ (rankOf left).Lt (rankOf right) := by
  rcases left with ⟨_ | _⟩ | _ | _ | ⟨_ | _, significand, exponent, positive⟩ <;>
    rcases right with
      ⟨_ | _⟩ | _ | _ | ⟨_ | _, otherSignificand, otherExponent, otherPositive⟩ <;>
      simp [UnpackedFloat.lt, UnpackedFloat.compare, rankOf, Rank.Lt]
  case infinity.negative.infinity.positive => rfl
  case finite.negative.finite.negative =>
      rw [Ordering.then_eq_gt, Int.compare_eq_gt, Int.compare_eq_eq, Nat.compare_eq_gt]
  case finite.positive.finite.positive =>
      rw [Ordering.then_eq_lt, Int.compare_eq_lt, Int.compare_eq_eq, Nat.compare_eq_lt]

theorem unpacked_le_iff (left right : UnpackedFloat) :
    left.le right = true ↔
      left ≠ .notANumber ∧ right ≠ .notANumber ∧ (rankOf left).Le (rankOf right) := by
  rcases left with ⟨_ | _⟩ | _ | _ | ⟨_ | _, significand, exponent, positive⟩ <;>
    rcases right with
      ⟨_ | _⟩ | _ | _ | ⟨_ | _, otherSignificand, otherExponent, otherPositive⟩ <;>
      simp [UnpackedFloat.le, UnpackedFloat.compare, rankOf, Rank.Le]
  case infinity.negative.infinity.negative => rfl
  case infinity.negative.infinity.positive => rfl
  case infinity.positive.infinity.negative => rfl
  case infinity.positive.infinity.positive => rfl
  case finite.negative.finite.negative =>
      rw [Ordering.isGE_iff_ne_lt, Ordering.then_eq_lt, Int.compare_eq_lt, Int.compare_eq_eq,
        Nat.compare_eq_lt]
      omega
  case finite.positive.finite.positive =>
      rw [Ordering.isLE_iff_ne_gt, Ordering.then_eq_gt, Int.compare_eq_gt, Int.compare_eq_eq,
        Nat.compare_eq_gt]
      omega

variable {left middle right value : Float}

theorem isNaN_iff : value.isNaN = true ↔ value.toModel.unpack = .notANumber := by
  unfold Float.isNaN Float.Model.isNaN
  exact UnpackedFloat.isNaN_iff

theorem isNaN_eq_false_iff : value.isNaN = false ↔ value.toModel.unpack ≠ .notANumber := by
  rw [← Bool.not_eq_true, isNaN_iff]

/-- One number is less than another if its rank is. -/
theorem lt_iff :
    left < right ↔ left.isNaN = false ∧ right.isNaN = false ∧ (rank left).Lt (rank right) := by
  rw [isNaN_eq_false_iff, isNaN_eq_false_iff]
  change decide (left.toModel < right.toModel) = true ↔ _
  rw [decide_eq_true_eq]
  exact unpacked_lt_iff _ _

/-- Floats are compared by rank, and what is not a number is not compared. -/
theorem le_iff :
    left ≤ right ↔ left.isNaN = false ∧ right.isNaN = false ∧ (rank left).Le (rank right) := by
  rw [isNaN_eq_false_iff, isNaN_eq_false_iff]
  change decide (left.toModel ≤ right.toModel) = true ↔ _
  rw [decide_eq_true_eq]
  exact unpacked_le_iff _ _

theorem le_refl (number : value.isNaN = false) : value ≤ value :=
  le_iff.mpr ⟨number, number, Or.inr ⟨rfl, Or.inr ⟨rfl, Int.le_refl _⟩⟩⟩

theorem le_of_lt (less : left < right) : left ≤ right := by
  obtain ⟨number, otherNumber, less⟩ := lt_iff.mp less
  refine le_iff.mpr ⟨number, otherNumber, ?_⟩
  unfold Rank.Lt at less
  unfold Rank.Le
  omega

/-- Of two numbers one is at most the other. -/
theorem le_of_not_lt
    (number : left.isNaN = false)
    (otherNumber : right.isNaN = false)
    (notLess : ¬right < left) :
    left ≤ right := by
  rw [lt_iff, not_and, not_and] at notLess
  refine le_iff.mpr ⟨number, otherNumber, ?_⟩
  have reversed := notLess otherNumber number
  unfold Rank.Lt at reversed
  unfold Rank.Le
  omega

theorem le_trans (first : left ≤ middle) (second : middle ≤ right) : left ≤ right := by
  obtain ⟨number, -, first⟩ := le_iff.mp first
  obtain ⟨-, otherNumber, second⟩ := le_iff.mp second
  refine le_iff.mpr ⟨number, otherNumber, ?_⟩
  unfold Rank.Le at first second ⊢
  omega

theorem lt_trans (first : left < middle) (second : middle < right) : left < right := by
  obtain ⟨number, -, first⟩ := lt_iff.mp first
  obtain ⟨-, otherNumber, second⟩ := lt_iff.mp second
  refine lt_iff.mpr ⟨number, otherNumber, ?_⟩
  unfold Rank.Lt at first second ⊢
  omega

theorem not_le_of_lt (less : left < right) : ¬right ≤ left := by
  intro reversed
  obtain ⟨-, -, less⟩ := lt_iff.mp less
  obtain ⟨-, -, reversed⟩ := le_iff.mp reversed
  unfold Rank.Lt at less
  unfold Rank.Le at reversed
  omega

/-! ## The smaller and the larger of two numbers -/

/-- To choose the one of two numbers that comes before the other. -/
structure Chooses (before : Float → Float → Prop) (choose : Float → Float → Float) : Prop where
  refl : ∀ {value}, value.isNaN = false → before value value
  trans : ∀ {left middle right}, before left middle → before middle right → before left right
  one : ∀ left right, choose left right = left ∨ choose left right = right
  first : ∀ {left right}, left.isNaN = false → right.isNaN = false →
    before (choose left right) left
  second : ∀ {left right}, left.isNaN = false → right.isNaN = false →
    before (choose left right) right

/-- To choose the second of two values exactly if it is ahead of the first, or if the first
is not a number.  A number that is ahead of another is ahead of every third one, or that one
is ahead of the other. -/
structure Prefers (ahead : Float → Float → Prop) (choose : Float → Float → Float) : Prop where
  second : ∀ {left right}, left.isNaN = true ∨ ahead right left → choose left right = right
  first : ∀ {left right}, left.isNaN = false → ¬ahead right left → choose left right = left
  number : ∀ {left right}, ahead left right → left.isNaN = false
  trans : ∀ {left middle right}, ahead left middle → ahead middle right → ahead left right
  between : ∀ {left right} middle, middle.isNaN = false → ahead left right →
    ahead left middle ∨ ahead middle right

/-- In a row of three it does not matter which choice is made first. -/
theorem Prefers.assoc
    {ahead : Float → Float → Prop}
    {choose : Float → Float → Float}
    (prefers : Prefers ahead choose)
    (left middle right : Float) :
    choose (choose left middle) right = choose left (choose middle right) := by
  cases leftNumber : left.isNaN with
  | true => rw [prefers.second (Or.inl leftNumber), prefers.second (Or.inl leftNumber)]
  | false =>
      by_cases middleAhead : ahead middle left
      · rw [prefers.second (Or.inr middleAhead)]
        by_cases rightAhead : ahead right middle
        · have across := prefers.trans rightAhead middleAhead
          rw [prefers.second (Or.inr rightAhead), prefers.second (Or.inr across)]
        · rw [prefers.first (prefers.number middleAhead) rightAhead,
            prefers.second (Or.inr middleAhead)]
      · rw [prefers.first leftNumber middleAhead]
        by_cases rightFirst : middle.isNaN = true ∨ ahead right middle
        · rw [prefers.second rightFirst]
        · obtain ⟨middleNumber, rightBehind⟩ := not_or.mp rightFirst
          rw [Bool.not_eq_true] at middleNumber
          have rightLast : ¬ahead right left := fun across =>
            (prefers.between middle middleNumber across).elim rightBehind middleAhead
          rw [prefers.first middleNumber rightBehind, prefers.first leftNumber rightLast,
            prefers.first leftNumber middleAhead]

/-- To choose what is ahead is to choose what comes before, if all that is ahead comes before
and all that is not ahead comes after. -/
theorem Prefers.chooses
    {ahead before : Float → Float → Prop}
    {choose : Float → Float → Float}
    (prefers : Prefers ahead choose)
    (refl : ∀ {value}, value.isNaN = false → before value value)
    (trans : ∀ {left middle right},
      before left middle → before middle right → before left right)
    (ofAhead : ∀ {left right}, ahead left right → before left right)
    (ofBehind : ∀ {left right}, left.isNaN = false → right.isNaN = false →
      ¬ahead right left → before left right) :
    Chooses before choose where
  refl
  trans
  one left right := by
    by_cases isSecond : left.isNaN = true ∨ ahead right left
    · exact Or.inr (prefers.second isSecond)
    · obtain ⟨number, behind⟩ := not_or.mp isSecond
      exact Or.inl (prefers.first (by simpa using number) behind)
  first {left right} number _ := by
    by_cases isAhead : ahead right left
    · rw [prefers.second (Or.inr isAhead)]
      exact ofAhead isAhead
    · rw [prefers.first number isAhead]
      exact refl number
  second {left right} number otherNumber := by
    by_cases isAhead : ahead right left
    · rw [prefers.second (Or.inr isAhead)]
      exact refl otherNumber
    · rw [prefers.first number isAhead]
      exact ofBehind number otherNumber isAhead

/-- A third number lies behind the smaller or ahead of the larger of two numbers. -/
theorem lt_or_lt_of_lt
    (less : left < right)
    (number : middle.isNaN = false) :
    left < middle ∨ middle < right := by
  obtain ⟨leftNumber, rightNumber, less⟩ := lt_iff.mp less
  rw [lt_iff, lt_iff]
  simp only [leftNumber, rightNumber, number, true_and]
  unfold Rank.Lt at *
  omega

/-- The lesser of two floats is the one in front, unless it is not a number. -/
theorem lesser_prefers : Prefers (· < ·) lesser where
  second ahead := by
    unfold lesser
    rw [if_pos]
    rwa [Bool.or_eq_true, decide_eq_true_eq]
  first number behind := by
    unfold lesser
    rw [if_neg]
    rwa [number, Bool.false_or, decide_eq_true_eq]
  number less := (lt_iff.mp less).1
  trans := lt_trans
  between _ number less := lt_or_lt_of_lt less number

/-- The greater of two floats is the one behind, unless it is not a number. -/
theorem greater_prefers : Prefers (· > ·) greater where
  second ahead := by
    unfold greater
    rw [if_pos]
    rwa [Bool.or_eq_true, decide_eq_true_eq]
  first number behind := by
    unfold greater
    rw [if_neg]
    rwa [number, Bool.false_or, decide_eq_true_eq]
  number more := (lt_iff.mp more).2.1
  trans first second := lt_trans second first
  between _ number more := (lt_or_lt_of_lt more number).symm

theorem lesser_chooses : Chooses (· ≤ ·) lesser :=
  lesser_prefers.chooses le_refl le_trans le_of_lt le_of_not_lt

theorem greater_chooses : Chooses (· ≥ ·) greater :=
  greater_prefers.chooses le_refl (fun first second => le_trans second first) le_of_lt
    fun number otherNumber behind => le_of_not_lt otherNumber number behind

instance : Std.Associative lesser :=
  ⟨lesser_prefers.assoc⟩

instance : Std.Associative greater :=
  ⟨greater_prefers.assoc⟩

/-! ## The least and the greatest of some numbers -/

/-- A number among others that comes before all of them. -/
structure First (before : Float → Float → Prop) (values : List Float) (value : Float) : Prop where
  among : value ∈ values
  before_all : ∀ other ∈ values, before value other

end Binary64
end StagePipeline
