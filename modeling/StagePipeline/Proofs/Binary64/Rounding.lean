import Mathlib
import StagePipeline.Binary64

/-!
# How floats are rounded

A sum or a quotient of floats is first formed exactly, as a whole number of units of some
place with two more bits for what is behind it, and is then rounded to a place that leaves
53 bits.  So it is the rounded quotient of two natural numbers, and what is packed into the
bits of a float and unpacked again is still that.
-/

namespace StagePipeline
namespace Binary64

open Float.Model Float.Model.UnpackedFloat

/-! ## Rounded quotients -/

section RoundedQuotient

variable {numerator denominator bound : Nat}

theorem roundedQuotient_eq (numerator denominator : Nat) :
    roundedQuotient numerator denominator =
      if 2 * (numerator % denominator) < denominator then numerator / denominator
      else if 2 * (numerator % denominator) = denominator then
        numerator / denominator + numerator / denominator % 2
      else numerator / denominator + 1 :=
  rfl

/-- A quotient that does not exceed a whole number is not rounded beyond it. -/
theorem roundedQuotient_le
    (positive : 0 < denominator)
    (within : numerator ≤ bound * denominator) :
    roundedQuotient numerator denominator ≤ bound := by
  have below : numerator / denominator ≤ bound := Nat.div_le_of_le_mul (by rwa [Nat.mul_comm])
  have parts := Nat.div_add_mod numerator denominator
  have least := Nat.mod_lt numerator positive
  rw [roundedQuotient_eq]
  rcases Nat.lt_or_eq_of_le below with less | same
  · split
    · exact below
    · split <;> omega
  · rw [same, Nat.mul_comm] at parts
    rw [if_pos (by omega)]
    exact below

/-- Nor is one rounded beyond an even number that exceeds it by no more than a half. -/
theorem roundedQuotient_le_of_even
    (positive : 0 < denominator)
    (even : bound % 2 = 0)
    (within : 2 * numerator ≤ (2 * bound + 1) * denominator) :
    roundedQuotient numerator denominator ≤ bound := by
  have parts := Nat.div_add_mod numerator denominator
  have least := Nat.mod_lt numerator positive
  have below : numerator / denominator ≤ bound := by
    have less : numerator < (bound + 1) * denominator := by nlinarith
    exact Nat.le_of_lt_succ (Nat.div_lt_of_lt_mul (by rwa [Nat.mul_comm]))
  rw [roundedQuotient_eq]
  rcases Nat.lt_or_eq_of_le below with less | same
  · split
    · exact below
    · split <;> omega
  · rw [same] at parts ⊢
    have half : 2 * (numerator % denominator) ≤ denominator := by nlinarith
    split
    · exact Nat.le_refl bound
    · rw [if_pos (by omega), even, Nat.add_zero]

/-- A quotient is rounded to one of the whole numbers beside it. -/
theorem roundedQuotient_bounds (numerator denominator : Nat) :
    numerator / denominator ≤ roundedQuotient numerator denominator ∧
      roundedQuotient numerator denominator ≤ numerator / denominator + 1 := by
  rw [roundedQuotient_eq]
  split
  · omega
  · split <;> omega

theorem le_roundedQuotient
    (positive : 0 < denominator)
    (reaches : bound * denominator ≤ numerator) :
    bound ≤ roundedQuotient numerator denominator :=
  Nat.le_trans ((Nat.le_div_iff_mul_le positive).mpr reaches)
    (roundedQuotient_bounds numerator denominator).1

end RoundedQuotient

/-! ## Bits behind the mantissa -/

/-- A mantissa is the whole part of a quotient, and its two more bits say how what is left
compares to a half: whether it reaches a half, and whether it is anything but nothing or a
half. -/
structure Represents (numerator denominator : Nat) (extended : ExtendedMantissa) : Prop where
  mantissa : extended.mantissa = numerator / denominator
  roundBit : extended.roundBit = true ↔ denominator ≤ 2 * (numerator % denominator)
  stickyBit : extended.stickyBit = true ↔
    2 * (numerator % denominator) ≠ 0 ∧ 2 * (numerator % denominator) ≠ denominator

section Represents

variable
  {numerator denominator : Nat}
  {extended : ExtendedMantissa}

theorem Represents.roundedMantissa_eq
    (represents : Represents numerator denominator extended)
    (positive : 0 < denominator) :
    extended.roundedMantissa = roundedQuotient numerator denominator := by
  obtain ⟨mantissa, roundBit, stickyBit⟩ := extended
  obtain ⟨rfl, reaches, differs⟩ := represents
  rw [roundedQuotient_eq]
  simp only at reaches differs
  cases roundBit with
  | false =>
      have low : ¬denominator ≤ 2 * (numerator % denominator) := by simp [← reaches]
      rw [if_pos (by omega)]
      cases stickyBit with
      | false => rfl
      | true => rfl
  | true =>
      have high := reaches.mp rfl
      rw [if_neg (by omega)]
      cases stickyBit with
      | false =>
          have half : 2 * (numerator % denominator) = denominator := by
            have none := mt differs.mpr Bool.false_ne_true
            omega
          rw [if_pos half]
          rfl
      | true =>
          rw [if_neg (differs.mp rfl).2]
          rfl

theorem represents_exact (mantissa : Nat) :
    Represents mantissa 1 (.ofMantissaAndAccuracy mantissa .exact) where
  mantissa := (Nat.div_one mantissa).symm
  roundBit := by simp [ExtendedMantissa.ofMantissaAndAccuracy, Nat.mod_one]
  stickyBit := by simp [ExtendedMantissa.ofMantissaAndAccuracy, Nat.mod_one]

theorem represents_fraction (positive : 0 < denominator) :
    Represents numerator denominator
      (.ofMantissaAndAccuracy (numerator / denominator)
        (accuracyOfFraction (numerator % denominator) denominator)) := by
  unfold accuracyOfFraction
  split
  · rename_i none
    rw [ExtendedMantissa.ofMantissaAndAccuracy]
    refine ⟨rfl, ?_, ?_⟩
    · simp only [Bool.false_eq_true, none, false_iff]
      omega
    · simp [none]
  · rename_i some
    cases compared : compare (2 * (numerator % denominator)) denominator with
    | lt =>
        have less := Nat.compare_eq_lt.mp compared
        refine ⟨rfl, ?_, ?_⟩
        · simp only [ExtendedMantissa.ofMantissaAndAccuracy, Bool.false_eq_true, false_iff]
          omega
        · simp only [ExtendedMantissa.ofMantissaAndAccuracy, true_iff]
          omega
    | eq =>
        have tie := Nat.compare_eq_eq.mp compared
        refine ⟨rfl, ?_, ?_⟩
        · simp only [ExtendedMantissa.ofMantissaAndAccuracy, true_iff]
          omega
        · simp only [ExtendedMantissa.ofMantissaAndAccuracy, Bool.false_eq_true, false_iff]
          omega
    | gt =>
        have more := Nat.compare_eq_gt.mp compared
        refine ⟨rfl, ?_, ?_⟩
        · simp only [ExtendedMantissa.ofMantissaAndAccuracy, true_iff]
          omega
        · simp only [ExtendedMantissa.ofMantissaAndAccuracy, true_iff]
          omega

/-- What is left of a quotient by twice as much: the last bit of the quotient, and what was
left before. -/
theorem mod_two_mul (numerator denominator : Nat) :
    numerator % (2 * denominator) =
      numerator / denominator % 2 * denominator + numerator % denominator := by
  rw [Nat.mul_comm 2, Nat.mod_mul, Nat.mul_comm denominator, Nat.add_comm]

/-- One bit less is the quotient by twice as much. -/
theorem Represents.shiftRightOne
    (represents : Represents numerator denominator extended)
    (positive : 0 < denominator) :
    Represents numerator (2 * denominator) extended.shiftRightOne := by
  have least := Nat.mod_lt numerator positive
  refine ⟨?_, ?_, ?_⟩
  · rw [ExtendedMantissa.shiftRightOne, represents.mantissa, Nat.div_div_eq_div_mul,
      Nat.mul_comm]
  · rw [mod_two_mul]
    simp only [ExtendedMantissa.shiftRightOne, represents.mantissa, bne_iff_ne, ne_eq]
    rcases Nat.mod_two_eq_zero_or_one (numerator / denominator) with even | odd
    · rw [even]
      omega
    · rw [odd]
      omega
  · rw [mod_two_mul]
    simp only [ExtendedMantissa.shiftRightOne, Bool.or_eq_true, represents.roundBit,
      represents.stickyBit]
    rcases Nat.mod_two_eq_zero_or_one (numerator / denominator) with even | odd
    · rw [even]
      omega
    · rw [odd]
      omega

theorem Represents.shiftRight
    (represents : Represents numerator denominator extended)
    (positive : 0 < denominator)
    (count : Nat) :
    Represents numerator (2 ^ count * denominator) (extended >>> count) := by
  change Represents _ _ (count.repeat ExtendedMantissa.shiftRightOne extended)
  induction count with
  | zero => simpa [Nat.repeat] using represents
  | succ count inductionHypothesis =>
      rw [Nat.pow_succ', Nat.mul_assoc]
      exact inductionHypothesis.shiftRightOne (by positivity)

end Represents

/-! ## Rounding to a place -/

/-- The place to which so many units of another one are rounded, so that 53 bits are left. -/
def place (mantissa : Nat) (exponent : Int) : Int :=
  max (mantissa.log2 + 1 + exponent - 53) (-1074)

/-- A mantissa that fits and its exponent, such as a float has. -/
structure IsCanonical (mantissa : Nat) (exponent : Int) : Prop where
  below : mantissa < 2 ^ 53
  least : -1074 ≤ exponent
  full : exponent = -1074 ∨ 2 ^ 52 ≤ mantissa

/-- The number of units that a number is rounded to is all that is left of it: nothing if
there are none, and a carry if they no longer fit. -/
inductive IsRounded (sign : Sign) (units : Nat) (place : Int) : UnpackedFloat → Prop where
  | zero : units = 0 → IsRounded sign units place (.zero sign)
  | plain (positive : 0 < units) :
      IsCanonical units place → IsRounded sign units place (.finite sign units place positive)
  | carried (positive : 0 < 2 ^ 52) :
      units = 2 ^ 53 → IsCanonical (2 ^ 52) (place + 1) →
      IsRounded sign units place (.finite sign (2 ^ 52) (place + 1) positive)

section Rounding

variable
  {mantissa numerator denominator : Nat}
  {exponent : Int}
  {accuracy : Accuracy}

theorem shiftToTargetExponent_eq (mantissa : Nat) (exponent : Int) (accuracy : Accuracy) :
    shiftToTargetExponent .binary64 mantissa exponent accuracy =
      (ExtendedMantissa.ofMantissaAndAccuracy mantissa accuracy >>>
          (place mantissa exponent - exponent).toNat,
        exponent + (place mantissa exponent - exponent).toNat) :=
  rfl

theorem log2_lt_of_lt {bits : Nat} (less : mantissa < 2 ^ (bits + 1)) : mantissa.log2 ≤ bits := by
  by_cases zero : mantissa = 0
  · rw [zero, Nat.log2_zero]
    exact Nat.zero_le bits
  · exact Nat.le_of_lt_succ ((Nat.log2_lt zero).mpr less)

/-- The mantissa that is left behind a shift to the place of a number has 53 bits at most. -/
theorem div_lt_of_place (mantissa : Nat) (exponent : Int) :
    mantissa / 2 ^ (place mantissa exponent - exponent).toNat < 2 ^ 53 := by
  rw [Nat.div_lt_iff_lt_mul (by positivity), ← Nat.pow_add]
  have less : mantissa < 2 ^ (mantissa.log2 + 1) := Nat.lt_log2_self
  have room : mantissa.log2 + 1 ≤ 53 + (place mantissa exponent - exponent).toNat := by
    unfold place
    omega
  exact Nat.lt_of_lt_of_le less (Nat.pow_le_pow_right (by decide) room)

/-- It has exactly 53 bits, unless the place is the last one of all. -/
theorem le_div_of_place
    (above : place mantissa exponent ≠ -1074)
    (room : exponent ≤ place mantissa exponent)
    (positive : 0 < mantissa) :
    2 ^ 52 ≤ mantissa / 2 ^ (place mantissa exponent - exponent).toNat := by
  rw [Nat.le_div_iff_mul_le (by positivity), ← Nat.pow_add]
  have bits : 52 + (place mantissa exponent - exponent).toNat = mantissa.log2 := by
    unfold place at above room ⊢
    omega
  rw [bits]
  exact Nat.log2_self_le (Nat.ne_of_gt positive)

/-- A number that fits its place is not shifted. -/
theorem shift_eq_zero
    {units : Nat}
    {last : Int}
    (fits : units < 2 ^ 53)
    (least : -1074 ≤ last) :
    (place units last - last).toNat = 0 := by
  have bits := log2_lt_of_lt fits
  unfold place
  omega

/-- What is left after rounding is rounded no further, but for a carry. -/
theorem isRounded_of_units
    {units : Nat}
    {last : Int}
    (fits : units ≤ 2 ^ 53)
    (least : -1074 ≤ last)
    (full : last = -1074 ∨ 2 ^ 52 ≤ units)
    (sign : Sign) :
    IsRounded sign units last
      (if none :
          (ExtendedMantissa.ofMantissaAndAccuracy units .exact >>>
            (place units last - last).toNat).mantissa = 0 then .zero sign
      else
        .finite sign _ (last + (place units last - last).toNat) (Nat.pos_of_ne_zero none)) := by
  have shifted := (represents_exact units).shiftRight (by decide) (place units last - last).toNat
  rcases Nat.lt_or_eq_of_le fits with less | rfl
  · rw [shift_eq_zero less least] at shifted ⊢
    simp only [shifted.mantissa, Nat.pow_zero, Nat.mul_one, Nat.div_one, Int.natCast_zero,
      Int.add_zero]
    split
    · rename_i none
      exact .zero none
    · rename_i some
      exact .plain (Nat.pos_of_ne_zero some) ⟨less, least, full⟩
  · have bits : (2 ^ 53).log2 = 53 := Nat.log2_two_pow
    have one : (place (2 ^ 53) last - last).toNat = 1 := by
      unfold place
      omega
    rw [one] at shifted ⊢
    simp only [shifted.mantissa]
    exact .carried (by decide) rfl ⟨by decide, by omega, Or.inr (Nat.le_refl _)⟩

/-- A number that has been formed exactly is rounded to a quotient. -/
theorem isRounded_roundWithAccuracy
    (represents : Represents numerator denominator
      (ExtendedMantissa.ofMantissaAndAccuracy mantissa accuracy))
    (positive : 0 < denominator)
    (room : exponent ≤ place mantissa exponent)
    (sign : Sign) :
    IsRounded sign
      (roundedQuotient numerator
        (2 ^ (place mantissa exponent - exponent).toNat * denominator))
      (place mantissa exponent)
      (roundWithAccuracy .binary64 sign mantissa exponent accuracy) := by
  have shifted := represents.shiftRight positive (place mantissa exponent - exponent).toNat
  have rounded := shifted.roundedMantissa_eq (by positivity)
  have whole : numerator / (2 ^ (place mantissa exponent - exponent).toNat * denominator) =
      mantissa / 2 ^ (place mantissa exponent - exponent).toNat := by
    have same : mantissa = numerator / denominator := by
      rw [← represents.mantissa]
      cases accuracy with
      | exact => rfl
      | inexact order => cases order <;> rfl
    rw [Nat.mul_comm, ← Nat.div_div_eq_div_mul, ← same]
  have last : exponent + ((place mantissa exponent - exponent).toNat : Int) =
      place mantissa exponent := by omega
  unfold roundWithAccuracy
  simp only [shiftToTargetExponent_eq, last, rounded]
  refine isRounded_of_units ?_ (by unfold place; omega) ?_ sign
  · have below := div_lt_of_place mantissa exponent
    have beside := (roundedQuotient_bounds numerator
      (2 ^ (place mantissa exponent - exponent).toNat * denominator)).2
    omega
  · by_cases above : place mantissa exponent = -1074
    · exact Or.inl above
    · have some : 0 < mantissa := by
        rw [Nat.pos_iff_ne_zero]
        rintro rfl
        unfold place at above room
        rw [Nat.log2_zero] at above room
        omega
      refine Or.inr (Nat.le_trans (le_div_of_place above room some) ?_)
      rw [← whole]
      exact (roundedQuotient_bounds _ _).1

theorem log2_mul_two_pow (positive : 0 < mantissa) (count : Nat) :
    (mantissa * 2 ^ count).log2 = mantissa.log2 + count := by
  have some : mantissa ≠ 0 := Nat.ne_of_gt positive
  obtain ⟨lower, upper⟩ := (Nat.log2_eq_iff some).mp rfl
  refine (Nat.log2_eq_iff (by positivity)).mpr ⟨?_, ?_⟩
  · rw [Nat.pow_add]
    exact Nat.mul_le_mul_right _ lower
  · rw [Nat.add_right_comm, Nat.pow_add]
    exact Nat.mul_lt_mul_of_pos_right upper (by positivity)

/-- A number of units that stands for itself is rounded to a quotient, too. -/
theorem isRounded_round (positive : 0 < mantissa) (exponent : Int) (sign : Sign) :
    IsRounded sign
      (roundedQuotient (mantissa * 2 ^ (exponent - place mantissa exponent).toNat)
        (2 ^ (place mantissa exponent - exponent).toNat))
      (place mantissa exponent)
      (round .binary64 sign mantissa exponent) := by
  have spread : place (mantissa * 2 ^ (exponent - place mantissa exponent).toNat)
      (exponent - (exponent - place mantissa exponent).toNat) = place mantissa exponent := by
    rw [place, log2_mul_two_pow positive]
    unfold place
    omega
  have shift : (place mantissa exponent -
        (exponent - ((exponent - place mantissa exponent).toNat : Int))).toNat =
      (place mantissa exponent - exponent).toNat := by
    omega
  have rounded := isRounded_roundWithAccuracy
    (represents_exact (mantissa * 2 ^ (exponent - place mantissa exponent).toNat)) Nat.one_pos
    (by rw [spread]; omega) sign
  rw [spread, shift, Nat.mul_one] at rounded
  rw [← Nat.shiftLeft_eq] at rounded ⊢
  exact rounded

end Rounding

/-! ## Packing -/

section Packing

variable
  {sign : Sign}
  {mantissa : Nat}
  {exponent : Int}

theorem unpack_pack_infinity (sign : Sign) :
    (pack (.infinity sign)).unpack = .infinity sign := by
  cases sign
  · rfl
  · rfl

theorem unpack_pack_zero (sign : Sign) : (pack (.zero sign)).unpack = .zero sign := by
  cases sign
  · rfl
  · rfl

theorem unpack_pack_notANumber : (pack .notANumber).unpack = .notANumber :=
  rfl

/-- A number that is too large for its bits is packed into infinity. -/
theorem unpack_pack_large (positive : 0 < mantissa) (large : 971 < exponent) :
    (pack (.finite sign mantissa exponent positive)).unpack = .infinity sign := by
  have bits : UnpackedFloat.pack .binary64 (.finite sign mantissa exponent positive) =
      packedInfinity .binary64 sign := by
    have beyond : 2 ^ 11 ≤ (exponent + (1023 : Nat) + (52 : Nat)).toNat + 1 := by omega
    exact if_pos beyond
  rw [← unpack_pack_infinity sign]
  exact congrArg (UnpackedFloat.unpack .binary64) bits

/-- A mantissa of 53 bits is the first one and the other ones. -/
theorem toNat_append_implicit (full : 2 ^ 52 ≤ mantissa) (below : mantissa < 2 ^ 53) :
    (1#1 ++ BitVec.ofNat 52 mantissa).toNat = mantissa := by
  rw [BitVec.toNat_append, ← Nat.shiftLeft_add_eq_or_of_lt (BitVec.isLt _), BitVec.toNat_ofNat,
    Nat.shiftLeft_eq]
  simp only [BitVec.toNat_ofNat]
  omega

theorem ofNat_ne_zero {bits value : Nat} (some : 0 < value) (fits : value < 2 ^ bits) :
    BitVec.ofNat bits value ≠ BitVec.ofNat bits 0 := by
  intro none
  have same := congrArg BitVec.toNat none
  rw [BitVec.toNat_ofNat, Nat.mod_eq_of_lt fits, BitVec.toNat_zero] at same
  omega

/-- A canonical number comes back if it is not too large. -/
theorem unpack_pack_finite
    (positive : 0 < mantissa)
    (canonical : IsCanonical mantissa exponent)
    (small : exponent ≤ 971) :
    (pack (.finite sign mantissa exponent positive)).unpack =
      .finite sign mantissa exponent positive := by
  obtain ⟨below, least, full⟩ := canonical
  change UnpackedFloat.unpack .binary64 (UnpackedFloat.pack .binary64 _) = _
  have within : ¬2 ^ 11 ≤ (exponent + (1023 : Nat) + (52 : Nat)).toNat + 1 := by omega
  by_cases normal : 2 ^ 52 ≤ mantissa
  · have bits : mantissa.log2 + 1 = 53 := by
      rw [(Nat.log2_eq_iff (Nat.ne_of_gt positive)).mpr ⟨normal, below⟩]
    have packed : UnpackedFloat.pack .binary64 (.finite sign mantissa exponent positive) =
        packComponents .binary64 sign
          (BitVec.ofNat 11 (exponent + (1023 : Nat) + (52 : Nat)).toNat)
          (BitVec.ofNat 52 mantissa) :=
      (if_neg within).trans (if_pos bits)
    rw [packed, UnpackedFloat.unpack]
    simp only [unpackMantissa_packComponents, unpackExponent_packComponents,
      unpackSign_packComponents, Sign.ofBitVec_toBitVec]
    have biased : (BitVec.ofNat 11 (exponent + (1023 : Nat) + (52 : Nat)).toNat).toNat =
        (exponent + (1023 : Nat) + (52 : Nat)).toNat := by
      rw [BitVec.toNat_ofNat, Nat.mod_eq_of_lt (by omega)]
    have notLast : BitVec.ofNat 11 (exponent + (1023 : Nat) + (52 : Nat)).toNat ≠ -1#11 := by
      intro last
      have same := congrArg BitVec.toNat last
      rw [biased] at same
      change _ = 2047 at same
      omega
    rw [if_neg notLast, if_neg (ofNat_ne_zero (by omega) (by omega))]
    simp only [toNat_append_implicit normal below, biased]
    congr 1
    change _ - (((1023 : Nat) : Int) + (52 : Nat)) = exponent
    omega
  · have bits : ¬mantissa.log2 + 1 = 53 := by
      have less := (Nat.log2_lt (Nat.ne_of_gt positive)).mpr (Nat.lt_of_not_le normal)
      omega
    have packed : UnpackedFloat.pack .binary64 (.finite sign mantissa exponent positive) =
        packComponents .binary64 sign 0#11 (BitVec.ofNat 52 mantissa) :=
      (if_neg within).trans (if_neg bits)
    rw [packed, UnpackedFloat.unpack]
    simp only [unpackMantissa_packComponents, unpackExponent_packComponents,
      unpackSign_packComponents, Sign.ofBitVec_toBitVec]
    have kept : (BitVec.ofNat 52 mantissa).toNat = mantissa := by
      rw [BitVec.toNat_ofNat, Nat.mod_eq_of_lt (Nat.lt_of_not_le normal)]
    rw [if_neg (by decide), if_pos trivial,
      dif_neg (ofNat_ne_zero positive (Nat.lt_of_not_le normal))]
    simp only [kept]
    congr 1
    change (0 : Int) - (((1023 : Nat) : Int) + (52 : Nat)) + 1 = exponent
    omega

/-- What stands in the bits of a float is canonical, and not too large. -/
theorem isCanonical_of_unpack
    {model : Float.Model}
    {positive : 0 < mantissa}
    (unpacked : model.unpack = .finite sign mantissa exponent positive) :
    IsCanonical mantissa exponent ∧ exponent ≤ 971 := by
  unfold Float.Model.unpack UnpackedFloat.unpack at unpacked
  simp only at unpacked
  let low : BitVec 52 := @unpackMantissa .binary64 model.toBits.toBitVec
  let high : BitVec 11 := @unpackExponent .binary64 model.toBits.toBitVec
  have lowBound := low.isLt
  have highBound := high.isLt
  split at unpacked
  · split at unpacked
    · cases unpacked
    · cases unpacked
  · rename_i notLast
    split at unpacked
    · rename_i first
      split at unpacked
      · cases unpacked
      · injection unpacked with _ same place
        rw [first] at place
        change low.toNat = mantissa at same
        change (0 : Int) - (((1023 : Nat) : Int) + (52 : Nat)) + 1 = exponent at place
        refine ⟨⟨by omega, by omega, Or.inl (by omega)⟩, by omega⟩
    · rename_i notFirst
      injection unpacked with _ same place
      change (1#1 ++ low).toNat = mantissa at same
      change (high.toNat : Int) - (((1023 : Nat) : Int) + (52 : Nat)) = exponent at place
      have whole : (1#1 ++ low).toNat = 2 ^ 52 + low.toNat := by
        rw [BitVec.toNat_append, ← Nat.shiftLeft_add_eq_or_of_lt low.isLt, Nat.shiftLeft_eq]
        rfl
      have some : high.toNat ≠ 0 := fun none => notFirst (BitVec.eq_of_toNat_eq none)
      have notAll : high.toNat ≠ 2047 := fun all => notLast (BitVec.eq_of_toNat_eq all)
      refine ⟨⟨by omega, by omega, Or.inr (by omega)⟩, by omega⟩

end Packing

end Binary64
end StagePipeline
