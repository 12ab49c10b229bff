import StagePipeline.Proofs.Binary64.Exact

/-!
# The float nearest to a number

A number is counted in units of a place that leaves 53 bits before the point, unless it is
the last place of all, and the nearest whole number of units makes up the bits of a float.
No other finite float is nearer, and one that is as near has an odd significand.  Numbers
that are at least half a unit beyond the largest finite float are rounded to infinity.
-/

namespace StagePipeline
namespace Binary64

/-! ## Signed numbers -/

/-- The number of this sign and size. -/
def signed (negative : Bool) (size : ℚ) : ℚ :=
  if negative then -size else size

/-- The size of a number, without its sign. -/
def Dyadic.size (number : Dyadic) : ℚ :=
  number.significand * 2 ^ number.exponent

/-- The number that a dyadic number is. -/
def Dyadic.toRat (number : Dyadic) : ℚ :=
  signed number.negative number.size

section Signed

variable
  {negative : Bool}
  {size otherSize : ℚ}

theorem Dyadic.size_nonneg (number : Dyadic) : 0 ≤ number.size := by
  unfold size
  positivity

theorem signed_zero (negative : Bool) : signed negative 0 = 0 := by
  cases negative
  · rfl
  · exact neg_zero

theorem signed_injective (negative : Bool) : Function.Injective (signed negative) := by
  cases negative
  · exact Function.injective_id
  · exact neg_injective

/-- Numbers of the same sign are as far from each other as their sizes. -/
theorem abs_signed_sub (negative : Bool) (size otherSize : ℚ) :
    |signed negative size - signed negative otherSize| = |size - otherSize| := by
  cases negative
  · rfl
  · change |-size - -otherSize| = _
    rw [neg_sub_neg, abs_sub_comm]

/-- Numbers of different signs are as far from each other as their sizes come to. -/
theorem abs_signed_sub_of_ne
    {otherNegative : Bool}
    (nonneg : 0 ≤ size)
    (otherNonneg : 0 ≤ otherSize)
    (differs : otherNegative ≠ negative) :
    |signed negative size - signed otherNegative otherSize| = size + otherSize := by
  cases negative <;> cases otherNegative
  · exact absurd rfl differs
  · change |size - -otherSize| = _
    rw [sub_neg_eq_add]
    exact abs_of_nonneg (add_nonneg nonneg otherNonneg)
  · change |-size - otherSize| = _
    rw [← neg_add', abs_neg]
    exact abs_of_nonneg (add_nonneg nonneg otherNonneg)
  · exact absurd rfl differs

end Signed

/-! ## Whole numbers of units -/

/-- The whole number nearest to a quotient; of two that are equally near, the even one. -/
@[mk_iff]
structure IsWhole (quotient : ℚ) (units : Nat) : Prop where
  half : |quotient - units| ≤ 1 / 2
  even : |quotient - units| = 1 / 2 → units % 2 = 0

/-- A number as a whole number of units of a place, which leaves 53 bits before the point
unless it is the last place of all. -/
structure HasUnits (number : ℚ) (place : Int) (units : Nat) : Prop
    extends IsWhole (number / 2 ^ place) units where
  least : -1074 ≤ place
  below : number / 2 ^ place < 2 ^ 53
  full : place = -1074 ∨ 2 ^ 52 ≤ number / 2 ^ place

section Units

variable
  {number quotient : ℚ}
  {place exponent : Int}
  {units other significand numerator denominator : Nat}

/-- What is behind the point decides which whole number is the nearest one. -/
theorem isWhole_of_fraction
    {fraction : ℚ}
    (least : 0 ≤ fraction)
    (most : fraction < 1)
    (whole : Nat) :
    IsWhole (whole + fraction)
      (if fraction < 1 / 2 then whole
      else if fraction = 1 / 2 then whole + whole % 2
      else whole + 1) := by
  split
  · rename_i low
    rw [isWhole_iff, add_sub_cancel_left, abs_of_nonneg least]
    exact ⟨low.le, fun tie => absurd tie low.ne⟩
  · rename_i notLow
    split
    · rename_i half
      rw [half]
      refine ⟨?_, fun _ => by omega⟩
      rcases Nat.mod_two_eq_zero_or_one whole with even | odd
      · rw [even, Nat.add_zero, add_sub_cancel_left]
        norm_num
      · rw [odd, Nat.cast_add, add_sub_add_left_eq_sub]
        norm_num
    · rename_i notHalf
      have high := lt_of_le_of_ne (not_lt.mp notLow) (Ne.symm notHalf)
      rw [isWhole_iff, Nat.cast_add, add_sub_add_left_eq_sub, Nat.cast_one, abs_sub_comm,
        abs_of_nonneg (by linarith)]
      exact ⟨by linarith, fun tie => by linarith⟩

theorem roundedQuotient_isWhole (positive : 0 < denominator) :
    IsWhole ((numerator : ℚ) / denominator) (roundedQuotient numerator denominator) := by
  have divisor : (0 : ℚ) < denominator := by exact_mod_cast positive
  have parts : (numerator : ℚ) / denominator =
      (numerator / denominator : Nat) + (numerator % denominator : Nat) / (denominator : ℚ) := by
    rw [div_eq_iff divisor.ne', add_mul, div_mul_cancel₀ _ divisor.ne', mul_comm]
    exact_mod_cast (Nat.div_add_mod numerator denominator).symm
  have less : 2 * (numerator % denominator) < denominator ↔
      (numerator % denominator : Nat) / (denominator : ℚ) < 1 / 2 := by
    rw [div_lt_div_iff₀ divisor two_pos, one_mul, mul_comm]
    exact_mod_cast Iff.rfl
  have tie : 2 * (numerator % denominator) = denominator ↔
      (numerator % denominator : Nat) / (denominator : ℚ) = 1 / 2 := by
    rw [div_eq_div_iff divisor.ne' two_ne_zero, one_mul, mul_comm]
    exact_mod_cast Iff.rfl
  have most : (numerator % denominator : Nat) / (denominator : ℚ) < 1 := by
    rw [div_lt_one divisor]
    exact_mod_cast Nat.mod_lt numerator positive
  rw [parts, roundedQuotient_eq]
  simp only [less, tie]
  exact isWhole_of_fraction (by positivity) most (numerator / denominator)

/-- Every other whole number is at least as far away, and one that is as far is odd if the
nearest one is even. -/
theorem IsWhole.le_of_ne (rounded : IsWhole quotient units) (differs : other ≠ units) :
    |quotient - units| ≤ |quotient - other| ∧
      (|quotient - other| = |quotient - units| → units % 2 = 0 ∧ other % 2 = 1) := by
  obtain ⟨half, even⟩ := rounded
  have near := abs_le.mp half
  rcases Nat.lt_or_gt_of_ne differs with less | greater
  · have gap : (other : ℚ) + 1 ≤ units := by exact_mod_cast less
    have far : |quotient - other| = quotient - other := abs_of_nonneg (by linarith)
    rw [far]
    refine ⟨by linarith, fun tie => ?_⟩
    have halfway : |quotient - units| = 1 / 2 := by linarith
    have next : (other : ℚ) + 1 = units := by linarith
    have next : other + 1 = units := by exact_mod_cast next
    have evenUnits := even halfway
    omega
  · have gap : (units : ℚ) + 1 ≤ other := by exact_mod_cast greater
    have far : |quotient - other| = other - quotient := by
      rw [abs_sub_comm]
      exact abs_of_nonneg (by linarith)
    rw [far]
    refine ⟨by linarith, fun tie => ?_⟩
    have halfway : |quotient - units| = 1 / 2 := by linarith
    have next : (units : ℚ) + 1 = other := by linarith
    have next : units + 1 = other := by exact_mod_cast next
    have evenUnits := even halfway
    omega

theorem two_zpow_add (place : Int) (count : Nat) :
    (2 : ℚ) ^ (place + count) = 2 ^ count * 2 ^ place := by
  rw [zpow_add₀ two_ne_zero, zpow_natCast, mul_comm]

/-- In units of a place, a significand at a place that is no lower is a whole number. -/
theorem div_two_zpow_of_le (upper : place ≤ exponent) :
    (significand * 2 ^ exponent : ℚ) / 2 ^ place =
      (significand * 2 ^ (exponent - place).toNat : Nat) := by
  have power : (2 : ℚ) ^ (exponent - place).toNat = 2 ^ (exponent - place) := by
    rw [← zpow_natCast, Int.toNat_of_nonneg (by omega)]
  rw [mul_div_assoc, ← zpow_sub₀ two_ne_zero, Nat.cast_mul, Nat.cast_pow, Nat.cast_two, power]

/-- No canonical number is nearer, and one that is as near has an odd significand if the number
of units is even.  A canonical number of a lower place does not reach the first 53 bits of this
one. -/
theorem HasUnits.le_of_isCanonical
    (rounded : HasUnits number place units)
    (canonical : IsCanonical significand exponent)
    (differs : (significand * 2 ^ exponent : ℚ) / 2 ^ place ≠ units) :
    |number / 2 ^ place - units| ≤ |number / 2 ^ place - significand * 2 ^ exponent / 2 ^ place| ∧
      (|number / 2 ^ place - significand * 2 ^ exponent / 2 ^ place| =
          |number / 2 ^ place - units| →
        units % 2 = 0 ∧ significand % 2 = 1) := by
  rcases Int.lt_or_le exponent place with lower | upper
  · have reaches := rounded.full.resolve_left (by have := canonical.least; omega)
    have less : (significand * 2 ^ exponent : ℚ) / 2 ^ place < 2 ^ 52 := by
      rw [div_lt_iff₀ (by positivity)]
      calc
        (significand * 2 ^ exponent : ℚ) < 2 ^ 53 * 2 ^ exponent := by
          have below : (significand : ℚ) < 2 ^ 53 := by exact_mod_cast canonical.below
          exact mul_lt_mul_of_pos_right below (by positivity)
        _ = 2 ^ 52 * 2 ^ (exponent + (1 : Nat)) := by
          rw [two_zpow_add]
          ring
        _ ≤ 2 ^ 52 * 2 ^ place := by
          have power : (2 : ℚ) ^ (exponent + (1 : Nat)) ≤ 2 ^ place :=
            zpow_le_zpow_right₀ one_le_two (by omega)
          linarith
    have least : |number / 2 ^ place - (2 ^ 52 : Nat)| = number / 2 ^ place - 2 ^ 52 := by
      rw [Nat.cast_pow, Nat.cast_two]
      exact abs_of_nonneg (by linarith)
    have near : |number / 2 ^ place - units| ≤ number / 2 ^ place - 2 ^ 52 := by
      rw [← least]
      by_cases same : 2 ^ 52 = units
      · rw [same]
      · exact (rounded.le_of_ne same).1
    have far : |number / 2 ^ place - significand * 2 ^ exponent / 2 ^ place| =
        number / 2 ^ place - significand * 2 ^ exponent / 2 ^ place :=
      abs_of_nonneg (by linarith)
    rw [far]
    exact ⟨by linarith, fun tie => by linarith⟩
  · rw [div_two_zpow_of_le upper] at differs ⊢
    obtain ⟨near, tie⟩ := rounded.le_of_ne (mt (congrArg Nat.cast) differs)
    refine ⟨near, fun same => ?_⟩
    obtain ⟨even, odd⟩ := tie same
    exact ⟨even, Nat.odd_iff.mp (Nat.odd_mul.mp (Nat.odd_iff.mpr odd)).1⟩

theorem HasUnits.units_le (rounded : HasUnits number place units) : units ≤ 2 ^ 53 := by
  have near := abs_le.mp rounded.half
  have below := rounded.below
  have less : (units : ℚ) < (2 ^ 53 + 1 : Nat) := by
    push_cast
    linarith
  exact Nat.lt_succ_iff.mp (by exact_mod_cast less)

theorem HasUnits.le_units
    (rounded : HasUnits number place units)
    (above : place ≠ -1074) :
    2 ^ 52 ≤ units := by
  have near := abs_le.mp rounded.half
  have reaches := rounded.full.resolve_left above
  have less : ((2 ^ 52 : Nat) : ℚ) < (units + 1 : Nat) := by
    push_cast
    linarith
  exact Nat.lt_succ_iff.mp (by exact_mod_cast less)

/-- What is at most half of the smallest positive float is nothing. -/
theorem hasUnits_of_le (nonneg : 0 ≤ number) (tiny : number ≤ 2 ^ (-1075 : Int)) :
    HasUnits number (-1074) 0 := by
  have half : number / 2 ^ (-1074 : Int) ≤ 1 / 2 := by
    rw [div_le_iff₀ (by positivity)]
    have power : (2 : ℚ) ^ (-1075 + (1 : Nat) : Int) = 2 ^ 1 * 2 ^ (-1075 : Int) :=
      two_zpow_add (-1075) 1
    have last : (-1075 + (1 : Nat) : Int) = -1074 := rfl
    rw [← last, power]
    linarith
  have least : 0 ≤ number / 2 ^ (-1074 : Int) := by positivity
  refine ⟨⟨?_, fun _ => rfl⟩, le_rfl, by linarith, Or.inl rfl⟩
  rwa [Nat.cast_zero, sub_zero, abs_of_nonneg least]

end Units

/-! ## Numbers that are too large -/

/-- Half way from the largest finite float to the power of two beyond it. -/
def overflowBound : ℚ :=
  ((2 ^ 53 - 1) * 2 ^ (971 : Int) + 2 ^ (1024 : Int)) / 2

theorem overflowBound_eq : overflowBound = (2 ^ 53 - 1 / 2) * 2 ^ (971 : Int) := by
  have power : (2 : ℚ) ^ (1024 : Int) = 2 ^ 53 * 2 ^ (971 : Int) := two_zpow_add 971 53
  rw [overflowBound, power]
  ring

section Overflow

variable
  {number : ℚ}
  {place : Int}
  {units : Nat}

/-- The units of a number make up the bits of a finite float if it is not too large. -/
theorem HasUnits.lt_infinityBits_iff (rounded : HasUnits number place units) :
    (place + 1074).toNat * 2 ^ 52 + units < infinityBits ↔ number < overflowBound := by
  have least := rounded.least
  have most := rounded.units_le
  have below := rounded.below
  rw [infinityBits_eq]
  rcases Int.lt_trichotomy place 971 with lower | rfl | upper
  · refine iff_of_true (by omega) ?_
    rw [div_lt_iff₀ (by positivity)] at below
    have power : (2 : ℚ) ^ (place + (1 : Nat)) ≤ 2 ^ (971 : Int) :=
      zpow_le_zpow_right₀ one_le_two (by omega)
    have some : (0 : ℚ) < 2 ^ place := by positivity
    rw [two_zpow_add] at power
    rw [overflowBound_eq]
    generalize (2 : ℚ) ^ (971 : Int) = unit at power ⊢
    linarith
  · have near := abs_le.mp rounded.half
    rw [overflowBound_eq, ← div_lt_iff₀ (by positivity)]
    constructor
    · intro finite
      have room : (units : ℚ) + 1 ≤ 2 ^ 53 := by
        exact_mod_cast (show units + 1 ≤ 2 ^ 53 by omega)
      refine lt_of_le_of_ne (by linarith) fun tie => ?_
      have last : (units : ℚ) = 2 ^ 53 - 1 := by linarith
      have even := rounded.even (by rw [tie, last]; norm_num)
      have last : units + 1 = 2 ^ 53 := by exact_mod_cast eq_sub_iff_add_eq.mp last
      omega
    · intro less
      have room : (units : ℚ) < 2 ^ 53 := by linarith
      have room : units < 2 ^ 53 := by exact_mod_cast room
      omega
  · have reaches := rounded.le_units (by omega)
    refine iff_of_false (by omega) (not_lt_of_ge ?_)
    have full := rounded.full.resolve_left (by omega)
    rw [le_div_iff₀ (by positivity)] at full
    have power : (2 : ℚ) ^ (971 + (1 : Nat) : Int) ≤ 2 ^ place :=
      zpow_le_zpow_right₀ one_le_two (by omega)
    have some : (0 : ℚ) < 2 ^ (971 : Int) := by positivity
    rw [two_zpow_add] at power
    rw [overflowBound_eq]
    generalize (2 : ℚ) ^ (971 : Int) = unit at power some ⊢
    linarith

/-- Then they are what this float stands for. -/
theorem HasUnits.exists_decode?
    (rounded : HasUnits number place units)
    (within : number < overflowBound)
    (negative : Bool) :
    ∃ exact,
      decode? (ofMagnitude negative ((place + 1074).toNat * 2 ^ 52 + units)) = some exact ∧
        exact.negative = negative ∧ exact.size = units * 2 ^ place ∧
          exact.significand % 2 = units % 2 := by
  have finite := rounded.lt_infinityBits_iff.mpr within
  have least := rounded.least
  rw [infinityBits_eq] at finite
  rcases Nat.lt_or_eq_of_le rounded.units_le with below | rfl
  · have full : place = -1074 ∨ 2 ^ 52 ≤ units := or_iff_not_imp_left.mpr rounded.le_units
    exact ⟨_, decode?_ofMagnitude ⟨below, least, full⟩ (by omega) negative, rfl, rfl, rfl⟩
  · have bits : (place + 1074).toNat * 2 ^ 52 + 2 ^ 53 =
        (place + 1 + 1074).toNat * 2 ^ 52 + 2 ^ 52 := by omega
    have parity : 2 ^ 52 % 2 = 2 ^ 53 % 2 := by decide
    rw [bits]
    refine ⟨_, decode?_ofMagnitude ⟨by decide, by omega, Or.inr le_rfl⟩ (by omega) negative,
      rfl, ?_, parity⟩
    rw [Dyadic.size, zpow_add_one₀ two_ne_zero]
    push_cast
    ring

end Overflow

/-! ## The nearest float -/

/-- No finite float is nearer to a number, and if another one is as near, this one has an even
significand. -/
structure IsNearest (number : ℚ) (exact : Dyadic) : Prop where
  nearest : ∀ other rival, decode? other = some rival →
    |number - exact.toRat| ≤ |number - rival.toRat|
  even : ∀ other rival, decode? other = some rival → rival.toRat ≠ exact.toRat →
    |number - rival.toRat| = |number - exact.toRat| → exact.significand % 2 = 0

/-- A number of this sign and size is not too large, and this finite float, which has its sign
also if it is zero, is the nearest one. -/
def RoundsTo (negative : Bool) (size : ℚ) (value : Float) : Prop :=
  size < overflowBound ∧
    ∃ exact, decode? value = some exact ∧ exact.negative = negative ∧
      IsNearest (signed negative size) exact

section Nearest

variable
  {number : ℚ}
  {place : Int}
  {units : Nat}
  {negative : Bool}
  {value other : Float}
  {exact rival : Dyadic}

/-- Canonical numbers of the same sign and size are the same.  One of a higher place has 53
bits, too many for the lower one. -/
theorem eq_of_size_eq
    (canonical : IsCanonical exact.significand exact.exponent)
    (rivalCanonical : IsCanonical rival.significand rival.exponent)
    (sameSign : exact.negative = rival.negative)
    (sameSize : exact.size = rival.size) :
    exact = rival := by
  wlog lower : exact.exponent ≤ rival.exponent generalizing exact rival
  · exact (this rivalCanonical canonical sameSign.symm sameSize.symm (by omega)).symm
  obtain ⟨sign, significand, exponent⟩ := exact
  obtain ⟨rivalSign, rivalSignificand, rivalExponent⟩ := rival
  cases sameSign
  obtain ⟨below, least, -⟩ := canonical
  obtain ⟨-, -, full⟩ := rivalCanonical
  simp only at below least full lower
  have sameUnits : (significand * 2 ^ exponent : ℚ) / 2 ^ exponent =
      (rivalSignificand * 2 ^ rivalExponent) / 2 ^ exponent := congrArg (· / _) sameSize
  rw [div_two_zpow_of_le le_rfl, div_two_zpow_of_le lower, Nat.cast_inj, sub_self,
    Int.toNat_zero, pow_zero, mul_one] at sameUnits
  rcases Int.lt_or_eq_of_le lower with less | rfl
  · have bits : 2 ^ 52 * 2 ^ 1 ≤ rivalSignificand * 2 ^ (rivalExponent - exponent).toNat :=
      Nat.mul_le_mul (full.resolve_left (by omega)) (Nat.pow_le_pow_right (by decide) (by omega))
    omega
  · rw [sub_self, Int.toNat_zero, pow_zero, mul_one] at sameUnits
    rw [sameUnits]

/-- The distance of two numbers is that of their numbers of units. -/
theorem abs_sub_eq_mul (number size : ℚ) (place : Int) :
    |number - size| = |number / 2 ^ place - size / 2 ^ place| * 2 ^ place := by
  have unit : (0 : ℚ) < 2 ^ place := by positivity
  rw [← sub_div, abs_div, abs_of_pos unit, div_mul_cancel₀ _ unit.ne']

/-- Zero is not nearer to a number than its units, nor as near if there are any. -/
theorem HasUnits.le_self (rounded : HasUnits number place units) (nonneg : 0 ≤ number) :
    |number - units * 2 ^ place| ≤ number ∧
      (|number - units * 2 ^ place| = number → units = 0) := by
  by_cases none : units = 0
  · rw [none, Nat.cast_zero, zero_mul, sub_zero, abs_of_nonneg nonneg]
    exact ⟨le_rfl, fun _ => rfl⟩
  · have unit : (0 : ℚ) < 2 ^ place := by positivity
    have self : |number / 2 ^ place - (0 : Nat)| * 2 ^ place = number := by
      rw [Nat.cast_zero, sub_zero, abs_of_nonneg (by positivity), div_mul_cancel₀ _ unit.ne']
    obtain ⟨near, tie⟩ := rounded.le_of_ne (Ne.symm none)
    rw [abs_sub_eq_mul _ _ place, mul_div_cancel_right₀ _ unit.ne']
    refine ⟨(mul_le_mul_of_nonneg_right near unit.le).trans_eq self, fun same => ?_⟩
    have same := mul_right_cancel₀ unit.ne' (self.trans same.symm)
    exact absurd (tie same).2 Nat.zero_ne_one

/-- No finite float is nearer than the units of a number, and one that is as near has an odd
significand if their number is even. -/
theorem HasUnits.le_of_decode?
    (rounded : HasUnits number place units)
    (nonneg : 0 ≤ number)
    (decoded : decode? other = some rival)
    (differs : rival.toRat ≠ signed negative (units * 2 ^ place)) :
    |number - units * 2 ^ place| ≤ |signed negative number - rival.toRat| ∧
      (|signed negative number - rival.toRat| = |number - units * 2 ^ place| →
        units % 2 = 0 ∧ rival.significand % 2 = 1) := by
  by_cases sign : rival.negative = negative
  · obtain ⟨canonical, -, -, -⟩ := bits_of_decode? decoded
    have unit : (0 : ℚ) < 2 ^ place := by positivity
    rw [Dyadic.toRat, sign] at differs ⊢
    have differs : rival.size ≠ units * 2 ^ place := mt (congrArg (signed negative)) differs
    have apart : rival.size / 2 ^ place ≠ units := mt (div_eq_iff unit.ne').mp differs
    obtain ⟨near, tie⟩ := rounded.le_of_isCanonical canonical apart
    rw [abs_signed_sub, abs_sub_eq_mul _ _ place, abs_sub_eq_mul _ rival.size place,
      mul_div_cancel_right₀ _ unit.ne', mul_le_mul_iff_left₀ unit, mul_left_inj' unit.ne']
    exact ⟨near, tie⟩
  · obtain ⟨near, none⟩ := rounded.le_self nonneg
    have some := rival.size_nonneg
    have far : |signed negative number - rival.toRat| = number + rival.size :=
      abs_signed_sub_of_ne nonneg some sign
    rw [far]
    refine ⟨by linarith, fun tie => absurd ?_ differs⟩
    have zero : rival.size = 0 := by linarith
    rw [none (by linarith), Dyadic.toRat, zero, Nat.cast_zero, zero_mul]
    exact (signed_zero _).trans (signed_zero _).symm

/-- The float of the units of a number is the only one to which it is rounded.  Two floats that
are as near are next to each other, so that one of them is odd. -/
theorem HasUnits.roundsTo_iff
    (rounded : HasUnits number place units)
    (nonneg : 0 ≤ number)
    (within : number < overflowBound) :
    RoundsTo negative number value ↔
      value = ofMagnitude negative ((place + 1074).toNat * 2 ^ 52 + units) := by
  obtain ⟨exact, decoded, sign, size, parity⟩ := rounded.exists_decode? within negative
  have made : exact.toRat = signed negative (units * 2 ^ place) := by
    rw [Dyadic.toRat, sign, size]
  have distance : |signed negative number - exact.toRat| = |number - units * 2 ^ place| := by
    rw [made, abs_signed_sub]
  constructor
  · rintro ⟨-, rival, rivalDecoded, rivalSign, nearest, even⟩
    refine eq_of_decode? rivalDecoded (decoded.trans (congrArg some ?_))
    refine eq_of_size_eq (bits_of_decode? decoded).1 (bits_of_decode? rivalDecoded).1
      (sign.trans rivalSign.symm) ?_
    by_contra differs
    have apart : rival.toRat ≠ exact.toRat := by
      rw [Dyadic.toRat, Dyadic.toRat, sign, rivalSign]
      exact (signed_injective negative).ne (Ne.symm differs)
    obtain ⟨near, tie⟩ := rounded.le_of_decode? nonneg rivalDecoded (apart.trans_eq made)
    rw [← distance] at near tie
    have same := le_antisymm near (nearest _ exact decoded)
    have odd := (tie same.symm).2
    have even := even _ exact decoded apart.symm same
    omega
  · rintro rfl
    refine ⟨within, exact, decoded, sign, fun other rival rivalDecoded => ?_,
      fun other rival rivalDecoded apart tie => ?_⟩
    · by_cases same : rival.toRat = exact.toRat
      · rw [same]
      · rw [distance]
        exact (rounded.le_of_decode? nonneg rivalDecoded (made ▸ same)).1
    · rw [distance] at tie
      rw [parity]
      exact ((rounded.le_of_decode? nonneg rivalDecoded (made ▸ apart)).2 tie).1

end Nearest

/-! ## Rounding a quotient -/

section Quotient

variable
  {numerator denominator : Nat}
  {place : Int}
  {size : ℚ}
  {negative : Bool}
  {value rounded : Float}

/-- A float that is made from the units of a number, or infinite if that is too large. -/
inductive IsRounding (negative : Bool) (size : ℚ) : Float → Prop where
  | finite {place : Int} {units : Nat} :
      HasUnits size place units → size < overflowBound →
      IsRounding negative size
        (ofMagnitude negative ((place + 1074).toNat * 2 ^ 52 + units))
  | infinite :
      overflowBound ≤ size → IsRounding negative size (ofMagnitude negative infinityBits)

theorem isFinite_ofMagnitude
    {bits : Nat}
    (most : bits ≤ infinityBits) :
    (ofMagnitude negative bits).isFinite = true ↔ bits < infinityBits := by
  rw [isFinite_iff, magnitude_ofMagnitude negative most]

/-- It is finite if the number is not too large. -/
theorem IsRounding.isFinite_iff (rounding : IsRounding negative size rounded) :
    rounded.isFinite = true ↔ size < overflowBound := by
  cases rounding with
  | finite units within =>
      have finite := units.lt_infinityBits_iff.mpr within
      exact iff_of_true ((isFinite_ofMagnitude finite.le).mpr finite) within
  | infinite beyond =>
      exact iff_of_false (mt (isFinite_ofMagnitude le_rfl).mp (lt_irrefl _)) beyond.not_gt

/-- Then it is the one to which the number is rounded. -/
theorem IsRounding.roundsTo_iff
    (rounding : IsRounding negative size rounded)
    (nonneg : 0 ≤ size) :
    RoundsTo negative size value ↔ rounded.isFinite = true ∧ value = rounded := by
  rw [rounding.isFinite_iff]
  cases rounding with
  | finite units within => rw [units.roundsTo_iff nonneg within, and_iff_right within]
  | infinite beyond =>
      exact iff_of_false (fun rounds => beyond.not_gt rounds.1) (fun both => beyond.not_gt both.1)

/-- A rounded number of units makes up the bits of the float, which end with infinity. -/
theorem HasUnits.isRounding
    {units : Nat}
    (whole : HasUnits size place units) :
    IsRounding negative size
      (ofMagnitude negative (min infinityBits ((place + 1074).toNat * 2 ^ 52 + units))) := by
  rcases lt_or_ge size overflowBound with within | beyond
  · rw [min_eq_right (whole.lt_infinityBits_iff.mpr within).le]
    exact .finite whole within
  · rw [min_eq_left (not_lt.mp (mt whole.lt_infinityBits_iff.mp beyond.not_gt))]
    exact .infinite beyond

/-- A power is a quotient of natural ones. -/
theorem zpow_eq_div
    {base : ℚ}
    {exponent : Int}
    {upper lower : Nat}
    (nonzero : base ≠ 0)
    (difference : exponent = upper - lower) :
    base ^ exponent = base ^ upper / base ^ lower := by
  rw [difference, zpow_sub₀ nonzero, zpow_natCast, zpow_natCast]

theorem cast_scaleUp (number : Nat) (exponent : Int) :
    (scaleUp number exponent : ℚ) = number * 2 ^ exponent.toNat := by
  change ((number * 2 ^ exponent.toNat : Nat) : ℚ) = _
  rw [Nat.cast_mul, Nat.cast_pow, Nat.cast_two]

/-- A quotient in units of a place is one of natural numbers. -/
theorem scaleUp_div (numerator denominator : Nat) (place : Int) :
    (scaleUp numerator (-place) / scaleUp denominator place : ℚ) =
      numerator / denominator / 2 ^ place := by
  have power : (2 : ℚ) ^ place = 2 ^ place.toNat / 2 ^ (-place).toNat :=
    zpow_eq_div two_ne_zero (by omega)
  rw [cast_scaleUp, cast_scaleUp, power, div_div_div_eq]

theorem scaleUp_pos (positive : 0 < denominator) (exponent : Int) :
    0 < scaleUp denominator exponent :=
  Nat.mul_pos positive (Nat.two_pow_pos exponent.toNat)

theorem scaleUp_le_iff (positive : 0 < denominator) :
    scaleUp denominator place ≤ scaleUp numerator (-place) ↔
      (2 : ℚ) ^ place ≤ numerator / denominator := by
  have divisor : (0 : ℚ) < scaleUp denominator place := by
    exact_mod_cast scaleUp_pos positive place
  have unit : (0 : ℚ) < 2 ^ place := by positivity
  rw [← one_le_div₀ unit, ← scaleUp_div, one_le_div₀ divisor, Nat.cast_le]

/-- The leading digit of a quotient has the greatest power of two that does not exceed it. -/
theorem leadingExponent_bounds (some : 0 < numerator) (positive : 0 < denominator) :
    (2 : ℚ) ^ leadingExponent numerator denominator ≤ numerator / denominator ∧
      (numerator / denominator : ℚ) < 2 ^ (leadingExponent numerator denominator + 1) := by
  have lower : (2 : ℚ) ^ numerator.log2 ≤ numerator := by
    exact_mod_cast Nat.log2_self_le some.ne'
  have upper : (numerator : ℚ) < 2 ^ (numerator.log2 + 1) := by
    exact_mod_cast Nat.lt_log2_self
  have divisorLower : (2 : ℚ) ^ denominator.log2 ≤ denominator := by
    exact_mod_cast Nat.log2_self_le positive.ne'
  have divisorUpper : (denominator : ℚ) < 2 ^ (denominator.log2 + 1) := by
    exact_mod_cast Nat.lt_log2_self
  have divisor : (0 : ℚ) < denominator := by exact_mod_cast positive
  unfold leadingExponent
  simp only [scaleUp_le_iff positive]
  split
  · rename_i reaches
    refine ⟨reaches, ?_⟩
    have power : (2 : ℚ) ^ ((numerator.log2 : Int) - denominator.log2 + 1) =
        2 ^ (numerator.log2 + 1) / 2 ^ denominator.log2 :=
      zpow_eq_div two_ne_zero (by omega)
    rw [power]
    calc
      (numerator / denominator : ℚ) < 2 ^ (numerator.log2 + 1) / denominator :=
        div_lt_div_of_pos_right upper divisor
      _ ≤ 2 ^ (numerator.log2 + 1) / 2 ^ denominator.log2 :=
        div_le_div_of_nonneg_left (by positivity) (by positivity) divisorLower
  · rename_i less
    rw [sub_add_cancel]
    refine ⟨?_, not_le.mp less⟩
    have power : (2 : ℚ) ^ ((numerator.log2 : Int) - denominator.log2 - 1) =
        2 ^ numerator.log2 / 2 ^ (denominator.log2 + 1) :=
      zpow_eq_div two_ne_zero (by omega)
    rw [power]
    exact div_le_div₀ (by positivity) lower divisor divisorUpper.le

/-- The last place of a float near a quotient leaves 53 bits of it. -/
theorem hasUnits_roundedQuotient (some : 0 < numerator) (positive : 0 < denominator) :
    HasUnits (numerator / denominator) (lastPlace numerator denominator)
      (roundedQuotient (scaleUp numerator (-lastPlace numerator denominator))
        (scaleUp denominator (lastPlace numerator denominator))) := by
  obtain ⟨lower, upper⟩ := leadingExponent_bounds some positive
  have last : lastPlace numerator denominator =
      max (leadingExponent numerator denominator - 52) (-1074) := rfl
  generalize lastPlace numerator denominator = place at last ⊢
  have unit : (0 : ℚ) < 2 ^ place := by positivity
  refine ⟨?_, by omega, ?_, or_iff_not_imp_left.mpr fun above => ?_⟩
  · rw [← scaleUp_div]
    exact roundedQuotient_isWhole (scaleUp_pos positive place)
  · rw [div_lt_iff₀ unit, ← two_zpow_add]
    exact upper.trans_le (zpow_le_zpow_right₀ one_le_two (by omega))
  · rw [le_div_iff₀ unit, ← two_zpow_add]
    exact (zpow_le_zpow_right₀ one_le_two (by omega)).trans lower

/-- A number that is at most half of the smallest positive float is rounded to zero. -/
theorem isRounding_of_le (nonneg : 0 ≤ size) (tiny : size ≤ 2 ^ (-1075 : Int)) :
    IsRounding negative size (ofMagnitude negative 0) :=
  (hasUnits_of_le nonneg tiny).isRounding

/-- A quotient is rounded to the nearest float. -/
theorem isRounding_ofRatio (positive : 0 < denominator) :
    IsRounding negative (numerator / denominator) (ofRatio negative numerator denominator) := by
  unfold ofRatio
  split
  · rename_i none
    rw [none, Nat.cast_zero, zero_div]
    exact isRounding_of_le le_rfl (by positivity)
  · rename_i some
    exact (hasUnits_roundedQuotient (Nat.pos_of_ne_zero some) positive).isRounding

end Quotient

end Binary64
end StagePipeline
