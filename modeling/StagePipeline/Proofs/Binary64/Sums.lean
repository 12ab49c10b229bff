import StagePipeline.Proofs.Binary64.Order
import StagePipeline.Proofs.Binary64.Rounding
import StagePipeline.Summary

/-!
# Sums and averages that stay finite

Adding up numbers below a bound stagnates: a sum that has grown large enough is rounded back
to itself.  So however many of them there are, their sum is finite.  A sum that is not finite
is never finite again, and the average of a finite sum is finite.
-/

namespace StagePipeline
namespace Binary64

open Float.Model Float.Model.UnpackedFloat

/-! ## Numbers below a power of two -/

/-- Zero, or a positive number that does not exceed a power of two. -/
inductive AtMost (bound : Int) : UnpackedFloat → Prop where
  | zero (sign : Sign) : AtMost bound (.zero sign)
  | positive {mantissa : Nat} {exponent : Int} (some : 0 < mantissa) :
      IsCanonical mantissa exponent →
      exponent + 53 ≤ bound ∨ exponent + 52 = bound ∧ mantissa = 2 ^ 52 →
      AtMost bound (.finite .positive mantissa exponent some)

section AtMost

variable
  {bound low : Int}
  {value left right : UnpackedFloat}

/-- A number that has been rounded does not exceed a power of two either. -/
theorem AtMost.of_isRounded
    {units : Nat}
    {last : Int}
    (rounded : IsRounded .positive units last value)
    (natural : 0 ≤ bound)
    (within : last + 53 ≤ bound ∨ last + 52 = bound ∧ units ≤ 2 ^ 52) :
    AtMost bound value := by
  cases rounded with
  | zero => exact .zero _
  | plain some canonical =>
      refine .positive some canonical ?_
      obtain ⟨below, least, full⟩ := canonical
      omega
  | carried some same canonical => exact .positive some canonical (by omega)

/-- The units of a lower place in such a number. -/
theorem units_le
    {mantissa : Nat}
    {exponent : Int}
    (canonical : IsCanonical mantissa exponent)
    (within : exponent + 53 ≤ bound ∨ exponent + 52 = bound ∧ mantissa = 2 ^ 52)
    (lower : low ≤ exponent) :
    mantissa * 2 ^ (exponent - low).toNat ≤ 2 ^ (bound - low).toNat := by
  rcases within with far | ⟨near, rfl⟩
  · calc
      _ ≤ 2 ^ 53 * 2 ^ (exponent - low).toNat :=
        Nat.mul_le_mul_right _ (Nat.le_of_lt canonical.below)
      _ = 2 ^ (53 + (exponent - low).toNat) := (Nat.pow_add ..).symm
      _ ≤ _ := Nat.pow_le_pow_right (by decide) (by omega)
  · rw [← Nat.pow_add]
    exact Nat.pow_le_pow_right (by decide) (by omega)

/-- Half a unit beyond a power of two is rounded back to it.  From there on the last place has
doubled, and half a unit of the old one is at most a tie, which the even neighbour wins. -/
theorem AtMost.round
    {total spread : Nat}
    (natural : 0 ≤ bound)
    (lower : low + spread = bound)
    (some : 0 < total)
    (within : total ≤ 2 ^ (spread + 53) + 2 ^ spread) :
    AtMost (bound + 53) (UnpackedFloat.round .binary64 .positive total low) := by
  refine .of_isRounded (isRounded_round some low .positive) (by omega) ?_
  by_cases less : total < 2 ^ (spread + 53)
  · left
    have bits := log2_lt_of_lt less
    unfold place
    omega
  · right
    have below : total < 2 ^ (spread + 53 + 1) := by
      have half : 2 ^ spread < 2 ^ (spread + 53) :=
        Nat.pow_lt_pow_right (by decide) (by omega)
      rw [Nat.pow_succ]
      omega
    have bits : total.log2 = spread + 53 :=
      (Nat.log2_eq_iff (Nat.ne_of_gt some)).mpr ⟨Nat.le_of_not_lt less, below⟩
    have last : place total low = bound + 1 := by
      unfold place
      omega
    have down : (low - (bound + 1)).toNat = 0 := by omega
    have up : (bound + 1 - low).toNat = spread + 1 := by omega
    rw [last, down, up, Nat.pow_zero, Nat.mul_one]
    refine ⟨by omega, roundedQuotient_le_of_even (by positivity) (by decide) ?_⟩
    calc
      2 * total ≤ 2 * (2 ^ (spread + 53) + 2 ^ spread) := Nat.mul_le_mul_left 2 within
      _ = (2 * 2 ^ 52 + 1) * 2 ^ (spread + 1) := by ring

/-- The sum of two positive numbers is formed in units of the lower of their places. -/
theorem add_positive
    {mantissa otherMantissa : Nat}
    {exponent otherExponent : Int}
    (some : 0 < mantissa)
    (otherSome : 0 < otherMantissa) :
    UnpackedFloat.add .binary64 (.finite .positive mantissa exponent some)
        (.finite .positive otherMantissa otherExponent otherSome) =
      UnpackedFloat.round .binary64 .positive
        (mantissa * 2 ^ (exponent - min exponent otherExponent).toNat +
          otherMantissa * 2 ^ (otherExponent - min exponent otherExponent).toNat)
        (min exponent otherExponent) := by
  rw [UnpackedFloat.add]
  simp only [decreaseExponent, Sign.apply, Nat.shiftLeft_eq, ← Int.natCast_add]
  have positive : (0 : Int) <
      ((mantissa * 2 ^ (exponent - min exponent otherExponent).toNat +
        otherMantissa * 2 ^ (otherExponent - min exponent otherExponent).toNat : Nat) : Int) := by
    have first : 0 < mantissa * 2 ^ (exponent - min exponent otherExponent).toNat := by
      positivity
    omega
  unfold UnpackedFloat.normalize
  rw [Int.compare_eq_gt.mpr positive]
  simp only [Int.toNat_natCast]

/-- A sum does not exceed the bound of its larger part if the smaller one is at most half a
unit of it. -/
theorem AtMost.add
    (natural : 0 ≤ bound)
    (leftAtMost : AtMost (bound + 53) left)
    (rightAtMost : AtMost bound right) :
    AtMost (bound + 53) (UnpackedFloat.add .binary64 left right) := by
  cases leftAtMost with
  | zero sign =>
      cases rightAtMost with
      | zero other =>
          rw [UnpackedFloat.add]
          split
          · exact .zero _
          · exact .zero _
      | positive some canonical within =>
          exact .positive some canonical (by omega)
  | @positive mantissa exponent some canonical within =>
      cases rightAtMost with
      | zero other => exact .positive some canonical within
      | @positive otherMantissa otherExponent otherSome otherCanonical otherWithin =>
          rw [add_positive]
          have lower := Int.min_le_left exponent otherExponent
          have otherLower := Int.min_le_right exponent otherExponent
          generalize min exponent otherExponent = low at lower otherLower ⊢
          obtain ⟨spread, reaches⟩ : ∃ spread : Nat, low + spread = bound :=
            ⟨(bound - low).toNat, by omega⟩
          have units := units_le canonical within lower
          have otherUnits := units_le otherCanonical otherWithin otherLower
          rw [show (bound + 53 - low).toNat = spread + 53 by omega] at units
          rw [show (bound - low).toNat = spread by omega] at otherUnits
          refine .round natural reaches ?_ (Nat.add_le_add units otherUnits)
          have first : 0 < mantissa * 2 ^ (exponent - low).toNat := by positivity
          omega

end AtMost

/-! ## Sums -/

/-- Zero, or a positive float that does not exceed a power of two. -/
def IsAtMost (bound : Int) (value : Float) : Prop :=
  AtMost bound value.toModel.unpack

section Sums

variable
  {bound : Int}
  {value left right : Float}

theorem isFinite_eq (value : Float) : value.isFinite = value.toModel.unpack.isFinite :=
  rfl

theorem AtMost.isFinite
    {unpacked : UnpackedFloat}
    (atMost : AtMost bound unpacked) :
    unpacked.isFinite = true := by
  cases atMost with
  | zero => rfl
  | positive => rfl

theorem IsAtMost.isFinite (atMost : IsAtMost bound value) : value.isFinite = true :=
  AtMost.isFinite atMost

theorem AtMost.unpack_pack
    {unpacked : UnpackedFloat}
    (atMost : AtMost bound unpacked)
    (below : bound ≤ 1023) :
    (Float.Model.pack unpacked).unpack = unpacked := by
  cases atMost with
  | zero sign => exact unpack_pack_zero sign
  | positive some canonical within => exact unpack_pack_finite some canonical (by omega)

theorem IsAtMost.add
    (natural : 0 ≤ bound)
    (below : bound + 53 ≤ 1023)
    (leftAtMost : IsAtMost (bound + 53) left)
    (rightAtMost : IsAtMost bound right) :
    IsAtMost (bound + 53) (left + right) := by
  have sum := AtMost.add natural leftAtMost rightAtMost
  change AtMost (bound + 53) (Float.Model.pack _).unpack
  rwa [sum.unpack_pack below]

/-- However many numbers are added up, the sum stagnates. -/
theorem IsAtMost.foldl_add
    {values : List Float}
    (natural : 0 ≤ bound)
    (below : bound + 53 ≤ 1023)
    (start : IsAtMost (bound + 53) value)
    (atMost : ∀ value ∈ values, IsAtMost bound value) :
    IsAtMost (bound + 53) (values.foldl (· + ·) value) := by
  induction values generalizing value with
  | nil => exact start
  | cons first rest inductionHypothesis =>
      obtain ⟨here, others⟩ := List.forall_mem_cons.mp atMost
      exact inductionHypothesis (start.add natural below here) others

theorem isAtMost_zero (bound : Int) : IsAtMost bound 0 :=
  .zero .positive

/-- A number that is not finite is infinite or none at all. -/
theorem unpack_pack_isFinite
    {unpacked : UnpackedFloat}
    (infinite : unpacked.isFinite = false) :
    (Float.Model.pack unpacked).unpack.isFinite = false := by
  cases unpacked with
  | infinity sign => rw [unpack_pack_infinity, infinite]
  | notANumber => rw [unpack_pack_notANumber, infinite]
  | zero | finite => cases infinite

/-- A sum with a part that is not finite is not finite. -/
theorem isFinite_add_eq_false (infinite : left.isFinite = false ∨ right.isFinite = false) :
    (left + right).isFinite = false := by
  rw [isFinite_eq, isFinite_eq] at infinite
  change (Float.Model.pack
    (UnpackedFloat.add .binary64 left.toModel.unpack right.toModel.unpack)).unpack.isFinite = false
  apply unpack_pack_isFinite
  generalize left.toModel.unpack = first, right.toModel.unpack = second at infinite ⊢
  cases first with
  | notANumber => rfl
  | infinity sign =>
      cases second with
      | infinity other =>
          rw [UnpackedFloat.add]
          split
          · rfl
          · rfl
      | notANumber | zero | finite => rfl
  | zero | finite =>
      rcases infinite with impossible | infinite
      · cases impossible
      · cases second with
        | infinity | notANumber => rfl
        | zero | finite => cases infinite

/-- A sum that is not finite is never finite again. -/
theorem isFinite_foldl_add
    {values : List Float}
    (finite : (values.foldl (· + ·) value).isFinite = true) :
    value.isFinite = true ∧ ∀ other ∈ values, other.isFinite = true := by
  induction values generalizing value with
  | nil => exact ⟨finite, nofun⟩
  | cons first rest inductionHypothesis =>
      obtain ⟨sum, others⟩ := inductionHypothesis finite
      have both : value.isFinite = true ∧ first.isFinite = true := by
        by_contra some
        rw [not_and_or, Bool.not_eq_true, Bool.not_eq_true] at some
        cases sum.symm.trans (isFinite_add_eq_false some)
      exact ⟨both.1, List.forall_mem_cons.mpr ⟨both.2, others⟩⟩

end Sums

/-! ## Counts as floats -/

/-- A number that is at least one, or infinity. -/
inductive AtLeastOne : UnpackedFloat → Prop where
  | infinity : AtLeastOne (.infinity .positive)
  | positive {mantissa : Nat} {exponent : Int} (some : 0 < mantissa) :
      2 ^ (-exponent).toNat ≤ mantissa →
      AtLeastOne (.finite .positive mantissa exponent some)

section AtLeastOne

variable
  {value left right : UnpackedFloat}

/-- Rounding to a place keeps a number at least one. -/
theorem AtLeastOne.of_isRounded
    {units : Nat}
    {last : Int}
    (rounded : IsRounded .positive units last value)
    (some : 2 ^ (-last).toNat ≤ units) :
    AtLeastOne value := by
  cases rounded with
  | zero none =>
      have positive : 0 < 2 ^ (-last).toNat := by positivity
      omega
  | plain positive => exact .positive positive some
  | carried positive same =>
      refine .positive positive ?_
      rw [same] at some
      have bits : (-last).toNat ≤ 53 := (Nat.pow_le_pow_iff_right (by decide)).mp some
      exact Nat.pow_le_pow_right (by decide) (by omega)

theorem AtLeastOne.pack
    {units : Nat}
    {last : Int}
    (atLeast : AtLeastOne value)
    (rounded : IsRounded .positive units last value) :
    AtLeastOne (Float.Model.pack value).unpack := by
  cases rounded with
  | zero => cases atLeast
  | plain positive canonical =>
      by_cases small : last ≤ 971
      · rwa [unpack_pack_finite positive canonical small]
      · rw [unpack_pack_large positive (by omega)]
        exact .infinity
  | carried positive same canonical =>
      by_cases small : last + 1 ≤ 971
      · rwa [unpack_pack_finite positive canonical small]
      · rw [unpack_pack_large positive (by omega)]
        exact .infinity

/-- The product of two numbers that are at least one is at least one, if one of them has all
bits of a mantissa. -/
theorem atLeastOne_mul
    {mantissa otherMantissa : Nat}
    {exponent otherExponent : Int}
    (some : 0 < mantissa)
    (otherSome : 0 < otherMantissa)
    (full : 2 ^ 52 ≤ mantissa)
    (atLeast : 2 ^ (-exponent).toNat ≤ mantissa)
    (otherAtLeast : 2 ^ (-otherExponent).toNat ≤ otherMantissa) :
    AtLeastOne (Float.Model.pack (UnpackedFloat.mul .binary64
      (.finite .positive mantissa exponent some)
      (.finite .positive otherMantissa otherExponent otherSome))).unpack := by
  have product : 0 < mantissa * otherMantissa := Nat.mul_pos some otherSome
  have wide : 52 ≤ (mantissa * otherMantissa).log2 :=
    (Nat.le_log2 (Nat.ne_of_gt product)).mpr
      (Nat.le_trans full (Nat.le_mul_of_pos_right mantissa otherSome))
  have rounded := isRounded_roundWithAccuracy
    (represents_exact (mantissa * otherMantissa)) Nat.one_pos
    (show exponent + otherExponent ≤ place _ _ by unfold place; omega) .positive
  refine (AtLeastOne.of_isRounded rounded ?_).pack rounded
  refine le_roundedQuotient (by positivity) ?_
  rw [Nat.mul_one, ← Nat.pow_add]
  by_cases whole : 0 ≤ place (mantissa * otherMantissa) (exponent + otherExponent)
  · refine Nat.le_trans (Nat.pow_le_pow_right (by decide) ?_)
      (Nat.log2_self_le (Nat.ne_of_gt product))
    unfold place at whole ⊢
    omega
  · calc
      _ ≤ 2 ^ ((-exponent).toNat + (-otherExponent).toNat) :=
        Nat.pow_le_pow_right (by decide) (by unfold place at whole ⊢; omega)
      _ = 2 ^ (-exponent).toNat * 2 ^ (-otherExponent).toNat := Nat.pow_add ..
      _ ≤ _ := Nat.mul_le_mul atLeast otherAtLeast

/-- A whole number is formed without loss, with all bits of a mantissa. -/
theorem exists_round
    {total : Nat}
    (some : 0 < total)
    (fits : total < 2 ^ 53) :
    ∃ mantissa exponent, ∃ positive : 0 < mantissa,
      (Float.Model.pack (UnpackedFloat.round .binary64 .positive total 0)).unpack =
        .finite .positive mantissa exponent positive ∧
      2 ^ 52 ≤ mantissa ∧ 2 ^ (-exponent).toNat ≤ mantissa := by
  have bits := log2_lt_of_lt fits
  have last : place total 0 = total.log2 - 52 := by
    unfold place
    omega
  have rounded := isRounded_round some 0 .positive
  have atLeast : AtLeastOne (UnpackedFloat.round .binary64 .positive total 0) := by
    refine .of_isRounded rounded (le_roundedQuotient (by positivity) ?_)
    have up : (place total 0 - 0).toNat = 0 := by omega
    rw [up, Nat.pow_zero, Nat.mul_one, ← Int.zero_sub]
    exact Nat.le_mul_of_pos_left _ some
  generalize UnpackedFloat.round .binary64 .positive total 0 = value at rounded atLeast ⊢
  cases rounded with
  | zero => cases atLeast
  | plain positive canonical =>
      cases atLeast with
      | positive _ reaches =>
          obtain ⟨below, least, full⟩ := canonical
          exact ⟨_, _, positive, unpack_pack_finite positive ⟨below, least, full⟩ (by omega),
            by omega, reaches⟩
  | carried positive same canonical =>
      cases atLeast with
      | positive _ reaches =>
          exact ⟨_, _, positive, unpack_pack_finite positive canonical (by omega),
            Nat.le_refl _, reaches⟩

/-- A count that fits a mantissa is formed from its word. -/
theorem unpack_toFloat
    {count : Nat}
    (some : 0 < count)
    (fits : count < 2 ^ 53) :
    count.toUInt64.toFloat.toModel =
      Float.Model.pack (UnpackedFloat.round .binary64 .positive count 0) := by
  have same : count.toUInt64.toNat = count := by
    rw [Nat.toUInt64, UInt64.toNat_ofNat', Nat.mod_eq_of_lt (by omega)]
  change Float.Model.pack
    (UnpackedFloat.normalize .binary64 (count.toUInt64.toNat : Int) 0 .positive) = _
  have positive : (0 : Int) < count := by omega
  unfold UnpackedFloat.normalize
  rw [same, Int.compare_eq_gt.mpr positive]
  simp only [Int.toNat_natCast]

theorem unpack_mul (left right : Float) :
    (left * right).toModel.unpack =
      (Float.Model.pack
        (UnpackedFloat.mul .binary64 left.toModel.unpack right.toModel.unpack)).unpack :=
  rfl

/-- The first power of ten is one. -/
theorem unpack_firstPower :
    (GetElem.getElem Float.exactlyRepresentablePowersOfTen 0 (by decide)).toModel.unpack =
      .finite .positive (2 ^ 52) (-52) (by decide) :=
  rfl

/-- A count of something is at least one as a float, too. -/
theorem atLeastOne_ofNat {count : Nat} (some : 0 < count) :
    AtLeastOne (Float.ofNat count).toModel.unpack := by
  change AtLeastOne (Float.ofScientific count false 0).toModel.unpack
  unfold Float.ofScientific
  split
  · rename_i small
    simp only [Bool.false_eq_true, if_false]
    obtain ⟨mantissa, exponent, positive, unpacked, full, reaches⟩ :=
      exists_round some small.1
    rw [unpack_mul, unpack_firstPower, unpack_toFloat some small.1, unpacked]
    exact atLeastOne_mul positive (by decide) full reaches (by decide)
  · rename_i large
    simp only [Bool.false_eq_true, if_false]
    change AtLeastOne (Float.Model.pack (UnpackedFloat.ofScientific .binary64 count 0)).unpack
    unfold UnpackedFloat.ofScientific
    have fits : ¬(0 : Int) < -(2 ^ Format.binary64.exponentBits + (count.log2 : Int)) := by
      have positive : (0 : Int) < 2 ^ Format.binary64.exponentBits := by decide
      omega
    have full : 2 ^ 53 ≤ count <<< Format.binary64.mantissaBits := by
      rw [Nat.shiftLeft_eq]
      exact Nat.le_mul_of_pos_left _ some
    rw [dif_neg (Nat.ne_of_gt some), if_neg (by decide), if_neg fits, if_pos (by decide)]
    exact atLeastOne_mul (Nat.lt_of_lt_of_le (by decide) full) (by decide)
      (Nat.le_trans (by decide) full) full (by decide)

end AtLeastOne

/-! ## Averages -/

section Averages

variable
  {sign other : Sign}
  {mantissa divisor units numerator denominator : Nat}
  {exponent last low shift : Int}

/-- What is rounded to a place that a float has is packed into a finite number. -/
theorem IsRounded.isFinite_pack
    {value : UnpackedFloat}
    (rounded : IsRounded sign units last value)
    (within : last ≤ 970 ∨ last = 971 ∧ units < 2 ^ 53) :
    (Float.Model.pack value).unpack.isFinite = true := by
  cases rounded with
  | zero => rw [unpack_pack_zero, UnpackedFloat.isFinite]
  | plain positive canonical =>
      rw [unpack_pack_finite positive canonical (by omega), UnpackedFloat.isFinite]
  | carried positive same canonical =>
      rw [unpack_pack_finite positive canonical (by omega), UnpackedFloat.isFinite]

/-- The bits of a whole quotient are those of its parts, but for one. -/
theorem le_log2_div
    (some : 0 < numerator)
    (positive : 0 < denominator)
    (room : denominator.log2 < numerator.log2) :
    numerator.log2 ≤ (numerator / denominator).log2 + denominator.log2 + 1 := by
  have reaches : 2 ^ (numerator.log2 - denominator.log2 - 1) ≤ numerator / denominator := by
    rw [Nat.le_div_iff_mul_le positive]
    calc
      _ ≤ 2 ^ (numerator.log2 - denominator.log2 - 1) * 2 ^ (denominator.log2 + 1) :=
        Nat.mul_le_mul_left _ (Nat.le_of_lt Nat.lt_log2_self)
      _ = 2 ^ numerator.log2 := by
        rw [← Nat.pow_add]
        congr 1
        omega
      _ ≤ numerator := Nat.log2_self_le (Nat.ne_of_gt some)
  have quotient : numerator / denominator ≠ 0 :=
    Nat.ne_of_gt (Nat.lt_of_lt_of_le (by positivity) reaches)
  have bits := (Nat.le_log2 quotient).mpr reaches
  omega

/-- The place down to which a quotient is formed. -/
def quotientPlace (mantissa : Nat) (exponent : Int) (divisor : Nat) (shift : Int) : Int :=
  min (exponent - shift)
    (max (mantissa.log2 + 1 + exponent - (divisor.log2 + 1 + shift) - 53) (-1074))

theorem div_eq
    (some : 0 < mantissa)
    (positive : 0 < divisor) :
    UnpackedFloat.div .binary64 (.finite sign mantissa exponent some)
        (.finite other divisor shift positive) =
      let low := quotientPlace mantissa exponent divisor shift
      let parts := mantissa * 2 ^ (exponent - shift - low).toNat
      roundWithAccuracy .binary64 (sign / other) (parts / divisor) low
        (accuracyOfFraction (parts % divisor) divisor) := by
  simp only [← Nat.shiftLeft_eq]
  rfl

/-- The whole quotient has enough bits to be rounded at its place or above it.  Unless it is
the lowest one, the place leaves 53 bits more than those of the divisor. -/
theorem quotientPlace_le_place
    (some : 0 < mantissa)
    (positive : 0 < divisor) :
    quotientPlace mantissa exponent divisor shift ≤
      place (mantissa * 2 ^
        (exponent - shift - quotientPlace mantissa exponent divisor shift).toNat / divisor)
        (quotientPlace mantissa exponent divisor shift) := by
  by_cases lowest : quotientPlace mantissa exponent divisor shift ≤ -1074
  · unfold place
    omega
  · have parts := log2_mul_two_pow some
      (exponent - shift - quotientPlace mantissa exponent divisor shift).toNat
    have units : 0 < mantissa *
        2 ^ (exponent - shift - quotientPlace mantissa exponent divisor shift).toNat := by
      positivity
    have bits := le_log2_div units positive (by
      unfold quotientPlace at lowest parts ⊢
      omega)
    unfold quotientPlace place at *
    omega

/-- In units of a lower place, what is divided by at least one has no fewer of them. -/
theorem units_le_mul
    (atLeast : 2 ^ (-shift).toNat ≤ divisor)
    (lower : low ≤ exponent) :
    mantissa * 2 ^ (exponent - shift - low).toNat ≤
      mantissa * 2 ^ (exponent - low).toNat * divisor := by
  rw [Nat.mul_assoc]
  refine Nat.mul_le_mul_left mantissa ?_
  calc
    _ ≤ 2 ^ ((exponent - low).toNat + (-shift).toNat) :=
      Nat.pow_le_pow_right (by decide) (by omega)
    _ = 2 ^ (exponent - low).toNat * 2 ^ (-shift).toNat := Nat.pow_add ..
    _ ≤ _ := Nat.mul_le_mul_left _ atLeast

/-- A quotient by at least one is no larger than what is divided.  At the place of what is
divided it has no more units, so that nothing is carried. -/
theorem isFinite_div_finite
    (some : 0 < mantissa)
    (positive : 0 < divisor)
    (canonical : IsCanonical mantissa exponent)
    (small : exponent ≤ 971)
    (atLeast : 2 ^ (-shift).toNat ≤ divisor) :
    (Float.Model.pack (UnpackedFloat.div .binary64 (.finite sign mantissa exponent some)
      (.finite other divisor shift positive))).unpack.isFinite = true := by
  obtain ⟨below, least, -⟩ := canonical
  have bits := log2_lt_of_lt below
  have divisorBits : (-shift).toNat ≤ divisor.log2 :=
    (Nat.le_log2 (Nat.ne_of_gt positive)).mpr atLeast
  have lower : quotientPlace mantissa exponent divisor shift ≤ exponent := by
    unfold quotientPlace
    omega
  have room : quotientPlace mantissa exponent divisor shift ≤ _ :=
    quotientPlace_le_place some positive
  rw [div_eq some positive]
  simp only
  generalize quotientPlace mantissa exponent divisor shift = low at lower room ⊢
  have units : mantissa * 2 ^ (exponent - shift - low).toNat ≤ _ := units_le_mul atLeast lower
  have quotient : mantissa * 2 ^ (exponent - shift - low).toNat / divisor ≤
      mantissa * 2 ^ (exponent - low).toNat :=
    Nat.div_le_of_le_mul (Nat.le_trans units (Nat.le_of_eq (Nat.mul_comm ..)))
  have parts := log2_mul_two_pow some (exponent - low).toNat
  have last : place (mantissa * 2 ^ (exponent - shift - low).toNat / divisor) low ≤ exponent := by
    have fewer := log2_lt_of_lt (Nat.lt_of_le_of_lt quotient Nat.lt_log2_self)
    unfold place
    omega
  refine (isRounded_roundWithAccuracy (represents_fraction positive) positive room _).isFinite_pack
    ?_
  rcases Int.lt_or_eq_of_le last with less | same
  · left
    omega
  · rw [same]
    have fits := roundedQuotient_le (by positivity)
      (Nat.le_trans units (Nat.le_of_eq (Nat.mul_assoc ..)))
    omega

theorem isFinite_div
    {left right : Float}
    (finite : left.isFinite = true)
    (atLeast : AtLeastOne right.toModel.unpack) :
    (left / right).isFinite = true := by
  rw [isFinite_eq] at finite
  change (Float.Model.pack
    (UnpackedFloat.div .binary64 left.toModel.unpack right.toModel.unpack)).unpack.isFinite = true
  generalize right.toModel.unpack = divisor at atLeast ⊢
  cases unpacked : left.toModel.unpack with
  | infinity | notANumber =>
      rw [unpacked] at finite
      cases finite
  | zero sign =>
      cases atLeast with
      | infinity => exact congrArg UnpackedFloat.isFinite (unpack_pack_zero _)
      | positive => exact congrArg UnpackedFloat.isFinite (unpack_pack_zero _)
  | finite sign mantissa exponent some =>
      obtain ⟨canonical, small⟩ := isCanonical_of_unpack unpacked
      cases atLeast with
      | infinity => exact congrArg UnpackedFloat.isFinite (unpack_pack_zero _)
      | positive positive reaches =>
          exact isFinite_div_finite some positive canonical small reaches

/-- The average of a finite sum is finite, over however many numbers it is taken. -/
theorem isFinite_average
    {sum : Float}
    (finite : sum.isFinite = true)
    (count : Nat) :
    (average sum count).isFinite = true := by
  unfold average
  split
  · rfl
  · rename_i some
    exact isFinite_div finite (atLeastOne_ofNat (Nat.pos_of_ne_zero some))

end Averages

end Binary64
end StagePipeline
