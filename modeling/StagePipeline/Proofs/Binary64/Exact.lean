import StagePipeline.Proofs.Binary64.Rounding

/-!
# The exact values of finite floats

The bits of a finite float tell its sign, its significand and the place of its last bit, and
are told by these.  So does every canonical significand at a place that is not too high have
its float, and two floats that stand for the same are the same.
-/

namespace StagePipeline
namespace Binary64

open Float.Model Float.Model.UnpackedFloat

variable
  {value other : Float}
  {exact : Dyadic}
  {negative : Bool}
  {bits significand : Nat}
  {exponent : Int}

/-! ## Bits -/

theorem infinityBits_eq : infinityBits = 2047 * 2 ^ 52 :=
  rfl

theorem toNat_unpackExponent (bits : UInt64) :
    (@unpackExponent .binary64 bits.toBitVec).toNat = bits.toNat / 2 ^ 52 % 2 ^ 11 := by
  rw [unpackExponent_def, BitVec.extractLsb'_toNat, Nat.shiftRight_eq_div_pow]
  rfl

theorem toNat_unpackMantissa (bits : UInt64) :
    (@unpackMantissa .binary64 bits.toBitVec).toNat = bits.toNat % 2 ^ 52 := by
  rw [unpackMantissa_def, BitVec.extractLsb'_toNat, Nat.shiftRight_zero]
  rfl

/-- The exponent is all ones for what is infinite or not a number. -/
theorem unpackExponent_eq_iff (bits : UInt64) :
    @unpackExponent .binary64 bits.toBitVec = -1#11 ↔
      infinityBits ≤ bits.toNat % 2 ^ 63 := by
  rw [← BitVec.toNat_inj, toNat_unpackExponent, infinityBits_eq]
  change _ = 2047 ↔ _
  omega

/-- The magnitudes up to infinity are those of floats. -/
theorem toBits_ofMagnitude (negative : Bool) (small : bits ≤ infinityBits) :
    (ofMagnitude negative bits).toBits.toNat = if negative then 2 ^ 63 + bits else bits := by
  rw [infinityBits_eq] at small
  have fits : (if negative then Nat.pow 2 63 + bits else bits) < 2 ^ 64 := by
    change (if negative then 2 ^ 63 + bits else bits) < 2 ^ 64
    split <;> omega
  let word := UInt64.ofNat (if negative then Nat.pow 2 63 + bits else bits)
  have word_eq : word.toNat = if negative then 2 ^ 63 + bits else bits :=
    UInt64.toNat_ofNat_of_lt' fits
  have number : @isNaNBits .binary64 word.toBitVec = false := by
    rw [isNaNBits, decide_eq_false_iff_not, not_and, not_not, unpackExponent_eq_iff,
      ← BitVec.toNat_inj, toNat_unpackMantissa, word_eq, infinityBits_eq]
    intro large
    change _ = 0
    split at large <;> split <;> omega
  have packed := @pack_unpack .binary64 word.toBitVec (by decide)
  rw [number, if_neg Bool.false_ne_true] at packed
  exact (congrArg BitVec.toNat packed).trans word_eq

/-- A magnitude is read back from the float that it makes. -/
theorem magnitude_ofMagnitude (negative : Bool) (small : bits ≤ infinityBits) :
    magnitude (ofMagnitude negative bits) = bits := by
  rw [magnitude, toBits_ofMagnitude negative small]
  rw [infinityBits_eq] at small
  change _ % 2 ^ 63 = bits
  split <;> omega

theorem isNegative_ofMagnitude (negative : Bool) (small : bits ≤ infinityBits) :
    isNegative (ofMagnitude negative bits) = negative := by
  rw [isNegative, toBits_ofMagnitude negative small]
  rw [infinityBits_eq] at small
  change decide (2 ^ 63 ≤ _) = negative
  cases negative with
  | false => exact decide_eq_false (by simp only [Bool.false_eq_true, if_false]; omega)
  | true => exact decide_eq_true (Nat.le_add_right _ _)

/-- A float is finite if its magnitude is below that of the infinite ones. -/
theorem isFinite_iff : value.isFinite = true ↔ magnitude value < infinityBits := by
  rw [← not_le, magnitude]
  change _ ↔ ¬infinityBits ≤ value.toBits.toNat % 2 ^ 63
  rw [← unpackExponent_eq_iff]
  change (UnpackedFloat.unpack .binary64 value.toBits.toBitVec).isFinite = true ↔ _
  unfold UnpackedFloat.unpack
  simp only
  split
  · rename_i last
    exact iff_of_false (by split <;> exact Bool.false_ne_true) (not_not_intro last)
  · rename_i inner
    refine iff_of_true ?_ inner
    split
    · split <;> rfl
    · rfl

/-! ## Decoding -/

/-- A float is decoded by its exponent, which is implicit for the subnormal ones. -/
theorem decode?_eq (value : Float) :
    decode? value =
      if infinityBits ≤ magnitude value then none
      else if magnitude value < 2 ^ 52 then
        some ⟨isNegative value, magnitude value, -1074⟩
      else
        some ⟨isNegative value, 2 ^ 52 + magnitude value % 2 ^ 52,
          ((magnitude value / 2 ^ 52 : Nat) : Int) - 1075⟩ :=
  rfl

/-- The bits of a finite float can be told from what it stands for, which is canonical. -/
theorem bits_of_decode? (decoded : decode? value = some exact) :
    IsCanonical exact.significand exact.exponent ∧ exact.exponent ≤ 971 ∧
      isNegative value = exact.negative ∧
      magnitude value = (exact.exponent + 1074).toNat * 2 ^ 52 + exact.significand := by
  rw [decode?_eq, infinityBits_eq] at decoded
  generalize magnitude value = bits at decoded ⊢
  generalize isNegative value = negative at decoded ⊢
  split at decoded
  · cases decoded
  · rename_i finite
    split at decoded
    · rename_i first
      cases decoded
      simp only
      exact ⟨⟨by omega, by omega, Or.inl rfl⟩, by omega, trivial, by omega⟩
    · rename_i full
      cases decoded
      simp only
      exact ⟨⟨by omega, by omega, Or.inr (by omega)⟩, by omega, trivial, by omega⟩

/-- Floats that stand for the same are the same. -/
theorem eq_of_decode?
    (decoded : decode? value = some exact)
    (otherDecoded : decode? other = some exact) :
    value = other := by
  obtain ⟨-, -, sign, magnitude⟩ := bits_of_decode? decoded
  obtain ⟨-, -, otherSign, otherMagnitude⟩ := bits_of_decode? otherDecoded
  have same : isNegative value = isNegative other := sign.trans otherSign.symm
  have sameBits : value.toBits.toNat % 2 ^ 63 = other.toBits.toNat % 2 ^ 63 :=
    magnitude.trans otherMagnitude.symm
  have room := value.toBits.toNat_lt
  have otherRoom := other.toBits.toNat_lt
  rw [isNegative, isNegative, decide_eq_decide] at same
  change 2 ^ 63 ≤ _ ↔ 2 ^ 63 ≤ _ at same
  rw [← Float.toBits_inj, ← UInt64.toNat_inj]
  omega

/-- A canonical significand at a place that is not too high has its float. -/
theorem decode?_ofMagnitude
    (canonical : IsCanonical significand exponent)
    (small : exponent ≤ 971)
    (negative : Bool) :
    decode? (ofMagnitude negative ((exponent + 1074).toNat * 2 ^ 52 + significand)) =
      some ⟨negative, significand, exponent⟩ := by
  obtain ⟨below, least, full⟩ := canonical
  have finite : (exponent + 1074).toNat * 2 ^ 52 + significand < infinityBits := by
    rw [infinityBits_eq]
    omega
  rw [decode?_eq, magnitude_ofMagnitude negative (Nat.le_of_lt finite),
    isNegative_ofMagnitude negative (Nat.le_of_lt finite), if_neg (Nat.not_le_of_lt finite)]
  split
  · rename_i first
    congr 2
    · omega
    · omega
  · rename_i full
    congr 2
    · omega
    · omega

end Binary64
end StagePipeline
