import StagePipeline.Decimal.Literal
import StagePipeline.Proofs.Binary64.Nearest

/-!
# How large literals are

A run of digits stands for a number in base ten, and a literal for that times a power of
ten.  It is rounded as any other quotient.  Literals with large exponents are beyond every
finite float and those with small ones are nearer to zero than to any other float, however
many digits they have, so that nothing is lost where their power of ten is never formed.
-/

namespace StagePipeline
namespace Decimal

open Binary64

/-! ## Runs of digits -/

/-- Whether a text consists of digits only. -/
def AreDigits (text : List Char) : Prop :=
  ∀ character ∈ text, character.isDigit = true

/-- The number that a run of digits is in base ten. -/
def numberOf (digits : List Char) : Nat :=
  Nat.ofDigits 10 (digits.reverse.map digitValue)

section Digits

variable
  {digit : Char}
  {digits : List Char}

/-- Another digit at the end moves all others up by one place. -/
theorem digitsValue_concat (digits : List Char) (digit : Char) :
    digitsValue (digits ++ [digit]) = 10 * digitsValue digits + digitValue digit := by
  rw [digitsValue, List.foldl_append]
  rfl

theorem digitsValue_eq (digits : List Char) : digitsValue digits = numberOf digits := by
  induction digits using List.reverseRecOn with
  | nil => rfl
  | append_singleton digits digit inductionHypothesis =>
      rw [digitsValue_concat, inductionHypothesis, numberOf, numberOf, List.reverse_concat,
        List.map_cons, Nat.ofDigits_cons, Nat.add_comm]

/-- Further digits move the number up by as many places. -/
theorem numberOf_append (digits further : List Char) :
    numberOf (digits ++ further) = numberOf digits * 10 ^ further.length + numberOf further := by
  simp only [numberOf, List.reverse_append, List.map_append, Nat.ofDigits_append,
    List.length_map, List.length_reverse]
  ring

theorem digitValue_lt (isDigit : digit.isDigit = true) : digitValue digit < 10 := by
  rw [Char.isDigit, Bool.and_eq_true, decide_eq_true_eq, decide_eq_true_eq] at isDigit
  have most : digit.toNat ≤ 57 := isDigit.2
  have zero : '0'.toNat = 48 := rfl
  rw [digitValue, zero]
  omega

/-- A number has at most as many places as digits. -/
theorem numberOf_lt (areDigits : AreDigits digits) :
    numberOf digits < 10 ^ digits.length := by
  rw [numberOf, ← List.length_reverse, ← List.length_map digitValue]
  refine Nat.ofDigits_lt_base_pow_length (by decide) fun value present => ?_
  obtain ⟨digit, among, rfl⟩ := List.mem_map.mp present
  exact digitValue_lt (areDigits digit (List.mem_reverse.mp among))

end Digits

/-! ## Powers of ten -/

/-- Numbers are too large from here on. -/
theorem overflowBound_le : overflowBound ≤ 10 ^ (311 : Int) := by
  have natural : 2 ^ 1024 ≤ 10 ^ 311 := by decide +kernel
  have power : (2 : ℚ) ^ (1024 : Int) ≤ 10 ^ (311 : Int) := by exact_mod_cast natural
  have room : (2 ^ 53 - 1 : ℚ) * 2 ^ (971 : Int) ≤ 2 ^ (1024 : Int) := by
    rw [sub_mul, ← two_zpow_add]
    exact sub_le_self _ (by positivity)
  unfold overflowBound
  generalize (10 : ℚ) ^ (311 : Int) = most at power ⊢
  generalize (2 : ℚ) ^ (1024 : Int) = next at power room ⊢
  linarith

/-- Numbers are rounded to zero up to here. -/
theorem ten_zpow_le : (10 : ℚ) ^ (-331 : Int) ≤ 2 ^ (-1075 : Int) := by
  have natural : 2 ^ 1075 ≤ 10 ^ 331 := by decide +kernel
  have power : (2 : ℚ) ^ (1075 : Int) ≤ 10 ^ (331 : Int) := by exact_mod_cast natural
  rw [zpow_neg, zpow_neg]
  exact inv_anti₀ (by positivity) power

/-! ## Literals -/

namespace Literal

/-- The size of the number that a literal stands for. -/
def size (literal : Literal) : ℚ :=
  literal.coefficient * 10 ^ literal.exponent

variable {literal : Literal}

theorem size_nonneg (literal : Literal) : 0 ≤ literal.size := by
  unfold size
  positivity

/-- The digits and the exponent bound the size of a literal. -/
theorem size_lt (areDigits : AreDigits literal.digits) :
    literal.size < 10 ^ (literal.exponent + literal.digits.length) := by
  have below : (literal.coefficient : ℚ) < 10 ^ literal.digits.length := by
    rw [coefficient, digitsValue_eq]
    exact_mod_cast numberOf_lt areDigits
  rw [size, Int.add_comm, zpow_add₀ (by decide), zpow_natCast]
  exact mul_lt_mul_of_pos_right below (by positivity)

/-- A literal far outside the range of floats becomes zero or infinite without a division. -/
theorem toFloat_eq (literal : Literal) :
    literal.toFloat =
      if literal.coefficient = 0 then ofMagnitude literal.negative 0
      else if 310 < literal.exponent then ofMagnitude literal.negative infinityBits
      else if literal.exponent + literal.digits.length < -330 then
        ofMagnitude literal.negative 0
      else
        ofRatio literal.negative (literal.coefficient * 10 ^ literal.exponent.toNat)
          (10 ^ (-literal.exponent).toNat) :=
  rfl

/-- A literal is rounded to the nearest float. -/
theorem isRounding_toFloat (areDigits : AreDigits literal.digits) :
    IsRounding literal.negative literal.size literal.toFloat := by
  rw [toFloat_eq]
  split
  · rename_i none
    rw [size, none, Nat.cast_zero, zero_mul]
    exact isRounding_of_le le_rfl (by positivity)
  · rename_i some
    have one : (1 : ℚ) ≤ literal.coefficient := by
      exact_mod_cast Nat.one_le_iff_ne_zero.mpr some
    split
    · refine .infinite ?_
      calc
        overflowBound ≤ 10 ^ (311 : Int) := overflowBound_le
        _ ≤ 10 ^ literal.exponent := zpow_le_zpow_right₀ (by norm_num) (by omega)
        _ ≤ literal.size := le_mul_of_one_le_left (by positivity) one
    · split
      · refine isRounding_of_le literal.size_nonneg ?_
        calc
          literal.size ≤ 10 ^ (literal.exponent + literal.digits.length) :=
            (size_lt areDigits).le
          _ ≤ 10 ^ (-331 : Int) := zpow_le_zpow_right₀ (by norm_num) (by omega)
          _ ≤ 2 ^ (-1075 : Int) := ten_zpow_le
      · have quotient : literal.size =
            (literal.coefficient * 10 ^ literal.exponent.toNat : Nat) /
              (10 ^ (-literal.exponent).toNat : Nat) := by
          have power : (10 : ℚ) ^ literal.exponent =
              10 ^ literal.exponent.toNat / 10 ^ (-literal.exponent).toNat :=
            zpow_eq_div (by decide) (by omega)
          rw [size, power]
          push_cast
          exact mul_div_assoc' _ _ _
        rw [quotient]
        exact isRounding_ofRatio (by positivity)

end Literal
end Decimal
end StagePipeline
