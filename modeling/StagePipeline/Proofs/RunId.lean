import Mathlib.Tactic.Ring
import StagePipeline.RunId

/-!
# Reading back run identifiers

The digits of an identifier are those of its number, so that the written form of an
identifier is read as the same identifier.
-/

namespace StagePipeline

/-! ## Hexadecimal digits -/

namespace Text

theorem hexValue?_hexDigit {value : Nat} (small : value < 16) :
    hexValue? (hexDigit value) = some value := by
  have all : ∀ digit : Fin 16, hexValue? (hexDigit digit) = some digit.val := by decide
  exact all ⟨value, small⟩

/-- A text of digits is read as the number that they make up. -/
theorem hexNumber?_map {values : List Nat} (small : ∀ value ∈ values, value < 16) :
    hexNumber? (values.map hexDigit) =
      some (values.foldl (fun number digit => 16 * number + digit) 0) := by
  have read : (values.map hexDigit).mapM hexValue? = some values := by
    induction values with
    | nil => rfl
    | cons value rest inductionHypothesis =>
        obtain ⟨here, others⟩ := List.forall_mem_cons.mp small
        rw [List.map_cons, List.mapM_cons, hexValue?_hexDigit here, inductionHypothesis others]
        rfl
  rw [hexNumber?, read, Option.map_some]

/-- The lowest digits of a number, most significant first, make it up. -/
theorem foldl_digits (places number start : Nat) :
    ((List.range places).map fun place => number / 16 ^ (places - 1 - place) % 16).foldl
        (fun number digit => 16 * number + digit) start =
      start * 16 ^ places + number % 16 ^ places := by
  induction places generalizing start with
  | zero => simp [Nat.mod_one]
  | succ places inductionHypothesis =>
      have later : ((List.range places).map Nat.succ).map
            (fun place => number / 16 ^ (places + 1 - 1 - place) % 16) =
          (List.range places).map fun place => number / 16 ^ (places - 1 - place) % 16 := by
        rw [List.map_map]
        refine List.map_congr_left fun place _ => ?_
        simp only [Function.comp_apply]
        congr 3
        omega
      rw [List.range_succ_eq_map, List.map_cons, List.foldl_cons, later, inductionHypothesis,
        Nat.add_sub_cancel, Nat.sub_zero, Nat.pow_succ, Nat.mod_mul]
      ring

end Text

/-! ## Identifiers -/

namespace RunId

variable (id : RunId)

theorem digits_length : id.digits.length = 32 := by
  simp [digits]

theorem hexNumber?_digits : Text.hexNumber? id.digits = some id.value := by
  have listed : id.digits =
      ((List.range 32).map fun place => id.value / 16 ^ (32 - 1 - place) % 16).map
        Text.hexDigit := by
    rw [digits, List.map_map]
    rfl
  have small : ∀ value ∈ (List.range 32).map fun place =>
      id.value / 16 ^ (32 - 1 - place) % 16, value < 16 := by
    intro value present
    obtain ⟨place, -, rfl⟩ := List.mem_map.mp present
    exact Nat.mod_lt _ (by decide)
  have bounded : id.value < 16 ^ 32 := id.bounded
  rw [listed, Text.hexNumber?_map small, Text.foldl_digits, Nat.mod_eq_of_lt bounded,
    Nat.zero_mul, Nat.zero_add]

theorem ofDigits?_digits : ofDigits? id.digits = some id := by
  rw [ofDigits?, if_pos id.digits_length, id.hexNumber?_digits, Option.map_some]
  cases id with
  | mk value bounded => simp [ofNat, Nat.mod_eq_of_lt bounded]

/-- Five groups of digits joined by hyphens are read as the digits. -/
theorem ofHyphenated?_groups
    {first second third fourth fifth : List Char}
    (firstLength : first.length = 8)
    (secondLength : second.length = 4)
    (thirdLength : third.length = 4)
    (fourthLength : fourth.length = 4)
    (fifthLength : fifth.length = 12) :
    ofHyphenated? (first ++ '-' :: (second ++ '-' :: (third ++ '-' :: (fourth ++ '-' :: fifth)))) =
      ofDigits? (first ++ second ++ third ++ fourth ++ fifth) := by
  simp (disch := omega) [ofHyphenated?, List.drop_append, List.getElem?_append,
    List.drop_of_length_le, firstLength, secondLength, thirdLength, fourthLength, fifthLength,
    List.getElem?_cons_zero]

/-- The written form of an identifier is read as that identifier. -/
theorem parse?_hyphenated : parse? id.hyphenated.toList = some id := by
  have groups : id.hyphenated.toList =
      id.digits.take 8 ++ '-' :: ((id.digits.drop 8).take 4 ++ '-' ::
        ((id.digits.drop 12).take 4 ++ '-' :: ((id.digits.drop 16).take 4 ++ '-' ::
          (id.digits.drop 20).take 12))) := by
    simp [hyphenated]
  have length := id.digits_length
  have rejoined : id.digits.take 8 ++ (id.digits.drop 8).take 4 ++ (id.digits.drop 12).take 4 ++
      (id.digits.drop 16).take 4 ++ (id.digits.drop 20).take 12 = id.digits := by
    calc
      _ = id.digits.take 32 := by simp only [← List.take_add]
      _ = id.digits := List.take_of_length_le (Nat.le_of_eq length)
  have read : ofHyphenated? id.hyphenated.toList = some id := by
    rw [groups, ofHyphenated?_groups, rejoined, ofDigits?_digits]
    all_goals simp [length]
  have length : id.hyphenated.toList.length = 36 := by
    rw [groups]
    simp [length]
  rw [parse?, length]
  exact read

end RunId
end StagePipeline
