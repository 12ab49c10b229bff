import StagePipeline.Report

/-!
# Counters in words

A counter that is kept in a word has a limit.  Checked counters take in what the ones without
a limit do exactly if all fit a word afterwards, and a counter that fits a word after a hop has
fitted one before it.
-/

namespace StagePipeline

/-- All counters of a stage fit a word. -/
structure StageMetrics.Fits (metrics : StageMetrics) : Prop where
  batches : metrics.batches < Word.limit
  recordsIn : metrics.recordsIn < Word.limit
  recordsOut : metrics.recordsOut < Word.limit
  totalMicroseconds : metrics.totalMicroseconds < Word.limit

instance (metrics : StageMetrics) : Decidable metrics.Fits :=
  decidable_of_iff
    (metrics.batches < Word.limit ∧ metrics.recordsIn < Word.limit ∧
      metrics.recordsOut < Word.limit ∧ metrics.totalMicroseconds < Word.limit)
    ⟨fun ⟨batches, recordsIn, recordsOut, totalMicroseconds⟩ =>
      ⟨batches, recordsIn, recordsOut, totalMicroseconds⟩,
    fun fits => ⟨fits.batches, fits.recordsIn, fits.recordsOut, fits.totalMicroseconds⟩⟩

namespace StageMetrics

variable {metrics : StageMetrics} {recordsIn recordsOut : Nat} {elapsed : Duration}

/-- Checked counters take a hop in if and only if they fit a word afterwards. -/
theorem recordChecked_eq_ok_iff :
    metrics.recordChecked recordsIn recordsOut elapsed =
        .ok (metrics.record recordsIn recordsOut elapsed) ↔
      (metrics.record recordsIn recordsOut elapsed).Fits := by
  unfold recordChecked
  simp only
  constructor
  · intro counted
    split at counted
    · cases counted
    split at counted
    · cases counted
    split at counted
    · cases counted
    split at counted
    · cases counted
    constructor <;> omega
  · rintro ⟨batches, recordsIn, recordsOut, totalMicroseconds⟩
    rw [if_neg (Nat.not_le_of_lt batches), if_neg (Nat.not_le_of_lt recordsIn),
      if_neg (Nat.not_le_of_lt recordsOut), if_neg (Nat.not_le_of_lt totalMicroseconds)]

theorem Fits.of_record (fits : (metrics.record recordsIn recordsOut elapsed).Fits) :
    metrics.Fits := by
  obtain ⟨batches, recordsIn, recordsOut, totalMicroseconds⟩ := fits
  constructor
  · exact Nat.lt_of_le_of_lt (Nat.le_add_right _ _) batches
  · exact Nat.lt_of_le_of_lt (Nat.le_add_right _ _) recordsIn
  · exact Nat.lt_of_le_of_lt (Nat.le_add_right _ _) recordsOut
  · exact Nat.lt_of_le_of_lt (Nat.le_add_right _ _) totalMicroseconds

end StageMetrics

/-- A checked tally takes a summary in if and only if its count fits a word afterwards. -/
theorem Tally.pushChecked_eq_ok_iff {tally : Tally} {summary : Summary} :
    tally.pushChecked summary = .ok (tally.push summary) ↔
      (tally.push summary).count < Word.limit := by
  unfold pushChecked
  split
  · rename_i fits
    exact iff_of_true rfl fits
  · rename_i exceeds
    exact iff_of_false nofun exceeds

end StagePipeline
