import StagePipeline.Settings.Document

/-!
# Bounds of settings

Settings are accepted if and only if every field is within its bounds.  Otherwise they are
refused as a whole, by a fault that has a line for every field that is not.
-/

namespace StagePipeline
namespace Settings

variable {settings : Settings}

theorem Field.mem_all (field : Field) : field ∈ all := by
  cases field <;> decide

/-- Nothing is wrong with a field exactly if its number is within the bounds. -/
theorem violation?_eq_none_iff (field : Field) :
    settings.violation? field = none ↔
      ∀ number ∈ settings.measure? field, field.least ≤ number ∧ number ≤ field.greatest := by
  unfold violation?
  cases settings.measure? field with
  | none => simp
  | some number =>
      simp only [Option.mem_def, Option.some.injEq, forall_eq']
      split
      · simp only [reduceCtorEq, false_iff]
        omega
      · split
        · simp only [reduceCtorEq, false_iff]
          omega
        · simp only [true_iff]
          omega

/-- Nothing is complained of exactly if all fields are in range. -/
theorem violations_eq_nil_iff : settings.violations = [] ↔ settings.InRange := by
  rw [violations, List.filterMap_eq_nil_iff]
  simp only [Field.mem_all, forall_const, violation?_eq_none_iff, InRange]

/-- Settings are accepted exactly if they are in range. -/
theorem validate_eq_ok_iff : settings.validate = .ok () ↔ settings.InRange := by
  rw [← violations_eq_nil_iff]
  unfold validate
  split
  · rename_i clean
    simp only [clean]
  · rename_i lines dirty
    simp only [reduceCtorEq, false_iff]
    exact dirty

theorem inRange_of_validate (accepted : settings.validate = .ok ()) : settings.InRange :=
  validate_eq_ok_iff.mp accepted

theorem checked_eq_ok_iff {other : Settings} :
    settings.checked = .ok other ↔ settings = other ∧ settings.InRange := by
  rw [← validate_eq_ok_iff, checked]
  cases settings.validate with
  | error fault => simp [bind, Except.bind]
  | ok accepted => simp [bind, Except.bind, pure, Except.pure]

/-- The bounds of all fields, spelled out.  A text counts by its length in bytes, and a limit
that is missing is within bounds. -/
structure IsBounded (settings : Settings) : Prop where
  batchSize : 1 ≤ settings.batchSize ∧ settings.batchSize ≤ 1000000
  mailboxCapacity : 1 ≤ settings.mailboxCapacity ∧ settings.mailboxCapacity ≤ 1024
  drainTimeout : 1 ≤ settings.drainTimeout ∧ settings.drainTimeout ≤ 60000
  stageTimeout : ∀ limit ∈ settings.stageTimeout, 1 ≤ limit ∧ limit ≤ 3600000
  threadNamePrefix :
    1 ≤ settings.threadNamePrefix.utf8ByteSize ∧ settings.threadNamePrefix.utf8ByteSize ≤ 64

/-- To be in range is to be within the bounds of every field. -/
theorem inRange_iff_isBounded : settings.InRange ↔ settings.IsBounded := by
  constructor
  · intro inRange
    exact ⟨inRange .batchSize _ rfl, inRange .mailboxCapacity _ rfl, inRange .drainTimeout _ rfl,
      inRange .stageTimeout, inRange .threadNamePrefix _ rfl⟩
  · intro bounded field number measured
    cases field with
    | batchSize => exact Option.some.inj measured ▸ bounded.batchSize
    | drainTimeout => exact Option.some.inj measured ▸ bounded.drainTimeout
    | mailboxCapacity => exact Option.some.inj measured ▸ bounded.mailboxCapacity
    | stageTimeout => exact bounded.stageTimeout number measured
    | threadNamePrefix => exact Option.some.inj measured ▸ bounded.threadNamePrefix

/-! ## Refusals -/

/-- The sides on which a number can lie outside of its bounds. -/
inductive Side where
  | low
  | high

/-- What is said of a field whose number lies on a side of its bounds. -/
def Field.complaint (field : Field) (side : Side) : String :=
  field.key ++ ": " ++ (if field = .threadNamePrefix then "length is " else "") ++
    match side with
    | .low => "lower than " ++ toString field.least
    | .high => "greater than " ++ toString field.greatest

/-- A field whose number lies on a side of its bounds. -/
inductive Offends (settings : Settings) (field : Field) : Side → Prop where
  | low {number : Nat} :
      settings.measure? field = some number → number < field.least → Offends settings field .low
  | high {number : Nat} :
      settings.measure? field = some number → field.greatest < number →
      Offends settings field .high

/-- The fault of refused settings: a line for every field that offends, in the order of the
keys, and no other line. -/
inductive IsRefusal (settings : Settings) : Fault → Prop where
  | lines {offences : List (Field × Side)} :
      offences ≠ [] →
      offences.Pairwise (fun first second => first.1.key < second.1.key) →
      (∀ field side, (field, side) ∈ offences ↔ settings.Offends field side) →
      IsRefusal settings (.configuration "pipeline_config" ("Validation failed: " ++
        String.join (offences.map fun offence => offence.1.complaint offence.2 ++ "\n")))

/-- The side on which a field offends, if it does. -/
def offence? (settings : Settings) (field : Field) : Option Side :=
  (settings.measure? field).bind fun number =>
    if number < field.least then some .low
    else if field.greatest < number then some .high
    else none

/-- All fields that offend, in the order of the keys. -/
def offences (settings : Settings) : List (Field × Side) :=
  Field.all.filterMap fun field => (settings.offence? field).map fun side => (field, side)

theorem Field.least_le_greatest (field : Field) : field.least ≤ field.greatest := by
  cases field <;> decide

/-- A field offends on the side that is found for it. -/
theorem offence?_eq_some_iff {field : Field} {side : Side} :
    settings.offence? field = some side ↔ settings.Offends field side := by
  have bounds := field.least_le_greatest
  rw [offence?, Option.bind_eq_some_iff]
  constructor
  · rintro ⟨number, measured, outside⟩
    split at outside
    · rename_i less
      cases outside
      exact .low measured less
    · split at outside
      · rename_i greater
        cases outside
        exact .high measured greater
      · cases outside
  · rintro (⟨measured, less⟩ | ⟨measured, greater⟩)
    · exact ⟨_, measured, if_pos less⟩
    · exact ⟨_, measured, by rw [if_neg (by omega), if_pos greater]⟩

/-- The complaint about a field is that of its offence. -/
theorem violation?_eq (field : Field) :
    settings.violation? field = (settings.offence? field).map field.complaint := by
  unfold violation? offence?
  cases settings.measure? field with
  | none => rfl
  | some number =>
      rw [Option.bind_some]
      simp only
      split
      · simp [Field.complaint, String.append_assoc]
      · split
        · simp [Field.complaint, String.append_assoc]
        · rfl

/-- The offences are those of all fields. -/
theorem mem_offences {field : Field} {side : Side} :
    (field, side) ∈ settings.offences ↔ settings.Offends field side := by
  rw [← offence?_eq_some_iff, offences, List.mem_filterMap]
  constructor
  · rintro ⟨other, -, same⟩
    obtain ⟨otherSide, offends, same⟩ := Option.map_eq_some_iff.mp same
    cases same
    exact offends
  · intro offends
    exact ⟨field, field.mem_all, by rw [offends, Option.map_some]⟩

/-- The offences come in the order of their keys, no field twice. -/
theorem pairwise_offences (settings : Settings) :
    settings.offences.Pairwise fun first second => first.1.key < second.1.key := by
  have ordered : Field.all.Pairwise fun first second => first.key < second.key := by decide
  refine ordered.filterMap _ fun first second less offence offends other otherOffends => ?_
  obtain ⟨side, -, rfl⟩ := Option.map_eq_some_iff.mp offends
  obtain ⟨otherSide, -, rfl⟩ := Option.map_eq_some_iff.mp otherOffends
  exact less

/-- The complaints are those of the offences, in their order. -/
theorem violations_eq (settings : Settings) :
    settings.violations = settings.offences.map fun offence => offence.1.complaint offence.2 := by
  rw [violations, offences, List.map_filterMap]
  congr
  funext field
  rw [violation?_eq, Option.map_map]
  rfl

/-- Settings out of bounds are refused, and the fault says which fields offend. -/
theorem exists_isRefusal (outside : ¬settings.InRange) :
    ∃ fault, settings.IsRefusal fault ∧ settings.validate = .error fault := by
  rw [← violations_eq_nil_iff, violations_eq] at outside
  refine ⟨_, .lines (fun none => outside (by rw [none]; rfl)) (pairwise_offences settings)
    fun _ _ => mem_offences, ?_⟩
  unfold validate
  rw [violations_eq]
  split
  · contradiction
  · rw [List.map_map]
    rfl

/-- Settings out of range are refused as a whole, under the name of the configuration. -/
theorem validate_eq_error (outside : ¬settings.InRange) :
    ∃ reason, settings.validate = .error (.configuration "pipeline_config" reason) := by
  obtain ⟨fault, refusal, refused⟩ := exists_isRefusal outside
  cases refusal with
  | lines => exact ⟨_, refused⟩

theorem checked_eq_error (outside : ¬settings.InRange) :
    ∃ reason, settings.checked = .error (.configuration "pipeline_config" reason) := by
  obtain ⟨reason, refused⟩ := validate_eq_error outside
  exact ⟨reason, by rw [checked, refused]; rfl⟩

end Settings
end StagePipeline
