import StagePipeline.Proofs.Rearrangement

/-!
# Records that a stage cannot take

A built-in stage takes a batch whole or not at all.  Where texts are read it takes raw
records whose texts are numbers, and everywhere else records that carry numbers.  The first
record that it cannot take decides how it fails, whatever stands behind that one.  A batch
that is taken keeps its index, and loses only those records that the filter drops.
-/

namespace StagePipeline

/-! ## Records that are taken, and records that are not -/

namespace StageKind

/-- The kinds that work on numbers. -/
inductive WorksOnNumbers : StageKind → Prop where
  | transform : WorksOnNumbers .transform
  | filter : WorksOnNumbers .filter
  | aggregate : WorksOnNumbers .aggregate

/-- The records that a built-in kind can take. -/
inductive Takes : StageKind → Record → Prop where
  | raw {id : Nat} {text : String} {value : Float} :
      parseValue text = .ok value → Takes .parse (.raw id text)
  | parsed {kind : StageKind} {id : Nat} {value : Float} {timestamp : Timestamp} :
      kind.WorksOnNumbers → Takes kind (.parsed id value timestamp)
  | transformed {kind : StageKind} {id : Nat} {value normalized squared : Float}
      {timestamp : Timestamp} :
      kind.WorksOnNumbers → Takes kind (.transformed id value timestamp normalized squared)

/-- The failure of a built-in kind at a record that it cannot take. -/
inductive Rejects : StageKind → Record → Failure → Prop where
  /-- The text, with its blanks, is not a number. -/
  | unreadable {id : Nat} {text : String} {fault : NumberFault} :
      parseValue text = .error fault →
      Rejects .parse (.raw id text) (.parse id text fault.reason)
  | parsed {id : Nat} {value : Float} {timestamp : Timestamp} :
      Rejects .parse (.parsed id value timestamp)
        (.transform ("parse expects raw records, got parsed record " ++ toString id))
  | transformed {id : Nat} {value normalized squared : Float} {timestamp : Timestamp} :
      Rejects .parse (.transformed id value timestamp normalized squared)
        (.transform ("parse expects raw records, got transformed record " ++ toString id))
  | raw {kind : StageKind} {id : Nat} {text : String} :
      kind.WorksOnNumbers →
      Rejects kind (.raw id text)
        (.transform (kind.label ++ " expects numeric records, got raw record " ++ toString id))

/-- The failure at the first record of a batch that a kind cannot take. -/
def FailsFirst (kind : StageKind) (batch : Batch) (failure : Failure) : Prop :=
  ∃ before record after, batch.records = before ++ record :: after ∧
    (∀ earlier ∈ before, kind.Takes earlier) ∧ kind.Rejects record failure

variable
  {kind : StageKind}
  {record : Record}

theorem parse_or_worksOnNumbers (builtin : kind.isBuiltin = true) :
    kind = .parse ∨ kind.WorksOnNumbers := by
  cases kind with
  | parse => exact Or.inl rfl
  | transform => exact Or.inr .transform
  | filter => exact Or.inr .filter
  | aggregate => exact Or.inr .aggregate
  | custom => cases builtin

/-- A record that a built-in kind cannot take has its failure. -/
theorem takes_or_rejects (builtin : kind.isBuiltin = true) (record : Record) :
    kind.Takes record ∨ ∃ failure, kind.Rejects record failure := by
  rcases parse_or_worksOnNumbers builtin with rfl | numeric
  · cases record with
    | raw id text =>
        cases read : parseValue text with
        | ok value => exact Or.inl (.raw read)
        | error fault => exact Or.inr ⟨_, .unreadable read⟩
    | parsed => exact Or.inr ⟨_, .parsed⟩
    | transformed => exact Or.inr ⟨_, .transformed⟩
  · cases record with
    | raw => exact Or.inr ⟨_, .raw numeric⟩
    | parsed => exact Or.inl (.parsed numeric)
    | transformed => exact Or.inl (.transformed numeric)

/-- Either all records of a batch are taken, or there is a first one that is not. -/
theorem takes_all_or_failsFirst (builtin : kind.isBuiltin = true) (batch : Batch) :
    (∀ record ∈ batch.records, kind.Takes record) ∨ ∃ failure, kind.FailsFirst batch failure := by
  rcases forall_or_first kind.Takes batch.records with
    all | ⟨before, record, after, split, taken, culprit⟩
  · exact Or.inl all
  · obtain ⟨failure, rejects⟩ := (takes_or_rejects builtin record).resolve_left culprit
    exact Or.inr ⟨failure, before, record, after, split, taken, rejects⟩

theorem Takes.carries
    (takes : kind.Takes record)
    (numeric : kind.WorksOnNumbers) :
    record.value?.isSome = true := by
  cases takes with
  | raw => cases numeric
  | parsed | transformed => rfl

/-- A kind that works on numbers rejects raw records only. -/
theorem Rejects.eq_raw
    {failure : Failure}
    (rejects : kind.Rejects record failure)
    (numeric : kind.WorksOnNumbers) :
    ∃ id text, record = .raw id text ∧ failure =
      .transform (kind.label ++ " expects numeric records, got raw record " ++ toString id) := by
  cases rejects with
  | raw => exact ⟨_, _, rfl, rfl⟩
  | unreadable | parsed | transformed => cases numeric

/-- No record is both taken and rejected. -/
theorem Rejects.not_takes
    {failure : Failure}
    (rejects : kind.Rejects record failure) :
    ¬kind.Takes record := by
  intro takes
  cases rejects with
  | unreadable unread =>
      cases takes with
      | raw read => cases read.symm.trans unread
  | raw numeric =>
      cases takes with
      | raw => cases numeric
  | parsed =>
      cases takes with
      | parsed numeric => cases numeric
  | transformed =>
      cases takes with
      | transformed numeric => cases numeric

theorem FailsFirst.exists_not_takes
    {batch : Batch}
    {failure : Failure}
    (fails : kind.FailsFirst batch failure) :
    ∃ record ∈ batch.records, ¬kind.Takes record := by
  obtain ⟨before, record, after, split, -, rejects⟩ := fails
  refine ⟨record, ?_, rejects.not_takes⟩
  rw [split]
  exact List.mem_append_right _ List.mem_cons_self

end StageKind

/-! ## What a stage hands on -/

namespace Record

/-- A record whose number has been read, at a given time, from the text of another one. -/
inductive ReadFrom (now : Timestamp) : Record → Record → Prop where
  | raw {id : Nat} {text : String} {value : Float} :
      parseValue text = .ok value → ReadFrom now (.raw id text) (.parsed id value now)

/-- A record whose fields have been derived from the number of another one. -/
inductive DerivedFrom : Record → Record → Prop where
  | parsed {id : Nat} {value : Float} {timestamp : Timestamp} :
      DerivedFrom (.parsed id value timestamp)
        (.transformed id value timestamp (value / 100) (value * value))
  | transformed {id : Nat} {value normalized squared : Float} {timestamp : Timestamp} :
      DerivedFrom (.transformed id value timestamp normalized squared)
        (.transformed id value timestamp (value / 100) (value * value))

variable {source result : Record}

theorem ReadFrom.id_eq {now : Timestamp} (read : ReadFrom now source result) :
    result.id = source.id := by
  cases read
  rfl

theorem DerivedFrom.id_eq (derived : DerivedFrom source result) : result.id = source.id := by
  cases derived with
  | parsed | transformed => rfl

end Record

namespace Batch

/-- The next batch has the index of this one and a result of every record, in order. -/
structure Maps (becomes : Record → Record → Prop) (batch next : Batch) : Prop where
  index : next.index = batch.index
  ids : next.records.map Record.id = batch.records.map Record.id
  records : List.Forall₂ becomes batch.records next.records

/-- The next batch has the index of this one and, unchanged and in order, exactly those
records whose numbers lie strictly between the bounds of the filter. -/
structure Keeps (batch next : Batch) : Prop where
  index : next.index = batch.index
  records : next.records = batch.records.filter fun record =>
    record.value?.any fun value => decide (25 < value) && decide (value < 75)
  inside : ∀ record ∈ next.records, ∃ value, record.value? = some value ∧
    value.isNaN = false ∧ 25 < value ∧ value < 75 ∧ value ≠ 25 ∧ value ≠ 75

variable
  {becomes : Record → Record → Prop}
  {batch : Batch}
  {results : List Record}

theorem Maps.of_forall₂
    (sameId : ∀ {source result}, becomes source result → result.id = source.id)
    (records : List.Forall₂ becomes batch.records results) :
    Maps becomes batch ⟨batch.index, results⟩ := by
  refine ⟨rfl, ?_, records⟩
  change results.map Record.id = batch.records.map Record.id
  rw [← List.forall₂_eq_eq_eq, List.forall₂_map_left_iff, List.forall₂_map_right_iff]
  exact (records.imp fun _ _ => sameId).flip

/-- Neither a bound nor what is not a number lies between the bounds. -/
theorem Keeps.survivors (batch : Batch) :
    batch.Keeps ⟨batch.index, batch.records.filter Stage.survives⟩ := by
  refine ⟨rfl, rfl, fun record present => ?_⟩
  have survives := (List.mem_filter.mp present).2
  rw [Stage.survives, Option.any_eq_true] at survives
  obtain ⟨value, carries, within⟩ := survives
  rw [withinFilterBounds, Bool.and_eq_true, decide_eq_true_eq, decide_eq_true_eq] at within
  obtain ⟨above, below⟩ := within
  have lower : ¬(25 : Float) < 25 := by decide +kernel
  have upper : ¬(75 : Float) < 75 := by decide +kernel
  refine ⟨value, carries, (Binary64.lt_iff.mp above).2.1, above, below, ?_, ?_⟩
  · rintro rfl
    exact lower above
  · rintro rfl
    exact upper below

end Batch

namespace Stage

/-- What a built-in kind hands on for a batch that it takes at a given time. -/
inductive Delivers (now : Timestamp) (batch : Batch) : StageKind → StageOutput → Prop where
  | parse {next : Batch} :
      batch.Maps (Record.ReadFrom now) next → Delivers now batch .parse (.batch next)
  | transform {next : Batch} :
      batch.Maps Record.DerivedFrom next → Delivers now batch .transform (.batch next)
  | filter {next : Batch} :
      batch.Keeps next → Delivers now batch .filter (.batch next)
  | aggregate {values : List Float} :
      Carry batch.records values →
      Delivers now batch .aggregate (.summary (Summary.ofValues values))

variable
  {batch : Batch}
  {stage : Stage}

/-! ## Batches that are taken -/

theorem parseRecord_of_takes
    {record : Record}
    (now : Timestamp)
    (takes : StageKind.parse.Takes record) :
    ∃ parsed, parseRecord now record = .ok parsed ∧ record.ReadFrom now parsed := by
  cases takes with
  | raw read => exact ⟨_, parseRecord_eq_ok now read, .raw read⟩
  | parsed numeric | transformed numeric => cases numeric

theorem derivedFrom_derived
    {record : Record}
    (carries : record.value?.isSome = true) :
    record.DerivedFrom (derived record) := by
  cases record with
  | raw => cases carries
  | parsed => exact .parsed
  | transformed => exact .transformed

/-- The numbers of a batch of numbers. -/
theorem carry_of_isNumeric (numeric : batch.IsNumeric) :
    Carry batch.records (batch.records.map fun record => record.value?.getD 0) := by
  rw [Carry, List.forall₂_map_right_iff, List.forall₂_same]
  intro record present
  obtain ⟨value, carries⟩ := Option.isSome_iff_exists.mp (numeric record present)
  rw [carries]
  rfl

/-- A batch of which a kind takes every record is taken. -/
theorem exists_delivers
    (now : Timestamp)
    (builtin : stage.kind.isBuiltin = true)
    (taken : ∀ record ∈ batch.records, stage.kind.Takes record) :
    ∃ output, stage.apply now batch = .output output ∧
      Delivers now batch stage.kind output := by
  obtain ⟨name, kind⟩ := stage
  rcases StageKind.parse_or_worksOnNumbers builtin with rfl | numeric
  · obtain ⟨results, traversed, read⟩ :=
      exists_mapM_eq_ok fun record present => parseRecord_of_takes now (taken record present)
    refine ⟨.batch ⟨batch.index, results⟩, ?_, .parse (.of_forall₂ Record.ReadFrom.id_eq read)⟩
    rw [apply, parseBatch, traversed]
    rfl
  · have numbers : batch.IsNumeric := fun record present =>
      (taken record present).carries numeric
    cases numeric with
    | transform =>
        refine ⟨.batch ⟨batch.index, batch.records.map derived⟩, ?_, .transform ?_⟩
        · rw [apply, transformBatch_of_isNumeric numbers]
          rfl
        · apply Batch.Maps.of_forall₂ Record.DerivedFrom.id_eq
          rw [List.forall₂_map_right_iff, List.forall₂_same]
          exact fun record present => derivedFrom_derived (numbers record present)
    | filter =>
        refine ⟨_, ?_, .filter (.survivors batch)⟩
        rw [apply, filterBatch_of_isNumeric numbers]
        rfl
    | aggregate =>
        refine ⟨_, ?_, .aggregate (carry_of_isNumeric numbers)⟩
        rw [apply, aggregateBatch_of_isNumeric numbers]
        rfl

/-! ## Batches that are not taken -/

theorem parseRecord_of_rejects
    {record : Record}
    {failure : Failure}
    (now : Timestamp)
    (rejects : StageKind.parse.Rejects record failure) :
    parseRecord now record = .error failure := by
  cases rejects with
  | unreadable unread => exact parseRecord_eq_error now unread
  | parsed | transformed => rfl
  | raw numeric => cases numeric

/-- The first record that is not taken decides, whatever stands behind it.  A parse stage may
fail in either way, all others in the same way and at a raw record only. -/
theorem apply_of_failsFirst
    {failure : Failure}
    (now : Timestamp)
    (builtin : stage.kind.isBuiltin = true)
    (fails : stage.kind.FailsFirst batch failure) :
    stage.apply now batch = .failure failure := by
  obtain ⟨name, kind⟩ := stage
  obtain ⟨before, record, after, split, taken, rejects⟩ := fails
  rcases StageKind.parse_or_worksOnNumbers builtin with rfl | numeric
  · have succeed : ∀ earlier ∈ before, ∃ parsed, parseRecord now earlier = .ok parsed := by
      intro earlier present
      obtain ⟨parsed, read, -⟩ := parseRecord_of_takes now (taken earlier present)
      exact ⟨parsed, read⟩
    rw [apply, parseBatch, split, mapM_eq_error succeed (parseRecord_of_rejects now rejects)]
    rfl
  · obtain ⟨id, text, rfl, rfl⟩ := rejects.eq_raw numeric
    have refuses := Refuses.of_split split fun earlier present =>
      (taken earlier present).carries numeric
    cases numeric with
    | transform =>
        rw [apply, refuses.transform]
        rfl
    | filter =>
        rw [apply, refuses.filter]
        rfl
    | aggregate =>
        rw [apply, refuses.aggregate]
        rfl

/-! ## All or nothing -/

/-- Every built-in stage comes to an output or a failure.  It comes to an output exactly if
its kind takes all records of the batch, and then hands on what belongs to the kind; and it
fails exactly as its kind fails at the first record that is not taken.  The name of the
stage has no part in this. -/
theorem all_or_nothing
    (now : Timestamp)
    (batch : Batch)
    (builtin : stage.kind.isBuiltin = true) :
    ((∃ output, stage.apply now batch = .output output) ↔
      ∀ record ∈ batch.records, stage.kind.Takes record) ∧
    (∀ output, stage.apply now batch = .output output →
      Delivers now batch stage.kind output) ∧
    ((∃ failure, stage.apply now batch = .failure failure) ↔
      ∃ record ∈ batch.records, ¬stage.kind.Takes record) ∧
    ∀ failure, stage.apply now batch = .failure failure ↔
      stage.kind.FailsFirst batch failure := by
  rcases StageKind.takes_all_or_failsFirst builtin batch with taken | ⟨failure, fails⟩
  · obtain ⟨output, applied, delivers⟩ := exists_delivers now builtin taken
    rw [applied]
    refine ⟨⟨fun _ => taken, fun _ => ⟨output, rfl⟩⟩, ?_, ⟨?_, ?_⟩, fun failure => ⟨?_, ?_⟩⟩
    · rintro _ ⟨⟩
      exact delivers
    · rintro ⟨failure, ⟨⟩⟩
    · rintro ⟨record, present, culprit⟩
      exact absurd (taken record present) culprit
    · rintro ⟨⟩
    · intro fails
      rw [← applied]
      exact apply_of_failsFirst now builtin fails
  · have applied := apply_of_failsFirst now builtin fails
    obtain ⟨record, present, culprit⟩ := fails.exists_not_takes
    rw [applied]
    refine ⟨⟨?_, ?_⟩, ?_, ⟨fun _ => ⟨record, present, culprit⟩, fun _ => ⟨failure, rfl⟩⟩,
      fun other => ⟨?_, ?_⟩⟩
    · rintro ⟨output, ⟨⟩⟩
    · intro taken
      exact absurd (taken record present) culprit
    · rintro output ⟨⟩
    · rintro ⟨⟩
      exact fails
    · intro otherFails
      rw [← applied]
      exact apply_of_failsFirst now builtin otherFails

/-- A text that is not a number comes in front of a number that has been read and of a text
with nothing in it. -/
theorem all_or_nothing_mixed :
    (⟨"read", .parse⟩ : Stage).kind.isBuiltin = true ∧
    apply ⟨"read", .parse⟩ default
      ⟨7, [.raw 3 " 30 ", .raw 1 " two ", .parsed 2 50 default, .raw 0 ""]⟩ =
      .failure (.parse 1 " two " "invalid float literal") := by
  have read : parseValue " 30 " = .ok 30 := by rfl
  have unread : parseValue " two " = .error .malformed := by rfl
  have builtin : (⟨"read", .parse⟩ : Stage).kind.isBuiltin = true := rfl
  have fails := (all_or_nothing default
    ⟨7, [.raw 3 " 30 ", .raw 1 " two ", .parsed 2 50 default, .raw 0 ""]⟩ builtin).2.2.2
  refine ⟨builtin, (fails _).mpr ⟨[.raw 3 " 30 "], _, _, rfl, ?_, .unreadable unread⟩⟩
  intro earlier present
  rw [List.mem_singleton.mp present]
  exact .raw read

end Stage
end StagePipeline
