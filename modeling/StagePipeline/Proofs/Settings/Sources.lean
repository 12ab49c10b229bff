import StagePipeline.Proofs.Settings.Layers

/-!
# Sources of fields

Every field has one source: the variable that is named after it, else the file, else the
standard settings.  Where no key is a path into a field, loading settings with a lawful library
comes to the sources of their fields, and to nothing else that the file and the environment say.
-/

namespace StagePipeline
namespace Settings

/-! ## Variables -/

/-- Such values are read alike, if tables cannot be read. -/
theorem Value.ConvertsLike.read?_eq
    {α : Type}
    {read? : Value → Option α}
    {left right : Value}
    (alike : ConvertsLike left right)
    (unread : ∀ members, read? (.table members) = none) :
    read? left = read? right := by
  cases alike with
  | same => rfl
  | tables => rw [unread, unread]

/-- An environment whose variables differ in small letters.  None that counts is nested, so
that the rest of its name is its key, which is harmless. -/
structure IsHarmlessEnvironment
    (pathOf : String → KeyPath)
    (environment : List (String × String)) :
    Prop where
  keys : ∀ entry ∈ environment, ∀ key ∈ Layer.variableKey? entry.1,
    Text.lowerCase entry.1 = Layer.variableMark ++ key ∧ KeyPath.IsHarmless pathOf key
  distinct : (environment.map fun entry => Text.lowerCase entry.1).Nodup

/-- What the variable of a field says. -/
def Library.fromEnvironment?
    (library : Library)
    (environment : List (String × String))
    (field : Field) :
    Option Value :=
  Entries.find? (Layer.variableMark ++ field.key)
    (environment.map fun entry => (Text.lowerCase entry.1, library.ofText entry.2))

/-- All names that begin with the mark are those of variables that count. -/
theorem Layer.variableKey?_isSome
    {name rest : String}
    (marked : Text.lowerCase name = variableMark ++ rest) :
    ∃ key, variableKey? name = some key := by
  unfold variableKey?
  rw [marked, String.toList_append]
  simp

/-- What follows the mark in a name in small letters is in small letters itself. -/
theorem Layer.lowerCase_eq_of_marked
    {name key : String}
    (marked : Text.lowerCase name = variableMark ++ key) :
    Text.lowerCase key = key := by
  have mark : Text.lowerCase variableMark = variableMark := by decide
  have twice := congrArg Text.lowerCase marked
  rw [Text.lowerCase_lowerCase, Text.lowerCase_append, mark, marked] at twice
  exact (String.append_right_inj _).mp twice.symm

section Environment

variable
  {library : Library}
  {pathOf : String → KeyPath}
  {environment : List (String × String)}
  {ofText : String → Value}

theorem IsHarmlessEnvironment.tail
    {entry : String × String}
    (harmless : IsHarmlessEnvironment pathOf (entry :: environment)) :
    IsHarmlessEnvironment pathOf environment where
  keys := (List.forall_mem_cons.mp harmless.keys).2
  distinct := (List.nodup_cons.mp harmless.distinct).2

/-- A variable without the mark does not count. -/
theorem Layer.ofVariables_foreign
    {name : String}
    (foreign : variableKey? name = none)
    (text : String) :
    ofVariables ofText ((name, text) :: environment) = ofVariables ofText environment := by
  simp only [ofVariables, List.filterMap_cons, foreign, Option.map_none]

theorem Layer.ofVariables_counting
    {name key : String}
    (counts : variableKey? name = some key)
    (text : String) :
    ofVariables ofText ((name, text) :: environment) =
      (key, ofText text) :: ofVariables ofText environment := by
  simp only [ofVariables, List.filterMap_cons, counts, Option.map_some]

/-- The entries of an environment say of a field what its variable does. -/
theorem IsHarmlessEnvironment.find?_eq
    (harmless : IsHarmlessEnvironment pathOf environment)
    (field : Field) :
    Entries.find? field.key (Layer.ofVariables library.ofText environment).lowerCase =
      library.fromEnvironment? environment field := by
  induction environment with
  | nil => rfl
  | cons entry rest inductionHypothesis =>
      have others := inductionHypothesis harmless.tail
      obtain ⟨name, text⟩ := entry
      rw [Library.fromEnvironment?, List.map_cons, Entries.find?]
      cases counts : Layer.variableKey? name with
      | none =>
          have other : Text.lowerCase name ≠ Layer.variableMark ++ field.key := by
            intro marked
            obtain ⟨key, keyed⟩ := Layer.variableKey?_isSome marked
            cases counts.symm.trans keyed
          rw [Layer.ofVariables_foreign counts, if_neg other]
          exact others
      | some key =>
          obtain ⟨marked, -⟩ := harmless.keys _ List.mem_cons_self key counts
          rw [Layer.ofVariables_counting counts, Layer.lowerCase, List.map_cons, Entries.find?,
            Layer.lowerCase_eq_of_marked marked, marked]
          simp only [String.append_right_inj]
          split
          · rfl
          · exact others

/-- Variables that differ name different keys. -/
theorem IsHarmlessEnvironment.keys_sublist
    (harmless : IsHarmlessEnvironment pathOf environment) :
    ((Entries.keys (Layer.ofVariables ofText environment).lowerCase).map
        (Layer.variableMark ++ ·)).Sublist
      (environment.map fun entry => Text.lowerCase entry.1) := by
  induction environment with
  | nil => exact .slnil
  | cons entry rest inductionHypothesis =>
      have others := inductionHypothesis harmless.tail
      obtain ⟨name, text⟩ := entry
      rw [List.map_cons]
      cases counts : Layer.variableKey? name with
      | none =>
          rw [Layer.ofVariables_foreign counts]
          exact others.cons _
      | some key =>
          obtain ⟨marked, -⟩ := harmless.keys _ List.mem_cons_self key counts
          have first : Layer.variableMark ++ Text.lowerCase key = Text.lowerCase name := by
            rw [Layer.lowerCase_eq_of_marked marked, marked]
          rw [Layer.ofVariables_counting counts, ← first]
          exact others.cons_cons _

theorem IsHarmlessEnvironment.isHarmless
    (harmless : IsHarmlessEnvironment pathOf environment) :
    (Layer.ofVariables ofText environment).IsHarmless pathOf where
  keys := by
    intro entry present
    obtain ⟨⟨name, text⟩, among, set⟩ := List.mem_filterMap.mp present
    obtain ⟨key, counts, rfl⟩ := Option.map_eq_some_iff.mp set
    exact (harmless.keys _ among key counts).2
  distinct := (harmless.distinct.sublist harmless.keys_sublist).of_map _

/-- No variable sets a table. -/
theorem Library.Lawful.ofVariables_flat
    (lawful : library.Lawful)
    {entry : String × Value}
    (present : entry ∈ Layer.ofVariables library.ofText environment)
    (members : List (String × Value)) :
    entry.2 ≠ .table members := by
  obtain ⟨⟨name, text⟩, -, set⟩ := List.mem_filterMap.mp present
  obtain ⟨key, -, rfl⟩ := Option.map_eq_some_iff.mp set
  exact lawful.ofText_ne text members

end Environment

/-! ## Sources -/

/-- The source of a field: its variable, else what the file says, if any. -/
def Library.source?
    (library : Library)
    (layer : Layer)
    (environment : List (String × String))
    (field : Field) :
    Option Value :=
  (library.fromEnvironment? environment field).or (Entries.find? field.key layer.lowerCase)

/-- What the variables that count, and below them a layer, give of a field. -/
def Library.given?
    (library : Library)
    (layer : Layer)
    (environment : List (String × String))
    (field : Field) :
    Option Value :=
  (Entries.find? field.key (Layer.ofVariables library.ofText environment).lowerCase).or
    (Entries.find? field.key layer.lowerCase)

/-- Where no variable is nested, that is the source of the field. -/
theorem IsHarmlessEnvironment.given?_eq
    {library : Library}
    {environment : List (String × String)}
    {layer : Layer}
    (harmless : IsHarmlessEnvironment library.path environment) :
    library.given? layer environment = library.source? layer environment := by
  funext field
  rw [Library.given?, harmless.find?_eq, Library.source?]

/-- The value of a field that has this source: converted, or else standard. -/
def taken? {α : Type} (read? : Value → Option α) (standard : α) : Option Value → Option α
  | none => some standard
  | some value => read? value

/-- Every field of the settings has the value of its source. -/
structure Follows
    (library : Library)
    (source? : Field → Option Value)
    (settings : Settings) :
    Prop where
  batchSize :
    taken? library.word? standard.batchSize (source? .batchSize) = some settings.batchSize
  mailboxCapacity :
    taken? library.word? standard.mailboxCapacity (source? .mailboxCapacity) =
      some settings.mailboxCapacity
  drainTimeout :
    taken? library.word? standard.drainTimeout (source? .drainTimeout) =
      some settings.drainTimeout
  stageTimeout :
    taken? library.optionalWord? standard.stageTimeout (source? .stageTimeout) =
      some settings.stageTimeout
  threadNamePrefix :
    taken? library.text? standard.threadNamePrefix (source? .threadNamePrefix) =
      some settings.threadNamePrefix

instance (library : Library) (source? : Field → Option Value) (settings : Settings) :
    Decidable (Follows library source? settings) :=
  decidable_of_iff
    (taken? library.word? standard.batchSize (source? .batchSize) = some settings.batchSize ∧
      taken? library.word? standard.mailboxCapacity (source? .mailboxCapacity) =
        some settings.mailboxCapacity ∧
      taken? library.word? standard.drainTimeout (source? .drainTimeout) =
        some settings.drainTimeout ∧
      taken? library.optionalWord? standard.stageTimeout (source? .stageTimeout) =
        some settings.stageTimeout ∧
      taken? library.text? standard.threadNamePrefix (source? .threadNamePrefix) =
        some settings.threadNamePrefix)
    ⟨fun ⟨size, capacity, drain, limit, mark⟩ => ⟨size, capacity, drain, limit, mark⟩,
      fun follows => ⟨follows.batchSize, follows.mailboxCapacity, follows.drainTimeout,
        follows.stageTimeout, follows.threadNamePrefix⟩⟩

/-- Whether a value can be converted to the type of a field. -/
def Library.converts (library : Library) : Field → Value → Bool
  | .batchSize, value => (library.word? value).isSome
  | .drainTimeout, value => (library.word? value).isSome
  | .mailboxCapacity, value => (library.word? value).isSome
  | .stageTimeout, value => (library.optionalWord? value).isSome
  | .threadNamePrefix, value => (library.text? value).isSome

/-- A value says of every field what its source does. -/
def Settles (source? : Field → Option Value) (merged : Value) : Prop :=
  ∀ field, Option.Rel Value.ConvertsLike (Entries.find? field.key merged.members) (source? field)

section Sources

variable
  {library : Library}
  {source? : Field → Option Value}
  {merged : Value}

theorem Settles.convert?_eq
    {α : Type}
    (settles : Settles source? merged)
    (read? : Value → Option α)
    (unread : ∀ members, read? (.table members) = none)
    (standard : α)
    (field : Field) :
    convert? read? standard field merged = taken? read? standard (source? field) := by
  have related := settles field
  rw [convert?]
  generalize Entries.find? field.key merged.members = given, source? field = source at related ⊢
  cases related with
  | none => rfl
  | some alike => exact alike.read?_eq unread

/-- The settings that a value holds are those that follow the sources. -/
theorem Settles.ofValue?_eq_some_iff
    (settles : Settles source? merged)
    (lawful : library.Lawful)
    (settings : Settings) :
    library.ofValue? merged = some settings ↔ Follows library source? settings := by
  unfold Library.ofValue?
  simp only [settles.convert?_eq library.word? fun members => (lawful.unread members).1,
    settles.convert?_eq library.optionalWord? fun members => (lawful.unread members).2.1,
    settles.convert?_eq library.text? fun members => (lawful.unread members).2.2,
    Option.bind_eq_bind, Option.bind_eq_some_iff, Option.pure_def, Option.some.injEq]
  constructor
  · rintro ⟨_, size, _, capacity, _, drain, _, limit, _, mark, rfl⟩
    exact ⟨size, capacity, drain, limit, mark⟩
  · intro follows
    exact ⟨_, follows.batchSize, _, follows.mailboxCapacity, _, follows.drainTimeout, _,
      follows.stageTimeout, _, follows.threadNamePrefix, rfl⟩

theorem exists_taken?_iff
    {α : Type}
    {read? : Value → Option α}
    {standard : α}
    {source : Option Value} :
    (∃ taken, taken? read? standard source = some taken) ↔
      ∀ value, source = some value → (read? value).isSome = true := by
  cases source with
  | none => simp [taken?]
  | some value => simp [taken?, Option.isSome_iff_exists]

/-- Some settings follow the sources exactly if every source has the type of its field. -/
theorem exists_follows_iff :
    (∃ settings, Follows library source? settings) ↔
      ∀ field value, source? field = some value → library.converts field value = true := by
  constructor
  · rintro ⟨settings, follows⟩ field
    cases field with
    | batchSize => exact exists_taken?_iff.mp ⟨_, follows.batchSize⟩
    | drainTimeout => exact exists_taken?_iff.mp ⟨_, follows.drainTimeout⟩
    | mailboxCapacity => exact exists_taken?_iff.mp ⟨_, follows.mailboxCapacity⟩
    | stageTimeout => exact exists_taken?_iff.mp ⟨_, follows.stageTimeout⟩
    | threadNamePrefix => exact exists_taken?_iff.mp ⟨_, follows.threadNamePrefix⟩
  · intro takes
    obtain ⟨batchSize, size⟩ := exists_taken?_iff.mpr (takes .batchSize)
    obtain ⟨mailboxCapacity, capacity⟩ := exists_taken?_iff.mpr (takes .mailboxCapacity)
    obtain ⟨drainTimeout, drain⟩ := exists_taken?_iff.mpr (takes .drainTimeout)
    obtain ⟨stageTimeout, limit⟩ := exists_taken?_iff.mpr (takes .stageTimeout)
    obtain ⟨threadNamePrefix, mark⟩ := exists_taken?_iff.mpr (takes .threadNamePrefix)
    exact ⟨⟨batchSize, mailboxCapacity, drainTimeout, stageTimeout, threadNamePrefix⟩,
      size, capacity, drain, limit, mark⟩

/-- How a value is converted to settings in range, if it says what the sources do. -/
inductive Converts (library : Library) (source? : Field → Option Value) :
    Except Fault Settings → Prop where
  | accepted {settings : Settings} :
      Follows library source? settings → settings.InRange → Converts library source? (.ok settings)
  | outside {settings : Settings} {reason : String} :
      Follows library source? settings → ¬settings.InRange →
      Converts library source? (.error (.configuration "pipeline_config" reason))
  | mistyped {field : Field} {value : Value} :
      source? field = some value → library.converts field value = false →
      Converts library source? (.error .unreadableLayers)

theorem Settles.converts (settles : Settles source? merged) (lawful : library.Lawful) :
    Converts library source? (library.ofLayers merged) := by
  unfold Library.ofLayers
  cases held : library.ofValue? merged with
  | none =>
      have nothing : ¬∃ settings, Follows library source? settings := by
        rintro ⟨settings, follows⟩
        cases held.symm.trans ((settles.ofValue?_eq_some_iff lawful settings).mpr follows)
      simp only [exists_follows_iff, not_forall, Bool.not_eq_true] at nothing
      obtain ⟨field, value, given, mistyped⟩ := nothing
      exact .mistyped given mistyped
  | some settings =>
      have follows := (settles.ofValue?_eq_some_iff lawful settings).mp held
      by_cases inRange : settings.InRange
      · simp only [checked_eq_ok_iff.mpr ⟨rfl, inRange⟩]
        exact .accepted follows inRange
      · obtain ⟨reason, refused⟩ := checked_eq_error inRange
        simp only [refused]
        exact .outside follows inRange

/-- Settings that follow the same sources are the same. -/
theorem Follows.unique
    {settings other : Settings}
    (follows : Follows library source? settings)
    (otherFollows : Follows library source? other) :
    settings = other := by
  cases settings
  cases other
  simp only [Settings.mk.injEq]
  exact ⟨Option.some.inj (follows.batchSize.symm.trans otherFollows.batchSize),
    Option.some.inj (follows.mailboxCapacity.symm.trans otherFollows.mailboxCapacity),
    Option.some.inj (follows.drainTimeout.symm.trans otherFollows.drainTimeout),
    Option.some.inj (follows.stageTimeout.symm.trans otherFollows.stageTimeout),
    Option.some.inj (follows.threadNamePrefix.symm.trans otherFollows.threadNamePrefix)⟩

/-- Where a source has not the type of its field, no settings follow the sources. -/
theorem not_follows_of_mistyped
    {field : Field}
    {value : Value}
    {settings : Settings}
    (given : source? field = some value)
    (mistyped : library.converts field value = false) :
    ¬Follows library source? settings := by
  intro follows
  have takes := exists_follows_iff.mp ⟨settings, follows⟩ field value given
  cases takes.symm.trans mistyped

namespace Converts

variable {result : Except Fault Settings}

theorem eq_ok_iff (converts : Converts library source? result) (settings : Settings) :
    result = .ok settings ↔ Follows library source? settings ∧ settings.InRange := by
  constructor
  · rintro rfl
    cases converts with
    | accepted follows inRange => exact ⟨follows, inRange⟩
  · rintro ⟨follows, inRange⟩
    cases converts with
    | accepted otherFollows => rw [otherFollows.unique follows]
    | outside otherFollows outside => exact absurd (otherFollows.unique follows ▸ inRange) outside
    | mistyped given mistyped => exact absurd follows (not_follows_of_mistyped given mistyped)

theorem eq_unreadableLayers_iff (converts : Converts library source? result) :
    result = .error .unreadableLayers ↔
      ∃ field value, source? field = some value ∧ library.converts field value = false := by
  constructor
  · rintro rfl
    cases converts with
    | mistyped given mistyped => exact ⟨_, _, given, mistyped⟩
  · rintro ⟨field, value, given, mistyped⟩
    cases converts with
    | accepted follows => exact absurd follows (not_follows_of_mistyped given mistyped)
    | outside follows => exact absurd follows (not_follows_of_mistyped given mistyped)
    | mistyped => rfl

theorem eq_configuration_iff (converts : Converts library source? result) :
    (∃ reason, result = .error (.configuration "pipeline_config" reason)) ↔
      ∃ settings, Follows library source? settings ∧ ¬settings.InRange := by
  constructor
  · rintro ⟨reason, rfl⟩
    cases converts with
    | outside follows outside => exact ⟨_, follows, outside⟩
  · rintro ⟨settings, follows, outside⟩
    cases converts with
    | accepted otherFollows inRange =>
        exact absurd (otherFollows.unique follows ▸ inRange) outside
    | outside => exact ⟨_, rfl⟩
    | mistyped given mistyped => exact absurd follows (not_follows_of_mistyped given mistyped)

end Converts

end Sources

/-! ## Loading -/

/-- A file and an environment in which no key is a path into a field, and none is given
twice. -/
structure AreHarmless
    (library : Library)
    (file? : Option File)
    (environment : List (String × String)) :
    Prop where
  file : ∀ layer ∈ library.lowerLayer? file?, layer.IsHarmless library.path
  environment : IsHarmlessEnvironment library.path environment

section Loads

variable
  {library : Library}
  {file? otherFile? : Option File}
  {environment otherEnvironment : List (String × String)}
  {layer other : Layer}

/-- What is converted has the fields of the variables and of the file as its sources. -/
theorem Library.Lawful.settles
    (lawful : library.Lawful)
    (fileHarmless : layer.IsHarmless library.path)
    (harmless : (Layer.ofVariables library.ofText environment).IsHarmless library.path) :
    ∃ merged, library.merge? [layer, library.environmentLayer environment] = some merged ∧
      Settles (library.given? layer environment) merged := by
  have reordered := lawful.environment environment
  have upperHarmless : (library.environmentLayer environment).IsHarmless library.path :=
    harmless.of_perm reordered
  obtain ⟨merged, merges, found⟩ := lawful.merge layer (library.environmentLayer environment)
    fileHarmless upperHarmless
    fun entry present => lawful.ofVariables_flat (reordered.mem_iff.mp present)
  refine ⟨merged, merges, fun field => ?_⟩
  have said := found field
  rw [Layer.find?_lowerCase_perm upperHarmless reordered] at said
  exact said

theorem Library.load?_of_unreadable (unreadable : library.lowerLayer? file? = none) :
    library.load? file? environment = some (.error .unreadableLayers) := by
  rw [load?, unreadable]

/-- If the file can be read, what is given is converted. -/
theorem Library.Lawful.load?_of_layers
    (lawful : library.Lawful)
    (read : library.lowerLayer? file? = some layer)
    (fileHarmless : layer.IsHarmless library.path)
    (harmless : (Layer.ofVariables library.ofText environment).IsHarmless library.path) :
    ∃ merged, library.load? file? environment = some (library.ofLayers merged) ∧
      Settles (library.given? layer environment) merged := by
  obtain ⟨merged, merges, settles⟩ := lawful.settles fileHarmless harmless
  refine ⟨merged, ?_, settles⟩
  rw [load?, read]
  simp only [merges, Option.map_some]

theorem Library.Lawful.load?_of_readable
    (lawful : library.Lawful)
    (harmless : AreHarmless library file? environment)
    (read : library.lowerLayer? file? = some layer) :
    ∃ merged, library.load? file? environment = some (library.ofLayers merged) ∧
      Settles (library.source? layer environment) merged := by
  rw [← harmless.environment.given?_eq]
  exact lawful.load?_of_layers read (harmless.file layer read) harmless.environment.isHarmless

/-- Two files that can be read or not, and two environments, that say the same: the same
variables name fields, and the files agree on the fields that no variable names. -/
structure SaySame
    (library : Library)
    (file? otherFile? : Option File)
    (environment otherEnvironment : List (String × String)) :
    Prop where
  readable : (library.lowerLayer? file?).isSome = (library.lowerLayer? otherFile?).isSome
  named : ∀ field,
    library.fromEnvironment? environment field = library.fromEnvironment? otherEnvironment field
  members : ∀ layer other, library.lowerLayer? file? = some layer →
    library.lowerLayer? otherFile? = some other →
    ∀ field, library.fromEnvironment? environment field = none →
      Entries.find? field.key layer.lowerCase = Entries.find? field.key other.lowerCase

theorem SaySame.source?_eq
    (same : SaySame library file? otherFile? environment otherEnvironment)
    (read : library.lowerLayer? file? = some layer)
    (otherRead : library.lowerLayer? otherFile? = some other) :
    library.source? layer environment = library.source? other otherEnvironment := by
  funext field
  rw [Library.source?, Library.source?, ← same.named field]
  cases given : library.fromEnvironment? environment field with
  | some value => rfl
  | none =>
      rw [Option.none_or, Option.none_or, same.members layer other read otherRead field given]

/-- Nothing but the sources counts. -/
theorem SaySame.load?_eq
    (same : SaySame library file? otherFile? environment otherEnvironment)
    (lawful : library.Lawful)
    (harmless : AreHarmless library file? environment)
    (otherHarmless : AreHarmless library otherFile? otherEnvironment) :
    library.load? file? environment = library.load? otherFile? otherEnvironment := by
  have readable := same.readable
  cases read : library.lowerLayer? file? with
  | none =>
      rw [read, Option.isSome_none] at readable
      have otherRead := Option.isSome_eq_false_iff.mp readable.symm
      rw [Library.load?_of_unreadable read,
        Library.load?_of_unreadable (Option.isNone_iff_eq_none.mp otherRead)]
  | some layer =>
      rw [read, Option.isSome_some] at readable
      obtain ⟨other, otherRead⟩ := Option.isSome_iff_exists.mp readable.symm
      obtain ⟨merged, loads, settles⟩ := lawful.load?_of_readable harmless read
      obtain ⟨otherMerged, otherLoads, otherSettles⟩ :=
        lawful.load?_of_readable otherHarmless otherRead
      rw [← same.source?_eq read otherRead] at otherSettles
      have held : library.ofValue? merged = library.ofValue? otherMerged := by
        apply Option.ext
        intro settings
        rw [settles.ofValue?_eq_some_iff lawful, otherSettles.ofValue?_eq_some_iff lawful]
      rw [loads, otherLoads, Library.ofLayers, Library.ofLayers, held]

end Loads

/-- A file in which one value has not the type of its field, and one key leads elsewhere. -/
def shadowed : File :=
  ⟨"pipeline.toml",
    some "batch_size = \"many\"\nmailbox_capacity = 3\n\"colours[2].red\" = 1"⟩

/-- A file whose only key names no field, but is a path into one. -/
def bracketed : File :=
  ⟨"pipeline.toml", some "\"batch_size[0]\" = 5"⟩

end Settings
end StagePipeline
