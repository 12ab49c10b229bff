import StagePipeline.Proofs.Settings.Sources

/-!
# Texts of variables

A variable is taken for a boolean, an integer or a float wherever its text reads as one, and
a field that is a text shows what the variable was taken for.  With a library that types and
prints values in this way, nothing else that is loaded depends on the text of a variable.
-/

namespace StagePipeline

/-! ## Entries -/

/-- An entry does not count where another key is looked for. -/
theorem Entries.find?_append_cons_of_ne
    {α : Type}
    {name key : String}
    (other : name ≠ key)
    (front back : List (String × α))
    (value : α) :
    find? key (front ++ (name, value) :: back) = find? key (front ++ back) := by
  induction front with
  | nil => rw [List.nil_append, List.nil_append, find?, if_neg other]
  | cons entry rest inductionHypothesis =>
      rw [List.cons_append, List.cons_append, find?, find?, inductionHypothesis]

/-! ## What a text is shown as -/

namespace Decimal

theorem Scaled.positional_ne_empty (number : Scaled) : number.positional ≠ "" := by
  rw [positional]
  simp only
  split
  · intro empty
    exact Nat.repr_ne_empty (String.append_eq_empty_iff.mp empty).1
  · intro empty
    have point := (String.append_eq_empty_iff.mp (String.append_eq_empty_iff.mp empty).1).2
    exact absurd point (by decide)

/-- The text of a float has at least one character. -/
theorem text_ne_empty (value : Float) : text value ≠ "" := by
  unfold text
  split
  · split
    · decide
    · split
      · decide
      · decide
  · simp only
    split
    · intro empty
      exact absurd (String.append_eq_empty_iff.mp empty).2 (by decide)
    · intro empty
      exact Scaled.positional_ne_empty _ (String.append_eq_empty_iff.mp empty).2

end Decimal

namespace Settings

/-- A text that spells a truth value in any letters. -/
def ReadsAsBoolean (text : String) (value : Bool) : Prop :=
  Text.lowerCase text = toString value

/-- A text of an integer that fits a word with a sign. -/
def ReadsAsInteger (text : String) (number : Int) : Prop :=
  Decimal.integer? text.toList = some number ∧ Word.fitsSigned number = true

/-- A text of a number that has a point or an exponent, is too large for a word, or is
infinity or no number by its name. -/
def ReadsAsFloat (text : String) (numeral : Decimal.Numeral) : Prop :=
  Decimal.Numeral.parse? text.toList = some numeral

/-- What a field shows of the text of its variable: the usual text of the first kind of value
that it reads as, and else the text itself. -/
inductive Shows (text : String) : String → Prop where
  | boolean {value : Bool} :
      ReadsAsBoolean text value →
      Shows text (toString value)
  | integer {number : Int} :
      (∀ value, ¬ReadsAsBoolean text value) →
      ReadsAsInteger text number →
      Shows text (toString number)
  | float {numeral : Decimal.Numeral} :
      (∀ value, ¬ReadsAsBoolean text value) →
      (∀ number, ¬ReadsAsInteger text number) →
      ReadsAsFloat text numeral →
      Shows text (Decimal.text numeral.toFloat)
  | verbatim :
      (∀ value, ¬ReadsAsBoolean text value) →
      (∀ number, ¬ReadsAsInteger text number) →
      (∀ numeral, ¬ReadsAsFloat text numeral) →
      Shows text text

/-- How texts of variables are typed: as the first kind of value that they read as. -/
structure Library.Types (library : Library) : Prop where
  boolean : ∀ {text : String} {value : Bool}, ReadsAsBoolean text value →
    library.ofText text = .boolean value
  integer : ∀ {text : String} {number : Int}, (∀ value, ¬ReadsAsBoolean text value) →
    ReadsAsInteger text number → library.ofText text = .integer number
  float : ∀ {text : String} {numeral : Decimal.Numeral}, (∀ value, ¬ReadsAsBoolean text value) →
    (∀ number, ¬ReadsAsInteger text number) → ReadsAsFloat text numeral →
    library.ofText text = .float numeral.toFloat
  verbatim : ∀ {text : String}, (∀ value, ¬ReadsAsBoolean text value) →
    (∀ number, ¬ReadsAsInteger text number) → (∀ numeral, ¬ReadsAsFloat text numeral) →
    library.ofText text = .text text

/-- How values are printed where a text is asked for. -/
structure Library.Prints (library : Library) : Prop where
  boolean : ∀ value, library.text? (.boolean value) = some (toString value)
  integer : ∀ value, library.text? (.integer value) = some (toString value)
  float : ∀ value, library.text? (.float value) = some (Decimal.text value)
  text : ∀ value, library.text? (.text value) = some value

section Shows

variable {text shown : String}

theorem readsAsInteger_iff {number : Int} :
    ReadsAsInteger text number ↔ Value.integerOfText? text.toList = some number := by
  rw [ReadsAsInteger, Value.integerOfText?]
  cases Decimal.integer? text.toList with
  | none => simp
  | some value =>
      by_cases fits : Word.fitsSigned value = true
      · simp only [fits, if_true, Option.some.injEq]
        constructor
        · exact fun both => both.1
        · rintro rfl
          exact ⟨rfl, fits⟩
      · simp only [fits, Bool.false_eq_true, if_false, reduceCtorEq, iff_false, not_and]
        intro same
        rwa [← Option.some.inj same]

theorem Value.ofVariable_of_boolean
    {value : Bool}
    (reads : ReadsAsBoolean text value) :
    Value.ofVariable text = .boolean value := by
  unfold Value.ofVariable
  rw [reads]
  cases value
  · rfl
  · rfl

theorem integerOfText?_of_noInteger (noInteger : ∀ number, ¬ReadsAsInteger text number) :
    Value.integerOfText? text.toList = none :=
  Option.eq_none_iff_forall_ne_some.mpr fun number read =>
    noInteger number (readsAsInteger_iff.mpr read)

section Numbers

variable (noBoolean : ∀ value, ¬ReadsAsBoolean text value)

include noBoolean

/-- A text that spells no truth value is taken for a number, if it reads as one. -/
theorem Value.ofVariable_of_noBoolean :
    Value.ofVariable text =
      match Value.integerOfText? text.toList with
      | some number => .integer number
      | none =>
          match Decimal.Numeral.parse? text.toList with
          | some numeral => .float numeral.toFloat
          | none => .text text := by
  have notTrue : Text.lowerCase text ≠ "true" := noBoolean true
  have notFalse : Text.lowerCase text ≠ "false" := noBoolean false
  exact (if_neg notTrue).trans (if_neg notFalse)

theorem Value.ofVariable_of_integer
    {number : Int}
    (reads : ReadsAsInteger text number) :
    Value.ofVariable text = .integer number := by
  rw [ofVariable_of_noBoolean noBoolean, readsAsInteger_iff.mp reads]

variable (noInteger : ∀ number, ¬ReadsAsInteger text number)

include noInteger

theorem Value.ofVariable_of_float
    {numeral : Decimal.Numeral}
    (reads : ReadsAsFloat text numeral) :
    Value.ofVariable text = .float numeral.toFloat := by
  rw [ofVariable_of_noBoolean noBoolean, integerOfText?_of_noInteger noInteger]
  simp only
  rw [show Decimal.Numeral.parse? text.toList = some numeral from reads]

theorem Value.ofVariable_of_noFloat (noFloat : ∀ numeral, ¬ReadsAsFloat text numeral) :
    Value.ofVariable text = .text text := by
  rw [ofVariable_of_noBoolean noBoolean, integerOfText?_of_noInteger noInteger]
  simp only
  rw [show Decimal.Numeral.parse? text.toList = none from
    Option.eq_none_iff_forall_ne_some.mpr noFloat]

end Numbers

/-- The usual library types texts in this way. -/
theorem Library.usual_types : usual.Types where
  boolean := Value.ofVariable_of_boolean
  integer := fun noBoolean => Value.ofVariable_of_integer noBoolean
  float := fun noBoolean noInteger => Value.ofVariable_of_float noBoolean noInteger
  verbatim := Value.ofVariable_of_noFloat

theorem Library.usual_prints : usual.Prints where
  boolean := by
    intro value
    cases value
    · rfl
    · rfl
  integer := fun _ => rfl
  float := fun _ => rfl
  text := fun _ => rfl

/-- What a field shows of a text is what it takes from its variable. -/
theorem Shows.text?_eq
    {library : Library}
    (shows : Shows text shown)
    (types : library.Types)
    (prints : library.Prints) :
    library.text? (library.ofText text) = some shown := by
  cases shows with
  | boolean reads => rw [types.boolean reads, prints.boolean]
  | integer noBoolean reads => rw [types.integer noBoolean reads, prints.integer]
  | float noBoolean noInteger reads =>
      rw [types.float noBoolean noInteger reads, prints.float]
  | verbatim noBoolean noInteger noFloat =>
      rw [types.verbatim noBoolean noInteger noFloat, prints.text]

/-- Something is shown of every text. -/
theorem exists_shows (text : String) : ∃ shown, Shows text shown := by
  by_cases boolean : ∃ value, ReadsAsBoolean text value
  · obtain ⟨value, reads⟩ := boolean
    exact ⟨_, .boolean reads⟩
  · have noBoolean := not_exists.mp boolean
    by_cases integer : ∃ number, ReadsAsInteger text number
    · obtain ⟨number, reads⟩ := integer
      exact ⟨_, .integer noBoolean reads⟩
    · have noInteger := not_exists.mp integer
      by_cases float : ∃ numeral, ReadsAsFloat text numeral
      · obtain ⟨numeral, reads⟩ := float
        exact ⟨_, .float noBoolean noInteger reads⟩
      · exact ⟨_, .verbatim noBoolean noInteger (not_exists.mp float)⟩

/-- Nothing else is shown of a text. -/
theorem Shows.unique
    {other : String}
    (shows : Shows text shown)
    (otherShows : Shows text other) :
    shown = other :=
  Option.some.inj ((shows.text?_eq Library.usual_types Library.usual_prints).symm.trans
    (otherShows.text?_eq Library.usual_types Library.usual_prints))

end Shows

/-- A text is shown as it is if it begins with a character that no number and no truth value
begins with. -/
theorem shows_self_of_head
    {text : String}
    {first : Char}
    {rest : List Char}
    (begins : text.toList = first :: rest)
    (noDigit : first.isDigit = false)
    (noMark : first ≠ '+' ∧ first ≠ '-' ∧ first ≠ '.')
    (noWord : Text.smallLetter first ∉ ['t', 'f', 'i', 'n']) :
    Shows text text := by
  have noSign : Decimal.splitSign (first :: rest) = (false, first :: rest) := by
    rw [Decimal.splitSign]
    · exact fun _ same => noMark.2.1 (List.cons.inj same).1
    · exact fun _ same => noMark.1 (List.cons.inj same).1
  have noPoint : Decimal.splitFraction (first :: rest) = ([], first :: rest) := by
    rw [Decimal.splitFraction]
    exact fun _ same => noMark.2.2 (List.cons.inj same).1
  refine .verbatim (fun value spelled => ?_) (fun number read => ?_) (fun numeral read => ?_)
  · have letters := congrArg String.toList spelled
    rw [Text.lowerCase, String.toList_ofList, begins, List.map_cons] at letters
    cases value
    · rw [(List.cons.inj (letters.trans (show _ = ['f', 'a', 'l', 's', 'e'] by rfl))).1] at noWord
      exact noWord (by decide)
    · rw [(List.cons.inj (letters.trans (show _ = ['t', 'r', 'u', 'e'] by rfl))).1] at noWord
      exact noWord (by decide)
  · rw [ReadsAsInteger, begins, Decimal.integer?, noSign] at read
    simp [Decimal.natural?, noDigit] at read
  · have noLiteral : Decimal.Literal.parse? (first :: rest) = none := by
      simp [Decimal.Literal.parse?, noSign, Decimal.leadingDigits, Decimal.afterDigits, noDigit,
        noPoint]
    rw [ReadsAsFloat, begins, Decimal.Numeral.parse?, noLiteral] at read
    simp only [Decimal.Numeral.ofWord?, noSign, List.map_cons] at read
    have notSpelled : ∀ letter ∈ ['i', 'n'], ∀ letters word,
        word = String.ofList (letter :: letters) →
          String.ofList (first.toLower :: rest.map Char.toLower) ≠ word := by
      rintro letter among letters word rfl spelled
      have same : first.toLower = letter := (List.cons.inj (String.ofList_injective spelled)).1
      by_cases kelvin : first = '\u212a'
      · subst kelvin
        subst same
        exact absurd among (by decide)
      · rw [Text.smallLetter, if_neg kelvin, same] at noWord
        exact noWord (List.mem_cons_of_mem _ (List.mem_cons_of_mem _ among))
    rw [if_neg (not_or.mpr
        ⟨notSpelled 'i' (by simp) ['n', 'f'] _ rfl,
          notSpelled 'i' (by simp) ['n', 'f', 'i', 'n', 'i', 't', 'y'] _ rfl⟩),
      if_neg (notSpelled 'n' (by simp) ['a', 'n'] _ rfl)] at read
    cases read

/-- What is shown of a text that is not empty is not empty either. -/
theorem Shows.ne_empty
    {text shown : String}
    (shows : Shows text shown)
    (given : text ≠ "") :
    shown ≠ "" := by
  cases shows with
  | @boolean value =>
      cases value
      · decide
      · decide
  | @integer number =>
      cases number with
      | ofNat magnitude => exact Nat.repr_ne_empty
      | negSucc magnitude =>
          intro empty
          exact Nat.repr_ne_empty (String.append_eq_empty_iff.mp empty).2
  | float => exact Decimal.text_ne_empty _
  | verbatim => exact given

/-! ## Replacing the text of a variable -/

/-- Variables, possibly nested, whose keys are harmless and differ. -/
structure AreSparing (pathOf : String → KeyPath) (names : List String) : Prop where
  keys : ∀ name ∈ names, ∀ key ∈ Layer.variableKey? name, KeyPath.IsHarmless pathOf key
  distinct : ((names.filterMap Layer.variableKey?).map Text.lowerCase).Nodup

instance (pathOf : String → KeyPath) (names : List String) :
    Decidable (AreSparing pathOf names) :=
  decidable_of_iff
    ((∀ name ∈ names, ∀ key ∈ Layer.variableKey? name, KeyPath.IsHarmless pathOf key) ∧
      ((names.filterMap Layer.variableKey?).map Text.lowerCase).Nodup)
    ⟨fun ⟨keys, distinct⟩ => ⟨keys, distinct⟩,
      fun sparing => ⟨sparing.keys, sparing.distinct⟩⟩

namespace Layer

variable {ofText : String → Value}

theorem ofVariables_append (front back : List (String × String)) :
    ofVariables ofText (front ++ back) = ofVariables ofText front ++ ofVariables ofText back :=
  List.filterMap_append

/-- The keys of variables do not depend on their texts. -/
theorem keys_ofVariables (environment : List (String × String)) :
    Entries.keys (ofVariables ofText environment) =
      (environment.map Prod.fst).filterMap variableKey? := by
  rw [Entries.keys, ofVariables, List.map_filterMap, List.filterMap_map]
  apply List.filterMap_congr
  rintro ⟨name, text⟩ -
  rw [Function.comp_apply]
  simp only
  cases variableKey? name with
  | none => rfl
  | some key => rfl

theorem keys_lowerCase (layer : Layer) :
    Entries.keys layer.lowerCase = (Entries.keys layer).map Text.lowerCase := by
  simp only [Entries.keys, lowerCase, List.map_map]
  rfl

end Layer

theorem AreSparing.isHarmless
    {pathOf : String → KeyPath}
    {ofText : String → Value}
    {environment : List (String × String)}
    (sparing : AreSparing pathOf (environment.map Prod.fst)) :
    (Layer.ofVariables ofText environment).IsHarmless pathOf where
  keys := by
    intro entry present
    have among : entry.1 ∈ Entries.keys (Layer.ofVariables ofText environment) :=
      List.mem_map_of_mem present
    rw [Layer.keys_ofVariables, List.mem_filterMap] at among
    obtain ⟨name, named, counts⟩ := among
    exact sparing.keys name named entry.1 counts
  distinct := by
    rw [Layer.keys_lowerCase, Layer.keys_ofVariables]
    exact sparing.distinct

/-- The variable of a field sets the field itself. -/
theorem Layer.variableKey?_of_field
    {name : String}
    {field : Field}
    (named : Text.lowerCase name = variableMark ++ field.key) :
    variableKey? name = some field.key := by
  have unnested : nestedKey field.key.toList = field.key.toList := by
    cases field <;> decide
  rw [variableKey?, named, String.toList_append]
  simp [unnested]

section Replacing

variable
  {library : Library}
  {layer : Layer}
  {before after : List (String × String)}
  {name : String}
  {field : Field}
  (named : Text.lowerCase name = Layer.variableMark ++ field.key)

include named

/-- What the variables say that have the variable of a field among them. -/
theorem lowerCase_ofVariables_of_named (text : String) :
    (Layer.ofVariables library.ofText (before ++ (name, text) :: after)).lowerCase =
      (Layer.ofVariables library.ofText before).lowerCase ++
        (field.key, library.ofText text) :: (Layer.ofVariables library.ofText after).lowerCase := by
  rw [Layer.ofVariables_append, Layer.ofVariables_counting (Layer.variableKey?_of_field named),
    Layer.lowerCase, List.map_append, List.map_cons, Layer.lowerCase_eq_of_marked named]
  rfl

/-- The variable gives what it is taken for. -/
theorem given?_of_named
    (sparing : AreSparing library.path ((before.map Prod.fst) ++ name :: after.map Prod.fst))
    (text : String) :
    library.given? layer (before ++ (name, text) :: after) field = some (library.ofText text) := by
  have harmless : (Layer.ofVariables library.ofText
      (before ++ (name, text) :: after)).IsHarmless library.path :=
    AreSparing.isHarmless (by rw [List.map_append, List.map_cons]; exact sparing)
  have found : Entries.find? field.key
      (Layer.ofVariables library.ofText (before ++ (name, text) :: after)).lowerCase =
        some (library.ofText text) := by
    rw [Entries.find?_eq_some_iff harmless.distinct, lowerCase_ofVariables_of_named named]
    exact List.mem_append_right _ List.mem_cons_self
  rw [Library.given?, found, Option.some_or]

/-- What is given of the other fields does not depend on its text. -/
theorem given?_of_other
    {otherField : Field}
    (differs : field.key ≠ otherField.key)
    (text other : String) :
    library.given? layer (before ++ (name, text) :: after) otherField =
      library.given? layer (before ++ (name, other) :: after) otherField := by
  rw [Library.given?, Library.given?, lowerCase_ofVariables_of_named named,
    lowerCase_ofVariables_of_named named, Entries.find?_append_cons_of_ne differs,
    Entries.find?_append_cons_of_ne differs]

end Replacing

/-! ## Loading -/

theorem inRange_of_prefix
    {settings : Settings}
    {shown : String}
    (inRange : settings.InRange)
    (given : shown ≠ "")
    (short : shown.utf8ByteSize ≤ Field.threadNamePrefix.greatest) :
    InRange { settings with threadNamePrefix := shown } := by
  intro field
  cases field with
  | batchSize => exact inRange .batchSize
  | drainTimeout => exact inRange .drainTimeout
  | mailboxCapacity => exact inRange .mailboxCapacity
  | stageTimeout => exact inRange .stageTimeout
  | threadNamePrefix =>
      rintro number measured
      obtain rfl : shown.utf8ByteSize = number := Option.some.inj measured
      refine ⟨?_, short⟩
      rw [Field.least, Nat.one_le_iff_ne_zero]
      exact fun empty => given (String.utf8ByteSize_eq_zero_iff.mp empty)

section Loads

variable
  {library : Library}
  {file? : Option File}
  {layer : Layer}
  {before after : List (String × String)}
  {name text other shown : String}
  {settings : Settings}
  (named : Text.lowerCase name = Layer.variableMark ++ Field.threadNamePrefix.key)
  (sparing : AreSparing library.path ((before.map Prod.fst) ++ name :: after.map Prod.fst))

include named sparing

/-- Where only the text of the prefix differs, the settings that follow do. -/
theorem Follows.replacing
    (follows : Follows library
      (library.given? layer (before ++ (name, other) :: after)) settings)
    (shown_eq : library.text? (library.ofText text) = some shown) :
    Follows library (library.given? layer (before ++ (name, text) :: after))
      { settings with threadNamePrefix := shown } where
  batchSize := by
    rw [given?_of_other named (by decide) text other]
    exact follows.batchSize
  mailboxCapacity := by
    rw [given?_of_other named (by decide) text other]
    exact follows.mailboxCapacity
  drainTimeout := by
    rw [given?_of_other named (by decide) text other]
    exact follows.drainTimeout
  stageTimeout := by
    rw [given?_of_other named (by decide) text other]
    exact follows.stageTimeout
  threadNamePrefix := by
    rw [given?_of_named named sparing]
    exact shown_eq

end Loads

/-- A file whose second key is a path into the prefix once it is in small letters, where the
Kelvin sign is a k. -/
def relettered : File :=
  ⟨"pipeline.toml", some "thread_name_prefix = \"a\"\n\"thread_name_prefix.\\u212a\" = 1"⟩

end Settings
end StagePipeline
