import StagePipeline.Proofs.Settings.Sources
import StagePipeline.Proofs.Toml.Tables

/-!
# The strict and the layered reading of documents

A document is read strictly, every value with the type of its field, or as a layer, whose
values are converted.  The two readings agree on every document in plain keys: these are no
paths, have no capital letters, and mark no moments.  What is converted to the type of a
field and has that type already stays what it is.

That holds of every strict reader and every library, as long as both read the same values from
the same documents.  What is asked of them is named, and the usual ones do it.
-/

namespace StagePipeline

/-! ## Plain keys -/

namespace Toml

/-- A small letter, a digit or an underscore. -/
def isPlainLetter (character : Char) : Bool :=
  character.isLower || character.isDigit || character == '_'

/-- A key in small letters, digits and underscores. -/
def isPlainKey (key : String) : Bool :=
  key.toList.all isPlainLetter

mutual

/-- Whether all keys in a value are plain, at whatever depth. -/
def Value.hasPlainKeys : Value → Bool
  | .array items => itemsHavePlainKeys items
  | .table members => membersHavePlainKeys members
  | .string _ | .integer _ | .float _ | .boolean _ | .moment _ => true

/-- Whether all keys in the items of an array are plain. -/
def itemsHavePlainKeys : List Value → Bool
  | [] => true
  | item :: rest => item.hasPlainKeys && itemsHavePlainKeys rest

/-- Whether all keys in a table are plain. -/
def membersHavePlainKeys : List (String × Value) → Bool
  | [] => true
  | (key, value) :: rest =>
      isPlainKey key && value.hasPlainKeys && membersHavePlainKeys rest

end

section PlainKeys

variable {key : String}

theorem not_mem_of_isPlainKey
    {character : Char}
    (plain : isPlainKey key = true)
    (other : isPlainLetter character = false) :
    character ∉ key.toList := by
  intro present
  rw [List.all_eq_true.mp plain character present] at other
  cases other

/-- No plain key marks a moment, since the mark begins with a sign. -/
theorem ne_momentMark_of_isPlainKey (plain : isPlainKey key = true) :
    key ≠ Settings.Value.momentMark := by
  rintro rfl
  revert plain
  decide

/-- The code of a plain letter is small, and not that of a capital letter. -/
theorem toNat_of_isPlainLetter
    {character : Char}
    (plain : isPlainLetter character = true) :
    character.toNat < 128 ∧ ¬(65 ≤ character.toNat ∧ character.toNat ≤ 90) := by
  delta isPlainLetter Char.isLower Char.isDigit at plain
  simp only [Bool.or_eq_true, Bool.and_eq_true, decide_eq_true_eq, beq_iff_eq, ge_iff_le,
    UInt32.le_iff_toNat_le, Char.reduceVal, UInt32.reduceToNat] at plain
  have code : character.toNat = character.val.toNat := rfl
  rcases plain with (lower | digit) | rfl
  · omega
  · omega
  · decide

theorem smallLetter_of_isPlainLetter
    {character : Char}
    (plain : isPlainLetter character = true) :
    Text.smallLetter character = character := by
  obtain ⟨low, notCapital⟩ := toNat_of_isPlainLetter plain
  unfold Text.smallLetter
  split
  · rename_i kelvin
    rw [kelvin] at low
    exact absurd low (by decide)
  · unfold Char.toLower
    split
    · rename_i upper
      simp only [ge_iff_le, UInt32.le_iff_toNat_le, Char.reduceVal,
        UInt32.reduceToNat] at upper
      exact absurd upper notCapital
    · rfl

theorem lowerCase_of_isPlainKey (plain : isPlainKey key = true) :
    Text.lowerCase key = key := by
  rw [Text.lowerCase]
  calc
    _ = String.ofList (key.toList.map id) := by
      congr 1
      apply List.map_congr_left
      intro character present
      exact smallLetter_of_isPlainLetter (List.all_eq_true.mp plain character present)
    _ = key := by rw [List.map_id, String.ofList_toList]

/-- A plain key is no path: the library reads it as the name of one field. -/
theorem isHarmless_of_isPlainKey
    {library : Settings.Library}
    (lawful : library.Lawful)
    (plain : isPlainKey key = true) :
    Settings.KeyPath.IsHarmless library.path key :=
  .of_not_mem lawful.path_eq (not_mem_of_isPlainKey plain (by decide))
    (not_mem_of_isPlainKey plain (by decide))

end PlainKeys

end Toml

namespace Settings

/-! ## Laws of readers and of libraries -/

/-- What a value of a document becomes in a layer.  What arrays and tables hold is left open. -/
inductive Value.Renders : Toml.Value → Value → Prop where
  | string (content : String) : Renders (.string content) (.text content)
  | integer (number : Int) : Renders (.integer number) (.integer number)
  | float (number : Float) : Renders (.float number) (.float number)
  | boolean (value : Bool) : Renders (.boolean value) (.boolean value)
  | moment (content : String) : Renders (.moment content) (.text content)
  | array (items : List Toml.Value) (rendered : List Value) :
      Renders (.array items) (.list rendered)
  | table (members : Toml.Table) (rendered : List (String × Value)) :
      Renders (.table members) (.table rendered)

/-- The entry of a layer that an entry of a document becomes. -/
def RendersEntry (given : String × Toml.Value) (rendered : String × Value) : Prop :=
  given.1 = rendered.1 ∧ Value.Renders given.2 rendered.2

/-- What is asked of a strict reader. -/
structure Reader.Lawful (reader : Reader) : Prop where
  /-- No table has a key twice. -/
  distinct : ∀ document table, reader.parse? document = some table → (Entries.keys table).Nodup
  /-- Natural numbers are integers. -/
  natural : ∀ value number, reader.natural? value = some number →
    value = .integer (number : Nat)
  /-- Texts are strings. -/
  text : ∀ value content, reader.text? value = some content → value = .string content

/-- What is asked of a library beside a strict reader. -/
structure Library.Matches (library : Library) (reader : Reader) : Prop where
  /-- A document in plain keys that the reader takes apart is a layer of the same entries, in
  any order. -/
  layer : ∀ (file : File) document table, file.extension = "toml" →
    file.content? = some document → reader.parse? document = some table →
    Toml.membersHavePlainKeys table = true →
    ∃ layer rendered, library.fileLayer? file = some layer ∧ layer.Perm rendered ∧
      List.Forall₂ RendersEntry table rendered
  /-- What has the type of a field already is converted to itself. -/
  word : ∀ number : Nat, library.word? (.integer number) = some number
  optionalWord : ∀ number : Nat, library.optionalWord? (.integer number) = some (some number)
  text : ∀ content, library.text? (.text content) = some content

/-! ## Documents as layers -/

namespace Value

/-- A table of plain keys is not taken for a date. -/
theorem marked?_of_hasPlainKeys
    {members : Toml.Table}
    (plain : Toml.membersHavePlainKeys members = true) :
    marked? members = none := by
  cases members with
  | nil => rfl
  | cons entry rest =>
      rw [Toml.membersHavePlainKeys, Bool.and_eq_true, Bool.and_eq_true] at plain
      exact if_neg (Toml.ne_momentMark_of_isPlainKey plain.1.1)

mutual

/-- Every value in plain keys can stand in a layer. -/
theorem exists_ofToml?
    (value : Toml.Value)
    (plain : value.hasPlainKeys = true) :
    ∃ converted, ofToml? value = some converted := by
  cases value with
  | string | integer | float | boolean | moment => exact ⟨_, by rw [ofToml?]⟩
  | array items =>
      rw [Toml.Value.hasPlainKeys] at plain
      obtain ⟨converted, converts⟩ := exists_itemsOfToml? items plain
      exact ⟨_, by rw [ofToml?, converts, Option.map_some]⟩
  | table members =>
      rw [Toml.Value.hasPlainKeys] at plain
      obtain ⟨converted, converts⟩ := exists_membersOfToml? members plain
      refine ⟨.table converted, ?_⟩
      rw [ofToml?, marked?_of_hasPlainKeys plain, converts]
      rfl

theorem exists_itemsOfToml?
    (items : List Toml.Value)
    (plain : Toml.itemsHavePlainKeys items = true) :
    ∃ converted, itemsOfToml? items = some converted := by
  cases items with
  | nil => exact ⟨_, by rw [itemsOfToml?]⟩
  | cons item rest =>
      rw [Toml.itemsHavePlainKeys, Bool.and_eq_true] at plain
      obtain ⟨first, here⟩ := exists_ofToml? item plain.1
      obtain ⟨others, there⟩ := exists_itemsOfToml? rest plain.2
      exact ⟨_, by rw [itemsOfToml?, here, there]⟩

theorem exists_membersOfToml?
    (members : List (String × Toml.Value))
    (plain : Toml.membersHavePlainKeys members = true) :
    ∃ converted, membersOfToml? members = some converted := by
  cases members with
  | nil => exact ⟨_, by rw [membersOfToml?]⟩
  | cons entry rest =>
      rw [Toml.membersHavePlainKeys, Bool.and_eq_true, Bool.and_eq_true] at plain
      obtain ⟨first, here⟩ := exists_ofToml? entry.2 plain.1.2
      obtain ⟨others, there⟩ := exists_membersOfToml? rest plain.2
      exact ⟨_, by rw [membersOfToml?, here, there]⟩

end

/-- Values that can stand in a layer are rendered. -/
theorem renders_of_ofToml?
    {value : Toml.Value}
    {converted : Value}
    (plain : value.hasPlainKeys = true)
    (converts : ofToml? value = some converted) :
    Renders value converted := by
  cases value with
  | string | integer | float | boolean | moment =>
      rw [ofToml?] at converts
      cases converts
      constructor
  | array items =>
      rw [ofToml?] at converts
      obtain ⟨rendered, -, rfl⟩ := Option.map_eq_some_iff.mp converts
      exact .array items rendered
  | table members =>
      rw [Toml.Value.hasPlainKeys] at plain
      rw [ofToml?, marked?_of_hasPlainKeys plain] at converts
      obtain ⟨rendered, -, rfl⟩ := Option.map_eq_some_iff.mp converts
      exact .table members rendered

/-- The members of a table are rendered one by one, under the same keys. -/
theorem forall₂_of_membersOfToml?
    {table : Toml.Table}
    {members : List (String × Value)}
    (plain : Toml.membersHavePlainKeys table = true)
    (converts : membersOfToml? table = some members) :
    List.Forall₂ RendersEntry table members := by
  induction table generalizing members with
  | nil =>
      rw [membersOfToml?] at converts
      cases converts
      exact .nil
  | cons entry rest inductionHypothesis =>
      rw [Toml.membersHavePlainKeys, Bool.and_eq_true, Bool.and_eq_true] at plain
      rw [membersOfToml?] at converts
      split at converts
      · rename_i first others here there
        cases converts
        exact .cons ⟨rfl, renders_of_ofToml? plain.1.2 here⟩ (inductionHypothesis plain.2 there)
      · cases converts

theorem word?_natCast (number : Nat) : word? (.integer number) = some number := by
  rw [word?, if_pos (Int.natCast_nonneg number), Int.toNat_natCast]

end Value

/-- The usual reader does what is asked of it. -/
theorem Reader.usual_lawful : usual.Lawful where
  distinct := fun _ _ => Toml.nodup_keys_of_parse?
  natural := by
    intro value number natural
    cases value with
    | integer given =>
        change (if 0 ≤ given then some given.toNat else none) = some number at natural
        split at natural
        · rename_i front
          obtain rfl : given.toNat = number := Option.some.inj natural
          rw [Int.toNat_of_nonneg front]
        · cases natural
    | string | float | boolean | moment | array | table => cases natural
  text := by
    intro value content isText
    cases value with
    | string given => rw [Option.some.inj (show some given = some content from isText)]
    | integer | float | boolean | moment | array | table => cases isText

/-- The usual library reads documents as the usual reader does. -/
theorem Library.usual_matches : usual.Matches .usual where
  layer := by
    intro file document table extension content parsed plain
    obtain ⟨members, converts⟩ := Value.exists_membersOfToml? table plain
    have becomes : Value.ofToml? (.table table) = some (.table members) := by
      rw [Value.ofToml?, Value.marked?_of_hasPlainKeys plain, converts]
      rfl
    refine ⟨members, members, ?_, .refl _, Value.forall₂_of_membersOfToml? plain converts⟩
    change Toml.parse? document = some table at parsed
    change file.layer? = some members
    rw [File.layer?, content, Option.bind_some, extension, File.value?, if_pos rfl, parsed,
      Option.bind_some, becomes]
  word := Value.word?_natCast
  optionalWord := fun number => congrArg (Option.map some) (Value.word?_natCast number)
  text := fun _ => rfl

/-! ## Layers in plain keys -/

/-- What is rendered has the keys of the document. -/
theorem keys_eq_of_forall₂
    {table : Toml.Table}
    {rendered : List (String × Value)}
    (renders : List.Forall₂ RendersEntry table rendered) :
    Entries.keys rendered = Entries.keys table := by
  induction renders with
  | nil => rfl
  | cons here _ inductionHypothesis =>
      rw [Entries.keys_cons, Entries.keys_cons, inductionHypothesis, here.1]

/-- What is rendered says of a key what the document says. -/
theorem find?_of_forall₂
    {table : Toml.Table}
    {rendered : List (String × Value)}
    (renders : List.Forall₂ RendersEntry table rendered)
    (key : String) :
    Option.Rel Value.Renders (Entries.find? key table) (Entries.find? key rendered) := by
  induction renders with
  | nil => exact .none
  | cons here _ inductionHypothesis =>
      rw [Entries.find?, Entries.find?, here.1]
      split
      · exact .some here.2
      · exact inductionHypothesis

theorem isPlainKey_of_mem_keys
    {table : Toml.Table}
    {key : String}
    (plain : Toml.membersHavePlainKeys table = true)
    (among : key ∈ Entries.keys table) :
    Toml.isPlainKey key = true := by
  induction table with
  | nil => cases among
  | cons entry rest inductionHypothesis =>
      rw [Toml.membersHavePlainKeys, Bool.and_eq_true, Bool.and_eq_true] at plain
      rcases List.mem_cons.mp among with rfl | among
      · exact plain.1.1
      · exact inductionHypothesis plain.2 among

namespace Layer

variable {layer : Layer}

theorem lowerCase_of_isPlainKey
    (plain : ∀ key ∈ Entries.keys layer, Toml.isPlainKey key = true) :
    layer.lowerCase = layer := by
  calc
    _ = layer.map id := by
      apply List.map_congr_left
      intro entry present
      rw [Toml.lowerCase_of_isPlainKey (plain entry.1 (List.mem_map_of_mem present))]
      rfl
    _ = layer := List.map_id layer

theorem isHarmless_of_isPlainKey
    {library : Library}
    (lawful : library.Lawful)
    (plain : ∀ key ∈ Entries.keys layer, Toml.isPlainKey key = true)
    (distinct : (Entries.keys layer).Nodup) :
    layer.IsHarmless library.path where
  keys := fun entry present =>
    Toml.isHarmless_of_isPlainKey lawful (plain entry.1 (List.mem_map_of_mem present))
  distinct := by rwa [lowerCase_of_isPlainKey plain]

end Layer

/-! ## Strict readers and conversions -/

/-- What a strict reader takes is converted to the same value. -/
def Extends {α : Type} (strict? : Toml.Value → Option α) (read? : Value → Option α) : Prop :=
  ∀ value rendered taken, strict? value = some taken → Value.Renders value rendered →
    read? rendered = some taken

section Extends

variable
  {reader : Reader}
  {library : Library}
  (strictly : reader.Lawful)
  (matching : library.Matches reader)

include strictly matching

/-- Where the reader takes a value for a word, the library takes its rendering for the same. -/
theorem word?_extends : Extends reader.natural? library.word? := by
  intro value rendered number strict renders
  obtain rfl := strictly.natural value number strict
  cases renders
  exact matching.word number

theorem optionalWord?_extends :
    Extends (fun value => (reader.natural? value).map some) library.optionalWord? := by
  intro value rendered taken strict renders
  obtain ⟨number, natural, rfl⟩ := Option.map_eq_some_iff.mp strict
  obtain rfl := strictly.natural value number natural
  cases renders
  exact matching.optionalWord number

/-- Where the reader takes a value for a text, the library takes its rendering for the same. -/
theorem text?_extends : Extends reader.text? library.text? := by
  intro value rendered content strict renders
  obtain rfl := strictly.text value content strict
  cases renders
  exact matching.text content

end Extends

/-- A field that the strict reader accepts is taken by the wider one with the same result. -/
theorem Extends.taken?_eq
    {α : Type}
    {strict? : Toml.Value → Option α}
    {read? : Value → Option α}
    {standard taken : α}
    {field : Field}
    {table : Toml.Table}
    {rendered : List (String × Value)}
    (widens : Extends strict? read?)
    (renders : List.Forall₂ RendersEntry table rendered)
    (strict : fieldValue? strict? standard field table = some taken) :
    taken? read? standard (Entries.find? field.key rendered) = some taken := by
  rw [fieldValue?] at strict
  have related := find?_of_forall₂ renders field.key
  generalize Entries.find? field.key table = given,
    Entries.find? field.key rendered = source at related strict ⊢
  cases related with
  | none => exact strict
  | some alike => exact widens _ _ taken strict alike

/-- Settings that are read strictly follow what the document says as a layer. -/
theorem follows_of_ofTable?
    {reader : Reader}
    {library : Library}
    {table : Toml.Table}
    {rendered : List (String × Value)}
    {settings : Settings}
    (strictly : reader.Lawful)
    (matching : library.Matches reader)
    (renders : List.Forall₂ RendersEntry table rendered)
    (strict : reader.ofTable? table = some settings) :
    Follows library (fun field => Entries.find? field.key rendered) settings := by
  simp only [Reader.ofTable?, Option.bind_eq_bind, Option.bind_eq_some_iff, Option.pure_def,
    Option.some.injEq] at strict
  obtain ⟨_, size, _, capacity, _, drain, _, limit, _, mark, rfl⟩ := strict
  have natural := word?_extends strictly matching
  exact ⟨natural.taken?_eq renders size, natural.taken?_eq renders capacity,
    natural.taken?_eq renders drain,
    (optionalWord?_extends strictly matching).taken?_eq renders limit,
    (text?_extends strictly matching).taken?_eq renders mark⟩

/-! ## Loading a document alone -/

theorem Layer.variableKey?_of_unmarked
    {name : String}
    (unmarked : ¬variableMark.toList <+: (Text.lowerCase name).toList) :
    variableKey? name = none :=
  if_neg (by rwa [List.isPrefixOf_iff_prefix])

/-- Variables without the mark make an empty layer. -/
theorem Layer.ofVariables_of_unmarked
    {ofText : String → Value}
    {environment : List (String × String)}
    (unmarked : ∀ entry ∈ environment,
      ¬variableMark.toList <+: (Text.lowerCase entry.1).toList) :
    ofVariables ofText environment = [] := by
  rw [ofVariables, List.filterMap_eq_nil_iff]
  rintro ⟨name, text⟩ present
  simp only [variableKey?_of_unmarked (unmarked _ present), Option.map_none]

section Loads

variable
  {reader : Reader}
  {library : Library}
  {file : File}
  {document : String}
  {environment : List (String × String)}
  (strictly : reader.Lawful)
  (lawful : library.Lawful)
  (matching : library.Matches reader)
  (extension : file.extension = "toml")
  (content : file.content? = some document)

include strictly lawful matching extension content

/-- Settings that are read strictly from a document in plain keys are what loading it comes
to, before their bounds are checked. -/
theorem load?_of_ofTable?
    {table : Toml.Table}
    {settings : Settings}
    (parsed : reader.parse? document = some table)
    (plain : Toml.membersHavePlainKeys table = true)
    (unmarked : ∀ entry ∈ environment,
      ¬Layer.variableMark.toList <+: (Text.lowerCase entry.1).toList)
    (strict : reader.ofTable? table = some settings) :
    library.load? (some file) environment = some settings.checked := by
  obtain ⟨layer, rendered, read, reordered, renders⟩ :=
    matching.layer file document table extension content parsed plain
  have plainRendered : ∀ key ∈ Entries.keys rendered, Toml.isPlainKey key = true := by
    rw [keys_eq_of_forall₂ renders]
    exact fun key among => isPlainKey_of_mem_keys plain among
  have sameKeys : (Entries.keys layer).Perm (Entries.keys rendered) := reordered.map Prod.fst
  have plainKeys : ∀ key ∈ Entries.keys layer, Toml.isPlainKey key = true :=
    fun key among => plainRendered key (sameKeys.mem_iff.mp among)
  have distinct : (Entries.keys layer).Nodup := by
    rw [sameKeys.nodup_iff, keys_eq_of_forall₂ renders]
    exact strictly.distinct document table parsed
  have nothing : Layer.ofVariables library.ofText environment = [] :=
    Layer.ofVariables_of_unmarked unmarked
  obtain ⟨merged, loads, settles⟩ := lawful.load?_of_layers
    (show library.lowerLayer? (some file) = some layer from read)
    (Layer.isHarmless_of_isPlainKey lawful plainKeys distinct)
    (show (Layer.ofVariables library.ofText environment).IsHarmless library.path by
      rw [nothing]
      exact ⟨by simp, List.nodup_nil⟩)
  have follows : Follows library (library.given? layer environment) settings := by
    have sources : library.given? layer environment =
        fun field => Entries.find? field.key rendered := by
      funext field
      rw [Library.given?, nothing, Layer.lowerCase_of_isPlainKey plainKeys,
        ← Entries.find?_perm reordered distinct]
      rfl
    rw [sources]
    exact follows_of_ofTable? strictly matching renders strict
  rw [loads, Library.ofLayers, (settles.ofValue?_eq_some_iff lawful settings).mpr follows]

end Loads

/-- A document with a dotted key, a date and a table that name no field. -/
def roomy : String :=
  "batch_size = 1_000_000\nother.day = 1979-05-27\nstage_timeout_ms = 1\n[extra]\nbatch_size = -1"

end Settings
end StagePipeline
