import Mathlib.Data.List.Nodup
import StagePipeline.Settings.Library

/-!
# Laws of libraries

What is asked of a library of layered settings: plain keys are names, variables are found by
the mark of the program and may come in any order, and a later layer hides what an earlier one
says of the same field.  That much is only asked of layers whose keys spare the fields.  A key
spares the fields if it is a name as a whole, or leads into something that is no field.
-/

namespace StagePipeline

/-! ## Entries -/

namespace Entries

variable
  {α : Type}
  {key : String}
  {entries : List (String × α)}

/-- The keys of some entries. -/
def keys (entries : List (String × α)) : List String :=
  entries.map Prod.fst

@[simp] theorem keys_nil : keys ([] : List (String × α)) = [] :=
  rfl

@[simp] theorem keys_cons (entry : String × α) (rest : List (String × α)) :
    keys (entry :: rest) = entry.1 :: keys rest :=
  rfl

/-- A key is not found exactly if it is not there. -/
theorem find?_eq_none_iff : find? key entries = none ↔ key ∉ keys entries := by
  induction entries with
  | nil => simp
  | cons entry rest inductionHypothesis =>
      by_cases same : entry.1 = key
      · simp [find?, same]
      · simp [find?, same, Ne.symm same, inductionHypothesis]

/-- What is found under a key is an entry. -/
theorem mem_of_find?
    {value : α}
    (found : find? key entries = some value) :
    (key, value) ∈ entries := by
  induction entries with
  | nil => cases found
  | cons entry rest inductionHypothesis =>
      rw [find?] at found
      split at found
      · rename_i same
        cases found
        cases same
        exact List.mem_cons_self
      · exact List.mem_cons_of_mem _ (inductionHypothesis found)

/-- A key that is put keeps its place if it was there, and comes last otherwise. -/
theorem keys_put (value : α) :
    keys (put key value entries) =
      if key ∈ keys entries then keys entries else keys entries ++ [key] := by
  induction entries with
  | nil => rfl
  | cons entry rest inductionHypothesis =>
      by_cases same : entry.1 = key
      · simp [put, same]
      · rw [put, if_neg same, keys_cons, keys_cons, inductionHypothesis]
        by_cases among : key ∈ keys rest
        · simp [among]
        · simp [among, Ne.symm same]

theorem mem_keys_put (value : α) {other : String} :
    other ∈ keys (put key value entries) ↔ other = key ∨ other ∈ keys entries := by
  rw [keys_put]
  split
  · constructor
    · exact Or.inr
    · rintro (rfl | among)
      · assumption
      · exact among
  · rw [List.mem_append, List.mem_singleton, or_comm]

/-- To put an entry keeps the keys apart. -/
theorem nodup_keys_put (value : α) (distinct : (keys entries).Nodup) :
    (keys (put key value entries)).Nodup := by
  rw [keys_put]
  split
  · exact distinct
  · rename_i absent
    rw [List.nodup_append]
    refine ⟨distinct, List.nodup_singleton key, ?_⟩
    rintro other among _ last rfl
    rw [List.mem_singleton] at last
    exact absent (last ▸ among)

/-- With distinct keys, to find an entry is to have it. -/
theorem find?_eq_some_iff
    {value : α}
    (distinct : (keys entries).Nodup) :
    find? key entries = some value ↔ (key, value) ∈ entries := by
  refine ⟨mem_of_find?, fun present => ?_⟩
  induction entries with
  | nil => cases present
  | cons entry rest inductionHypothesis =>
      obtain ⟨fresh, distinct⟩ := List.nodup_cons.mp distinct
      rw [find?]
      rcases List.mem_cons.mp present with rfl | present
      · rw [if_pos rfl]
      · have other : entry.1 ≠ key := by
          intro same
          rw [same] at fresh
          exact fresh (List.mem_map.mpr ⟨(key, value), present, rfl⟩)
        rw [if_neg other]
        exact inductionHypothesis distinct present

/-- What is found under a key does not depend on the order of the entries. -/
theorem find?_perm
    {others : List (String × α)}
    (same : entries.Perm others)
    (distinct : (keys entries).Nodup) :
    find? key entries = find? key others := by
  have alsoDistinct : (keys others).Nodup := (same.map Prod.fst).nodup_iff.mp distinct
  apply Option.ext
  intro value
  rw [find?_eq_some_iff distinct, find?_eq_some_iff alsoDistinct, same.mem_iff]

end Entries

/-! ## Small letters -/

namespace Text

/-- A letter from a to z. -/
def IsSmall (letter : Char) : Prop :=
  97 ≤ letter.toNat ∧ letter.toNat ≤ 122

/-- A letter is made small, or is left as it is. -/
theorem smallLetter_eq_or (letter : Char) :
    smallLetter letter = letter ∨ IsSmall (smallLetter letter) := by
  unfold smallLetter
  split
  · exact Or.inr (by unfold IsSmall; decide)
  · unfold Char.toLower
    split
    · rename_i upper
      refine Or.inr ?_
      simp only [IsSmall, Char.toNat, UInt32.le_iff_toNat_le, UInt32.toNat_add, UInt32.toNat_sub,
        ge_iff_le, Char.reduceVal, UInt32.reduceToNat] at upper ⊢
      omega
    · exact Or.inl rfl

/-- A small letter is left as it is. -/
theorem smallLetter_of_isSmall {letter : Char} (small : IsSmall letter) :
    smallLetter letter = letter := by
  unfold smallLetter
  split
  · rename_i kelvin
    obtain ⟨-, upper⟩ := small
    rw [kelvin] at upper
    exact absurd upper (by decide)
  · unfold Char.toLower
    split
    · rename_i upper
      obtain ⟨least, greatest⟩ := small
      simp only [Char.toNat, UInt32.le_iff_toNat_le, ge_iff_le, Char.reduceVal,
        UInt32.reduceToNat] at upper least
      omega
    · rfl

@[simp] theorem smallLetter_smallLetter (letter : Char) :
    smallLetter (smallLetter letter) = smallLetter letter := by
  rcases smallLetter_eq_or letter with same | small
  · rw [same, same]
  · exact smallLetter_of_isSmall small

@[simp] theorem lowerCase_lowerCase (text : String) :
    lowerCase (lowerCase text) = lowerCase text := by
  simp only [lowerCase, String.toList_ofList, List.map_map]
  congr 2
  exact funext smallLetter_smallLetter

theorem lowerCase_append (front back : String) :
    lowerCase (front ++ back) = lowerCase front ++ lowerCase back := by
  simp only [lowerCase, String.toList_append, List.map_append, String.ofList_append]

/-- A character that has no small form is still in the text. -/
theorem mem_lowerCase_of_mem
    {text : String}
    {character : Char}
    (kept : smallLetter character = character)
    (present : character ∈ text.toList) :
    character ∈ (lowerCase text).toList := by
  rw [lowerCase, String.toList_ofList, List.mem_map]
  exact ⟨character, present, kept⟩

/-- No character but a small letter is new in a text in small letters. -/
theorem mem_of_mem_lowerCase
    {text : String}
    {character : Char}
    (other : ¬IsSmall character)
    (present : character ∈ (lowerCase text).toList) :
    character ∈ text.toList := by
  rw [lowerCase, String.toList_ofList, List.mem_map] at present
  obtain ⟨source, among, rfl⟩ := present
  rw [(smallLetter_eq_or source).resolve_right other]
  exact among

end Text

/-! ## Keys that spare the fields -/

namespace Settings

@[simp] theorem Value.members_table (members : List (String × Value)) :
    (table members).members = members :=
  rfl

/-- A step that can be taken into every value: to a member, or to an item that is counted
from the front, of a list that can be addressed. -/
def KeyStep.IsOpen : KeyStep → Prop
  | member _ => True
  | item index => 0 ≤ index ∧ Word.fitsBuffer (index.toNat + 1) KeyPath.itemBytes = true

instance : DecidablePred KeyStep.IsOpen
  | .member _ => inferInstanceAs (Decidable True)
  | .item index => inferInstanceAs (Decidable (0 ≤ index ∧
      Word.fitsBuffer (index.toNat + 1) KeyPath.itemBytes = true))

namespace KeyPath

/-- A path that leads into a member that is no field, by steps that can be taken. -/
def LeadsElsewhere : KeyPath → Prop
  | .member name :: steps =>
      (∀ field ∈ Field.all, field.key ≠ name) ∧ ∀ step ∈ steps, step.IsOpen
  | _ => False

instance : DecidablePred LeadsElsewhere
  | .member name :: steps => inferInstanceAs (Decidable
      ((∀ field ∈ Field.all, field.key ≠ name) ∧ ∀ step ∈ steps, step.IsOpen))
  | .item _ :: _ => inferInstanceAs (Decidable False)
  | [] => inferInstanceAs (Decidable False)

/-- The name that a path begins with. -/
def outermost? : KeyPath → Option String
  | .member name :: _ => some name
  | _ => none

variable (pathOf : String → KeyPath)

/-- A key that is read as a name as a whole, or leads into something that is no field. -/
def SparesFields (key : String) : Prop :=
  pathOf key = [.member (Text.lowerCase key)] ∨ LeadsElsewhere (pathOf key)

instance : DecidablePred (SparesFields pathOf) := fun key =>
  inferInstanceAs (Decidable
    (pathOf key = [.member (Text.lowerCase key)] ∨ LeadsElsewhere (pathOf key)))

/-- A key that spares the fields as it is written, as does the name that it sets. -/
structure IsHarmless (key : String) : Prop where
  asWritten : SparesFields pathOf key
  onceMore : ∀ name ∈ outermost? (pathOf key), SparesFields pathOf name

instance : DecidablePred (IsHarmless pathOf) := fun key =>
  decidable_of_iff
    (SparesFields pathOf key ∧ ∀ name ∈ outermost? (pathOf key), SparesFields pathOf name)
    ⟨fun ⟨asWritten, onceMore⟩ => ⟨asWritten, onceMore⟩,
      fun harmless => ⟨harmless.asWritten, harmless.onceMore⟩⟩

end KeyPath

/-- Where only points and brackets make a path of a key, a key without them is harmless. -/
theorem KeyPath.IsHarmless.of_not_mem
    {pathOf : String → KeyPath}
    {key : String}
    (path_eq : ∀ key : String, '.' ∉ key.toList → '[' ∉ key.toList →
      pathOf key = [.member (Text.lowerCase key)])
    (point : '.' ∉ key.toList)
    (bracket : '[' ∉ key.toList) :
    IsHarmless pathOf key where
  asWritten := Or.inl (path_eq key point bracket)
  onceMore := by
    intro name first
    rw [path_eq key point bracket] at first
    obtain rfl : Text.lowerCase key = name := Option.some.inj first
    refine Or.inl (path_eq _ ?_ ?_)
    · exact fun present =>
        point (Text.mem_of_mem_lowerCase (by unfold Text.IsSmall; decide) present)
    · exact fun present =>
        bracket (Text.mem_of_mem_lowerCase (by unfold Text.IsSmall; decide) present)

/-! ## Layers -/

namespace Layer

/-- A layer with its keys in small letters. -/
def lowerCase (layer : Layer) : List (String × Value) :=
  layer.map fun entry => (Text.lowerCase entry.1, entry.2)

/-- All keys are harmless, and differ in small letters. -/
structure IsHarmless (pathOf : String → KeyPath) (layer : Layer) : Prop where
  keys : ∀ entry ∈ layer, KeyPath.IsHarmless pathOf entry.1
  distinct : (Entries.keys layer.lowerCase).Nodup

instance (pathOf : String → KeyPath) (layer : Layer) : Decidable (layer.IsHarmless pathOf) :=
  decidable_of_iff
    ((∀ entry ∈ layer, KeyPath.IsHarmless pathOf entry.1) ∧
      (Entries.keys layer.lowerCase).Nodup)
    ⟨fun ⟨keys, distinct⟩ => ⟨keys, distinct⟩,
      fun harmless => ⟨harmless.keys, harmless.distinct⟩⟩

variable {pathOf : String → KeyPath} {layer other : Layer}

/-- The order of a layer does not make it harmful. -/
theorem IsHarmless.of_perm
    (harmless : other.IsHarmless pathOf)
    (same : layer.Perm other) :
    layer.IsHarmless pathOf where
  keys := fun entry present => harmless.keys entry (same.mem_iff.mp present)
  distinct := ((same.map _).map Prod.fst).nodup_iff.mpr harmless.distinct

/-- Nor does it change what the layer says of a key. -/
theorem find?_lowerCase_perm
    (harmless : layer.IsHarmless pathOf)
    (same : layer.Perm other)
    (key : String) :
    Entries.find? key layer.lowerCase = Entries.find? key other.lowerCase :=
  Entries.find?_perm (same.map _) harmless.distinct

end Layer

/-! ## Laws -/

namespace Value

/-- Values that are the same but for what is in a table. -/
inductive ConvertsLike : Value → Value → Prop where
  | same (value : Value) : ConvertsLike value value
  | tables (left right : List (String × Value)) : ConvertsLike (.table left) (.table right)

end Value

/-- What is asked of a library. -/
structure Library.Lawful (library : Library) : Prop where
  /-- Only points and brackets make a path of a key. -/
  path_eq : ∀ key : String, '.' ∉ key.toList → '[' ∉ key.toList →
    library.path key = [.member (Text.lowerCase key)]
  /-- The variables that count are those that begin with the mark, in whatever letters, and
  what follows the mark is their key.  They may come in any order. -/
  environment : ∀ environment : List (String × String),
    (library.environmentLayer environment).Perm (Layer.ofVariables library.ofText environment)
  /-- No text is taken for a table. -/
  ofText_ne : ∀ (text : String) (members : List (String × Value)),
    library.ofText text ≠ .table members
  /-- Of two layers the upper one, if it holds no tables, hides what the lower one says of the
  fields that it names, and nothing else. -/
  merge : ∀ lower upper : Layer,
    lower.IsHarmless library.path → upper.IsHarmless library.path →
    (∀ entry ∈ upper, ∀ members, entry.2 ≠ .table members) →
    ∃ merged, library.merge? [lower, upper] = some merged ∧
      ∀ field : Field, Option.Rel Value.ConvertsLike
        (Entries.find? field.key merged.members)
        ((Entries.find? field.key upper.lowerCase).or
          (Entries.find? field.key lower.lowerCase))
  /-- No table is converted. -/
  unread : ∀ members : List (String × Value), library.word? (.table members) = none ∧
    library.optionalWord? (.table members) = none ∧ library.text? (.table members) = none

end Settings
end StagePipeline
