import StagePipeline.Proofs.Settings.Bounds
import StagePipeline.Proofs.Settings.Library
import StagePipeline.Settings.Layers

/-!
# Layers that spare the fields

A key may be a path into tables and lists.  A layer of keys that spare the fields can be laid
over every value, and sets the fields that its keys name, but no others.  The names that come
of it are read as paths once more when the layers are merged.  So the usual library is lawful.
-/

namespace StagePipeline
namespace Settings

/-! ## Keys -/

namespace KeyPath

/-- A key without points and brackets is a name as a whole.  Only a point and a bracket go on
behind a name. -/
theorem ofKey_of_not_mem
    {key : String}
    (point : '.' ∉ key.toList)
    (bracket : '[' ∉ key.toList) :
    ofKey key = [.member (Text.lowerCase key)] := by
  suffices parse? key = none ∨ parse? key = some [.member key] by
    rcases this with unread | read
    · rw [ofKey, unread]
      rfl
    · rw [ofKey, read]
      rfl
  unfold parse?
  have parts := List.takeWhile_append_dropWhile (p := isNameCharacter) (l := key.toList)
  generalize key.toList.takeWhile isNameCharacter = name at parts ⊢
  cases rest : key.toList.dropWhile isNameCharacter with
  | nil =>
      rw [rest, List.append_nil] at parts
      simp only [parts, String.ofList_toList]
      split
      · exact Or.inl rfl
      · exact Or.inr rfl
  | cons first others =>
      have present : first ∈ key.toList := by
        rw [← parts, rest]
        exact List.mem_append_right _ List.mem_cons_self
      have noStep : steps? (first :: others).length (first :: others) = none := by
        unfold steps?
        split
        · contradiction
        · contradiction
        · rename_i same
          cases same
          exact absurd present point
        · rename_i same
          cases same
          exact absurd present bracket
        · rfl
      exact Or.inl (by simp only [noStep, Option.map_none, ite_self])

example : ¬IsHarmless ofKey "batch_size[0]" := by decide +kernel

/-- The names of a path are in small letters. -/
theorem lowerCase_of_outermost?
    {key name : String}
    (first : outermost? (ofKey key) = some name) :
    Text.lowerCase name = name := by
  unfold ofKey at first
  generalize (parse? key).getD [.member key] = path at first
  cases path with
  | nil => cases first
  | cons step steps =>
      cases step with
      | item => cases first
      | member source =>
          obtain rfl : Text.lowerCase source = name := Option.some.inj first
          exact Text.lowerCase_lowerCase source

/-- The key of a field, in whatever letters, is no path. -/
theorem ofKey_of_field
    {key : String}
    {field : Field}
    (same : Text.lowerCase key = field.key) :
    ofKey key = [.member field.key] := by
  rw [← same]
  apply ofKey_of_not_mem
  · intro present
    have kept := Text.mem_lowerCase_of_mem (by decide) present
    rw [same] at kept
    revert kept
    cases field <;> decide
  · intro present
    have kept := Text.mem_lowerCase_of_mem (by decide) present
    rw [same] at kept
    revert kept
    cases field <;> decide

/-- A value can be set at the end of open steps, whatever was there before. -/
theorem set?_of_isOpen
    {steps : KeyPath}
    (opens : ∀ step ∈ steps, step.IsOpen)
    (value below : Value) :
    ∃ above, set? value steps below = some above := by
  induction steps generalizing below with
  | nil => exact ⟨_, rfl⟩
  | cons step rest inductionHypothesis =>
      obtain ⟨here, others⟩ := List.forall_mem_cons.mp opens
      cases step with
      | member name =>
          obtain ⟨new, set⟩ := inductionHypothesis others
            ((Entries.find? name below.members).getD (.table []))
          exact ⟨_, by rw [set?, set, Option.map_some]⟩
      | item index =>
          obtain ⟨front, fits⟩ := here
          obtain ⟨place, rfl⟩ := Int.eq_ofNat_of_zero_le front
          rw [Int.toNat_natCast] at fits
          have there : position? below.items.length (place : Int) = some place := if_pos fits
          simp only [set?, there]
          cases rest with
          | nil => exact ⟨_, rfl⟩
          | cons next further =>
              obtain ⟨new, set⟩ := inductionHypothesis others
                ((extended below.items place)[place]?.getD .null)
              exact ⟨_, by rw [set, Option.map_some]⟩

/-- What a key that spares the fields sets: a single member, and of the fields at most the
one that it names. -/
theorem set?_of_sparesFields
    {key : String}
    (spares : SparesFields ofKey key)
    (value below : Value) :
    ∃ name new, outermost? (ofKey key) = some name ∧
      set? value (ofKey key) below = some (.table (Entries.put name new below.members)) ∧
      ∀ field : Field, Entries.find? field.key (Entries.put name new below.members) =
        if Text.lowerCase key = field.key then
          some (value.overlay ((Entries.find? field.key below.members).getD (.table [])))
        else Entries.find? field.key below.members := by
  rcases spares with own | elsewhere
  · rw [own]
    refine ⟨Text.lowerCase key, _, rfl, rfl, fun field => ?_⟩
    split
    · rename_i same
      rw [same, Entries.find?_put_self]
    · rename_i other
      rw [Entries.find?_put_of_ne other]
  · have unnamed : ∀ field : Field, Text.lowerCase key ≠ field.key := by
      intro field same
      rw [ofKey_of_field same] at elsewhere
      exact elsewhere.1 field field.mem_all rfl
    generalize ofKey key = path at elsewhere ⊢
    cases path with
    | nil => cases elsewhere
    | cons step steps =>
        cases step with
        | item => cases elsewhere
        | member name =>
            obtain ⟨foreign, opens⟩ := elsewhere
            obtain ⟨new, set⟩ := set?_of_isOpen opens value
              ((Entries.find? name below.members).getD (.table []))
            refine ⟨name, new, rfl, by rw [set?, set, Option.map_some], fun field => ?_⟩
            rw [if_neg (unnamed field),
              Entries.find?_put_of_ne (foreign field field.mem_all).symm]

end KeyPath

/-! ## Laying a layer over a value -/

namespace Layer

/-- The value of a key that is given above, below, or both. -/
def onto (above? below? : Option Value) : Option Value :=
  match above? with
  | none => below?
  | some above => some (above.overlay (below?.getD (.table [])))

/-- What is found of a field after one entry has been set. -/
theorem onto_cons
    {name : String}
    {rest : List (String × Value)}
    (fresh : name ∉ Entries.keys rest)
    (value : Value)
    (below? : Option Value)
    (key : String) :
    onto (Entries.find? key rest)
        (if name = key then some (value.overlay (below?.getD (.table []))) else below?) =
      onto (Entries.find? key ((name, value) :: rest)) below? := by
  by_cases same : name = key
  · subst same
    rw [Entries.find?_eq_none_iff.mpr fresh, if_pos rfl, Entries.find?, if_pos rfl]
    rfl
  · rw [if_neg same, Entries.find?, if_neg same]

/-- A layer that spares the fields can be laid over every value, and sets the fields that
its keys name. -/
theorem overlay?_of_sparesFields
    {layer : Layer}
    (spares : ∀ entry ∈ layer, KeyPath.SparesFields KeyPath.ofKey entry.1)
    (distinct : (Entries.keys layer.lowerCase).Nodup)
    (below : Value) :
    ∃ above, overlay? layer below = some above ∧
      ∀ field : Field, Entries.find? field.key above.members =
        onto (Entries.find? field.key layer.lowerCase)
          (Entries.find? field.key below.members) := by
  induction layer generalizing below with
  | nil => exact ⟨below, rfl, fun _ => rfl⟩
  | cons entry rest inductionHypothesis =>
      obtain ⟨key, value⟩ := entry
      obtain ⟨here, others⟩ := List.forall_mem_cons.mp spares
      obtain ⟨fresh, distinct⟩ := List.nodup_cons.mp distinct
      obtain ⟨name, new, -, set, fields⟩ := KeyPath.set?_of_sparesFields here value below
      obtain ⟨above, laid, found⟩ := inductionHypothesis others distinct
        (.table (Entries.put name new below.members))
      refine ⟨above, ?_, fun field => ?_⟩
      · rw [overlay?, List.foldlM_cons]
        simp only [set]
        exact laid
      · rw [found, Value.members_table, fields]
        exact onto_cons fresh value _ field.key

/-- Members that harmless layers have set. -/
structure IsSettled (members : List (String × Value)) : Prop where
  spares : ∀ key ∈ Entries.keys members, KeyPath.SparesFields KeyPath.ofKey key
  small : ∀ key ∈ Entries.keys members, Text.lowerCase key = key
  distinct : (Entries.keys members).Nodup

theorem IsSettled.nil : IsSettled [] where
  spares := by simp
  small := by simp
  distinct := List.nodup_nil

theorem IsSettled.put
    {members : List (String × Value)}
    {key name : String}
    (settled : IsSettled members)
    (harmless : KeyPath.IsHarmless KeyPath.ofKey key)
    (first : KeyPath.outermost? (KeyPath.ofKey key) = some name)
    (value : Value) :
    IsSettled (Entries.put name value members) where
  spares := by
    intro other present
    rcases (Entries.mem_keys_put value).mp present with rfl | present
    · exact harmless.onceMore other first
    · exact settled.spares other present
  small := by
    intro other present
    rcases (Entries.mem_keys_put value).mp present with rfl | present
    · exact KeyPath.lowerCase_of_outermost? first
    · exact settled.small other present
  distinct := Entries.nodup_keys_put value settled.distinct

/-- A harmless layer sets members that are settled. -/
theorem IsSettled.overlay
    {layer : Layer}
    {below above : Value}
    (settled : IsSettled below.members)
    (harmless : ∀ entry ∈ layer, KeyPath.IsHarmless KeyPath.ofKey entry.1)
    (laid : overlay? layer below = some above) :
    IsSettled above.members := by
  induction layer generalizing below with
  | nil =>
      cases laid
      exact settled
  | cons entry rest inductionHypothesis =>
      obtain ⟨key, value⟩ := entry
      obtain ⟨here, others⟩ := List.forall_mem_cons.mp harmless
      obtain ⟨name, new, first, set, -⟩ :=
        KeyPath.set?_of_sparesFields here.asWritten value below
      rw [overlay?, List.foldlM_cons] at laid
      simp only [set] at laid
      have nextSettled : IsSettled (Value.members (.table (Entries.put name new below.members))) :=
        settled.put here first new
      exact inductionHypothesis nextSettled others laid

theorem IsSettled.lowerCase_eq
    {members : List (String × Value)}
    (settled : IsSettled members) :
    lowerCase members = members := by
  unfold lowerCase
  calc
    _ = members.map id := by
      apply List.map_congr_left
      intro entry present
      rw [settled.small entry.1 (List.mem_map_of_mem present)]
      rfl
    _ = members := List.map_id members

/-! ## Merging layers -/

/-- What layers say of a key, the last one uppermost. -/
def found? (layers : List Layer) (key : String) : Option Value :=
  layers.foldl (fun below? layer => onto (Entries.find? key layer.lowerCase) below?) none

theorem stackOn_of_isHarmless
    {layers : List Layer}
    (harmless : ∀ layer ∈ layers, layer.IsHarmless KeyPath.ofKey)
    {below : Value}
    (settled : IsSettled below.members) :
    ∃ above, layers.foldlM (fun below layer => overlay? layer below) below = some above ∧
      IsSettled above.members ∧
      ∀ field : Field, Entries.find? field.key above.members =
        layers.foldl (fun below? layer => onto (Entries.find? field.key layer.lowerCase) below?)
          (Entries.find? field.key below.members) := by
  induction layers generalizing below with
  | nil => exact ⟨below, rfl, settled, fun _ => rfl⟩
  | cons layer rest inductionHypothesis =>
      obtain ⟨here, others⟩ := List.forall_mem_cons.mp harmless
      obtain ⟨next, laid, nextFound⟩ := overlay?_of_sparesFields
        (fun entry present => (here.keys entry present).asWritten) here.distinct below
      obtain ⟨above, stacked, aboveSettled, found⟩ :=
        inductionHypothesis others (settled.overlay here.keys laid)
      refine ⟨above, ?_, aboveSettled, fun field => ?_⟩
      · rw [List.foldlM_cons, laid]
        exact stacked
      · rw [found, nextFound, List.foldl_cons]

/-- Harmless layers can be merged. -/
theorem merge?_of_isHarmless
    {layers : List Layer}
    (harmless : ∀ layer ∈ layers, layer.IsHarmless KeyPath.ofKey) :
    ∃ merged, merge? layers = some merged ∧
      ∀ field : Field, Entries.find? field.key merged.members =
        onto (found? layers field.key) none := by
  obtain ⟨stacked, stackable, settled, stackedFound⟩ :=
    stackOn_of_isHarmless harmless (show IsSettled (Value.members (.table [])) from .nil)
  have distinct : (Entries.keys (lowerCase stacked.members)).Nodup := by
    rw [settled.lowerCase_eq]
    exact settled.distinct
  obtain ⟨merged, merges, found⟩ := overlay?_of_sparesFields
    (fun entry present => settled.spares entry.1 (List.mem_map_of_mem present)) distinct
    (.table [])
  refine ⟨merged, ?_, fun field => ?_⟩
  · rw [merge?, stack?, stackable]
    exact merges
  · rw [found, settled.lowerCase_eq, stackedFound]
    rfl

end Layer

/-! ## The usual library -/

namespace Value

theorem ConvertsLike.trans
    {first second third : Value}
    (left : ConvertsLike first second)
    (right : ConvertsLike second third) :
    ConvertsLike first third := by
  cases left with
  | same => exact right
  | tables =>
      cases right with
      | same => exact .tables _ _
      | tables => exact .tables _ _

theorem overlayMembers_table (members below : List (String × Value)) :
    ∃ above, overlayMembers members (.table below) = .table above := by
  induction members generalizing below with
  | nil => exact ⟨below, rfl⟩
  | cons entry rest inductionHypothesis =>
      rw [overlayMembers]
      exact inductionHypothesis _

/-- What is laid over a table is converted as before. -/
theorem overlay_table (value : Value) (below : List (String × Value)) :
    ConvertsLike (value.overlay (.table below)) value := by
  cases value with
  | table members =>
      obtain ⟨above, laid⟩ := overlayMembers_table members below
      rw [overlay, laid]
      exact .tables above members
  | null | boolean | integer | float | text | list => exact .same _

/-- What is no table hides everything that it is laid over. -/
theorem overlay_of_ne_table
    {value : Value}
    (flat : ∀ members, value ≠ .table members)
    (below : Value) :
    value.overlay below = value := by
  cases value with
  | table members => exact absurd rfl (flat members)
  | null | boolean | integer | float | text | list => rfl

/-- No variable is a table. -/
theorem ofVariable_ne_table (text : String) (members : List (String × Value)) :
    ofVariable text ≠ .table members := by
  unfold ofVariable
  simp only
  split
  · nofun
  · split
    · nofun
    · split
      · nofun
      · split <;> nofun

end Value

/-- The usual library merges two layers as it is asked to. -/
theorem Layer.merge?_pair
    {lower upper : Layer}
    (lowerHarmless : lower.IsHarmless KeyPath.ofKey)
    (upperHarmless : upper.IsHarmless KeyPath.ofKey)
    (flat : ∀ entry ∈ upper, ∀ members, entry.2 ≠ .table members) :
    ∃ merged, merge? [lower, upper] = some merged ∧
      ∀ field : Field, Option.Rel Value.ConvertsLike (Entries.find? field.key merged.members)
        ((Entries.find? field.key upper.lowerCase).or
          (Entries.find? field.key lower.lowerCase)) := by
  have bothHarmless : ∀ layer ∈ [lower, upper], layer.IsHarmless KeyPath.ofKey := by
    simp [lowerHarmless, upperHarmless]
  obtain ⟨merged, merges, found⟩ := merge?_of_isHarmless bothHarmless
  refine ⟨merged, merges, fun field => ?_⟩
  rw [found, found?, List.foldl_cons, List.foldl_cons, List.foldl_nil]
  cases given : Entries.find? field.key upper.lowerCase with
  | some value =>
      obtain ⟨entry, present, same⟩ := List.mem_map.mp (Entries.mem_of_find? given)
      obtain rfl : entry.2 = value := (Prod.mk.inj same).2
      rw [Option.some_or, onto, onto, Value.overlay_of_ne_table (flat entry present),
        Value.overlay_of_ne_table (flat entry present)]
      exact .some (.same _)
  | none =>
      rw [Option.none_or]
      cases Entries.find? field.key lower.lowerCase with
      | none => exact .none
      | some value =>
          exact .some ((Value.overlay_table _ _).trans (Value.overlay_table value []))

/-- The usual library does what is asked of it. -/
theorem Library.usual_lawful : usual.Lawful where
  path_eq := fun _ => KeyPath.ofKey_of_not_mem
  environment := fun _ => List.Perm.refl _
  ofText_ne := Value.ofVariable_ne_table
  merge := fun _ _ => Layer.merge?_pair
  unread := fun _ => ⟨rfl, rfl, rfl⟩

end Settings
end StagePipeline
