import StagePipeline.Proofs.Settings.Layers
import StagePipeline.Toml.Document

/-!
# Tables of TOML documents

No key stands twice in the table of a document, because all that is done to a table while a
document is read keeps its keys apart.
-/

namespace StagePipeline

namespace Entries

theorem keys_erase {α : Type} (key : String) (entries : List (String × α)) :
    keys (erase key entries) = (keys entries).filter (· != key) := by
  rw [keys, keys, erase, List.filter_map]
  rfl

end Entries

namespace Toml

/-- A change after which the keys of a table are as distinct as before. -/
def KeepsDistinct (change : Members → Option Members) : Prop :=
  ∀ members changed, change members = some changed →
    (Entries.keys members).Nodup → (Entries.keys changed).Nodup

/-- A change further inside leaves the keys of the table as they are, or adds the one that
leads there. -/
theorem KeepsDistinct.editAt
    {change : Origin → Members → Option Members}
    (here : ∀ origin, KeepsDistinct (change origin))
    (dotted : Bool)
    (path : List String)
    (origin : Origin) :
    KeepsDistinct (editAt dotted change path origin) := by
  intro members changed edited distinct
  cases path with
  | nil => exact here origin members changed edited distinct
  | cons key path =>
      rw [Toml.editAt] at edited
      split at edited
      · simp only [Option.bind_eq_bind, Option.bind_eq_some_iff, Option.pure_def,
          Option.some.injEq] at edited
        obtain ⟨inner, -, rfl⟩ := edited
        exact Entries.nodup_keys_put _ distinct
      · cases edited
      · split at edited
        · cases edited
        · simp only [Option.bind_eq_bind, Option.bind_eq_some_iff, Option.pure_def,
            Option.some.injEq] at edited
          obtain ⟨inner, -, rfl⟩ := edited
          exact Entries.nodup_keys_put _ distinct
      · cases edited
      · simp only [Option.bind_eq_bind, Option.bind_eq_some_iff, Option.pure_def,
          Option.some.injEq] at edited
        obtain ⟨inner, -, rfl⟩ := edited
        exact Entries.nodup_keys_put _ distinct

/-- A value is inserted under a key that was not there. -/
theorem KeepsDistinct.insertValue (path : List String) (key : String) (value : Value) :
    KeepsDistinct (insertValue path key value) := by
  refine editAt (fun origin members changed inserted distinct => ?_) true path .header
  split at inserted
  · cases inserted
  · split at inserted
    · cases inserted
    · cases inserted
      exact Entries.nodup_keys_put _ distinct

theorem KeepsDistinct.insertPairs (pairs : List (Key × Value)) :
    KeepsDistinct (insertPairs pairs) := by
  induction pairs with
  | nil =>
      intro members changed inserted distinct
      cases inserted
      exact distinct
  | cons pair rest inductionHypothesis =>
      intro members changed inserted distinct
      rw [Toml.insertPairs, List.foldlM_cons, Option.bind_eq_bind,
        Option.bind_eq_some_iff] at inserted
      obtain ⟨next, first, others⟩ := inserted
      exact inductionHypothesis next changed others
        (KeepsDistinct.insertValue _ _ _ members next first distinct)

/-- A table with a header that was implied before goes to the end of the table around it,
and leaves no second one behind. -/
theorem nodup_keys_moved
    {members : Members}
    (key : String)
    (node : Node)
    (distinct : (Entries.keys members).Nodup) :
    (Entries.keys (Entries.erase key members ++ [(key, node)])).Nodup := by
  rw [Entries.keys, List.map_append, ← Entries.keys, Entries.keys_erase, List.nodup_append]
  refine ⟨distinct.filter _, List.nodup_singleton key, ?_⟩
  rintro other kept _ last rfl
  rw [List.map_singleton, List.mem_singleton] at last
  simp [last] at kept

/-- A section is added under a key of its own. -/
theorem KeepsDistinct.addSection
    (isElement : Bool)
    (key : Key)
    (fill : Members → Option Members) :
    KeepsDistinct (addSection isElement key fill) := by
  refine editAt (fun origin members changed added distinct => ?_) false key.path .header
  split at added
  · obtain ⟨inner, -, rfl⟩ := Option.map_eq_some_iff.mp added
    exact Entries.nodup_keys_put _ distinct
  · obtain ⟨inner, -, rfl⟩ := Option.map_eq_some_iff.mp added
    exact nodup_keys_moved _ _ distinct
  · obtain ⟨inner, -, rfl⟩ := Option.map_eq_some_iff.mp added
    exact Entries.nodup_keys_put _ distinct
  · obtain ⟨inner, -, rfl⟩ := Option.map_eq_some_iff.mp added
    exact Entries.nodup_keys_put _ distinct
  · cases added

/-- All sections together keep the keys apart. -/
theorem KeepsDistinct.addSections (fuel : Nat) (statements : List Statement) :
    KeepsDistinct (addSections fuel statements) := by
  induction fuel generalizing statements with
  | zero =>
      intro root changed added distinct
      cases added
  | succ fuel inductionHypothesis =>
      intro root changed added distinct
      cases statements with
      | nil =>
          cases added
          exact distinct
      | cons statement rest =>
          cases statement with
          | table key =>
              obtain ⟨next, first, others⟩ := Option.bind_eq_some_iff.mp added
              exact inductionHypothesis _ next changed others
                (KeepsDistinct.addSection _ _ _ root next first distinct)
          | element key =>
              obtain ⟨next, first, others⟩ := Option.bind_eq_some_iff.mp added
              exact inductionHypothesis _ next changed others
                (KeepsDistinct.addSection _ _ _ root next first distinct)
          | pair => cases added

theorem keys_membersToTable (members : Members) :
    Entries.keys (membersToTable members) = Entries.keys members := by
  induction members with
  | nil => rw [membersToTable]; rfl
  | cons entry rest inductionHypothesis =>
      rw [membersToTable, Entries.keys_cons, Entries.keys_cons, inductionHypothesis]

/-- No key stands twice in the table of a document. -/
theorem nodup_keys_of_parse?
    {document : String}
    {table : Table}
    (parsed : parse? document = some table) :
    (Entries.keys table).Nodup := by
  obtain ⟨statements, -, described⟩ := Option.bind_eq_some_iff.mp parsed
  simp only [tableOf?, Option.bind_eq_bind, Option.bind_eq_some_iff, Option.pure_def,
    Option.some.injEq] at described
  obtain ⟨leading, inserted, root, added, rfl⟩ := described
  rw [keys_membersToTable]
  exact KeepsDistinct.addSections _ _ leading root added
    (KeepsDistinct.insertPairs _ [] leading inserted List.nodup_nil)

end Toml
end StagePipeline
