import StagePipeline.Proofs.BatchSize
import StagePipeline.Proofs.Settings.Sources

/-!
# The gates that settings go through

Settings are checked wherever they come in: when they are read from a document or from
layers, when a coordinator is created, and before values are cut into batches.  At each of
these gates settings out of bounds are turned away by the same fault, before anything else
is looked at.  So values are only cut into batches of a size within bounds, of which a
buffer can be addressed.
-/

namespace StagePipeline

namespace Settings

/-- What comes of settings that have been read, if they could be.  What is wrong with their
source comes before what is wrong with them. -/
inductive Admission (unreadable : Fault) : Option Settings → Except Fault Settings → Prop where
  | unreadable : Admission unreadable none (.error unreadable)
  | refused {settings : Settings} {fault : Fault} :
      ¬settings.IsBounded → settings.IsRefusal fault →
      Admission unreadable (some settings) (.error fault)
  | accepted {settings : Settings} :
      settings.IsBounded → Admission unreadable (some settings) (.ok settings)

variable {settings : Settings}

/-- Settings that have been read are admitted if they are in range. -/
theorem Admission.of_checked (unreadable : Fault) (settings : Settings) :
    Admission unreadable (some settings) settings.checked := by
  by_cases inRange : settings.InRange
  · rw [checked_eq_ok_iff.mpr ⟨rfl, inRange⟩]
    exact .accepted (inRange_iff_isBounded.mp inRange)
  · obtain ⟨fault, refusal, refused⟩ := exists_isRefusal inRange
    rw [checked, refused]
    exact .refused (mt inRange_iff_isBounded.mpr inRange) refusal

/-- A document is admitted by what is read of it, whichever reader is used. -/
theorem Reader.ofDocument_admission (reader : Reader) (document : String) :
    Admission .unreadableDocument ((reader.parse? document).bind reader.ofTable?)
      (reader.ofDocument document) := by
  unfold ofDocument
  cases (reader.parse? document).bind reader.ofTable? with
  | none => exact .unreadable
  | some settings => exact .of_checked .unreadableDocument settings

theorem ofDocument_admission (document : String) :
    Admission .unreadableDocument ((Toml.parse? document).bind ofTable?) (ofDocument document) :=
  Reader.usual.ofDocument_admission document

/-- Layers are admitted by what is read of them, whichever library is used. -/
theorem Library.ofLayers_admission (library : Library) (value : Value) :
    Admission .unreadableLayers (library.ofValue? value) (library.ofLayers value) := by
  unfold ofLayers
  cases library.ofValue? value with
  | none => exact .unreadable
  | some settings => exact .of_checked .unreadableLayers settings

/-- Layers from which settings can be loaded, with whatever library, are those of a value that
holds settings, or there are none. -/
theorem Library.exists_admission_of_load?
    {library : Library}
    {file? : Option File}
    {environment : List (String × String)}
    {result : Except Fault Settings}
    (loads : library.load? file? environment = some result) :
    ∃ read?, Admission .unreadableLayers read? result := by
  rw [load?] at loads
  split at loads
  · cases loads
    exact ⟨none, .unreadable⟩
  · obtain ⟨merged, -, rfl⟩ := Option.map_eq_some_iff.mp loads
    exact ⟨_, library.ofLayers_admission merged⟩

/-- Whatever is admitted is accepted once more. -/
theorem Admission.validate_eq_ok
    {unreadable : Fault}
    {read? : Option Settings}
    (admission : Admission unreadable read? (.ok settings)) :
    settings.validate = .ok () := by
  cases admission with
  | accepted bounded => exact validate_eq_ok_iff.mpr (inRange_iff_isBounded.mpr bounded)

end Settings

namespace Pipeline

/-- Settings that are turned away by a fault at every gate, whatever stages, batches, values
and observers they come with.  No observer is told anything. -/
structure TurnsAway (settings : Settings) (fault : Fault) : Prop where
  validate : settings.validate = .error fault
  create : ∀ stages runId, Coordinator.create stages settings runId = .error fault
  runObserved : ∀ surroundings stages batches observer?,
    runObserved surroundings stages batches settings observer? = some (.fault fault, [])
  runValues : ∀ surroundings stages values,
    runValues surroundings stages values settings = some (.fault fault)

/-- Settings that are let through.  Values are cut into batches of a size within bounds, for
which there is room, and these batches are run. -/
structure LetsThrough (settings : Settings) : Prop where
  validate : settings.validate = .ok ()
  size : 1 ≤ settings.batchSize ∧ settings.batchSize ≤ 1000000
  runValues : ∀ values, ∃ batches, Batch.chunks? settings.batchSize values = some batches ∧
    ∀ surroundings stages,
      runValues surroundings stages values settings = run surroundings stages batches settings

variable
  {settings : Settings}
  {fault : Fault}

/-- Settings that are refused are turned away at every gate, for the same reason. -/
theorem TurnsAway.of_validate (refused : settings.validate = .error fault) :
    TurnsAway settings fault := by
  have created : ∀ stages runId, Coordinator.create stages settings runId = .error fault := by
    intro stages runId
    rw [Coordinator.create, refused]
    rfl
  refine ⟨refused, created, fun surroundings stages batches observer? => ?_,
    fun surroundings stages values => ?_⟩
  · rw [Pipeline.runObserved, created]
  · rw [Pipeline.runValues, refused]

/-- Settings in range are let through at every gate. -/
theorem LetsThrough.of_inRange (inRange : settings.InRange) : LetsThrough settings := by
  have accepted := Settings.validate_eq_ok_iff.mpr inRange
  refine ⟨accepted, inRange .batchSize _ rfl,
    fun values => ⟨_, chunks?_of_inRange inRange values, fun surroundings stages => ?_⟩⟩
  rw [Pipeline.runValues, accepted, chunks?_of_inRange inRange]

/-- No settings out of bounds pass a gate, and all others pass. -/
theorem gates_exact :
    (∀ settings : Settings, settings.validate = .ok () ↔ settings.IsBounded) ∧
    (∀ settings : Settings, settings.IsBounded → LetsThrough settings) ∧
    (∀ settings : Settings, ¬settings.IsBounded →
      ∃ fault, settings.IsRefusal fault ∧ TurnsAway settings fault) ∧
    (∀ document, Settings.Admission .unreadableDocument
      ((Toml.parse? document).bind Settings.ofTable?) (Settings.ofDocument document)) ∧
    (∀ document settings, Settings.ofDocument document = .ok settings →
      settings.validate = .ok ()) ∧
    ∀ file? environment settings, Settings.load? file? environment = some (.ok settings) →
      settings.validate = .ok () := by
  simp only [← Settings.inRange_iff_isBounded]
  refine ⟨fun settings => Settings.validate_eq_ok_iff, fun settings => .of_inRange,
    fun settings outside => ?_, Settings.ofDocument_admission, fun document settings read => ?_,
    fun file? environment settings loads => ?_⟩
  · obtain ⟨fault, refusal, refused⟩ := Settings.exists_isRefusal outside
    exact ⟨fault, refusal, .of_validate refused⟩
  · exact (read ▸ Settings.ofDocument_admission document).validate_eq_ok
  · obtain ⟨read?, admission⟩ := Settings.Library.exists_admission_of_load? loads
    exact admission.validate_eq_ok

/-- Settings of which one field lies on either side of its bounds. -/
def lopsided : Settings :=
  { Settings.standard with batchSize := 0, stageTimeout := some 3600001 }

/-- They are turned away, also together with values and stages that could not be run. -/
theorem gates_exact_lopsided :
    ¬lopsided.IsBounded ∧
    runValues ⟨default, ⟨fun _ _ => default, fun _ _ => default, default⟩⟩ [] ["1"] lopsided =
      some (.fault (.configuration "pipeline_config"
        "Validation failed: batch_size: lower than 1\nstage_timeout_ms: greater than 3600000\n")) ∧
    Settings.standard.IsBounded ∧
    (∃ batches, Batch.chunks? Settings.standard.batchSize ["1"] = some batches) ∧
    Settings.ofDocument "" = .ok Settings.standard ∧
    Settings.load? none [] = some (.ok Settings.standard) ∧
    Settings.standard.validate = .ok () := by
  obtain ⟨exact, through, away, -, documents, loads⟩ := gates_exact
  have unbounded : ¬lopsided.IsBounded := fun bounded => by
    have positive := bounded.batchSize.1
    cases positive
  have bounded : Settings.standard.IsBounded := (exact _).mp rfl
  have document : Settings.ofDocument "" = .ok Settings.standard := by decide +kernel
  have loaded : Settings.load? none [] = some (.ok Settings.standard) := by decide +kernel
  obtain ⟨fault, -, turned⟩ := away _ unbounded
  have same : lopsided.validate = .error (.configuration "pipeline_config"
      "Validation failed: batch_size: lower than 1\nstage_timeout_ms: greater than 3600000\n") := by
    decide +kernel
  cases turned.validate.symm.trans same
  obtain ⟨batches, cut, -⟩ := (through _ bounded).runValues ["1"]
  exact ⟨unbounded, turned.runValues _ _ _, bounded, ⟨batches, cut⟩, document, loaded,
    documents _ _ document⟩

end Pipeline
end StagePipeline
