import StagePipeline.Json.Reader
import StagePipeline.Proofs.Codec

/-!
# JSON as text

A JSON value is written as text, and the text is read again.  Unless it is nested too deep,
everything but a float comes back as it was.  What comes back of a float is up to the text
layer: the digits that it writes, and the care with which it reads them.  So a report comes
back with the floats that the layer echoes, and is the same if and only if the layer echoes
each of them exactly.
-/

namespace StagePipeline

open Json

/-! ## Nesting -/

/-- Arrays and objects are nested at most so deep in a value. -/
inductive Json.NestsWithin : Nat → Json → Prop where
  | null {bound : Nat} : NestsWithin bound .null
  | bool {bound : Nat} {value : Bool} : NestsWithin bound (.bool value)
  | integer {bound : Nat} {value : Int} : NestsWithin bound (.integer value)
  | float {bound : Nat} {value : Float} : NestsWithin bound (.float value)
  | string {bound : Nat} {value : String} : NestsWithin bound (.string value)
  | array {bound : Nat} {items : List Json} :
      (∀ item ∈ items, NestsWithin bound item) → NestsWithin (bound + 1) (.array items)
  | object {bound : Nat} {members : List (String × Json)} :
      (∀ member ∈ members, NestsWithin bound member.2) →
        NestsWithin (bound + 1) (.object members)

namespace Json.NestsWithin

variable {bound : Nat}

/-- What nests within a bound nests within every greater one. -/
theorem mono {greater : Nat} {json : Json} (nests : json.NestsWithin bound)
    (within : bound ≤ greater) : json.NestsWithin greater := by
  induction nests generalizing greater with
  | null => exact .null
  | bool => exact .bool
  | integer => exact .integer
  | float => exact .float
  | string => exact .string
  | array _ inductionHypothesis =>
      obtain ⟨greater, rfl⟩ := Nat.exists_eq_add_of_le' (Nat.le_trans (Nat.le_add_left 1 _) within)
      exact .array fun item present =>
        inductionHypothesis item present (Nat.le_of_succ_le_succ within)
  | object _ inductionHypothesis =>
      obtain ⟨greater, rfl⟩ := Nat.exists_eq_add_of_le' (Nat.le_trans (Nat.le_add_left 1 _) within)
      exact .object fun member present =>
        inductionHypothesis member present (Nat.le_of_succ_le_succ within)

theorem ofFloat (value : Float) : (Json.ofFloat value).NestsWithin bound := by
  unfold Json.ofFloat
  split
  · exact .float
  · exact .null

theorem ofOption (value? : Option Float) :
    (Json.ofOption Json.ofFloat value?).NestsWithin bound := by
  cases value? with
  | none => exact .null
  | some value => exact ofFloat value

/-- An array nests its elements. -/
theorem arrayMap
    {α : Type}
    {write : α → Json}
    (each : ∀ item, (write item).NestsWithin bound)
    (items : List α) :
    (Json.array (items.map write)).NestsWithin (bound + 1) := by
  refine .array fun json present => ?_
  obtain ⟨item, -, rfl⟩ := List.mem_map.mp present
  exact each item

end Json.NestsWithin

/-! ## Text layers -/

/-- A layer that writes JSON values as text and reads them again. -/
structure TextLayer where
  /-- What is read of the text that a value is written as. -/
  transmit? : Json → Option Json
  /-- What is read of the digits that a finite float is written as. -/
  echo? : Float → Option Float

/-- The results of a list come back if every result does. -/
theorem mapM_map_comm
    {α β : Type}
    {write : α → β}
    {send? : β → Option β}
    {echo? : α → Option α}
    {items : List α}
    (each : ∀ item ∈ items, send? (write item) = (echo? item).map write) :
    (items.map write).mapM send? = (items.mapM echo?).map (List.map write) := by
  induction items with
  | nil => rfl
  | cons item rest inductionHypothesis =>
      obtain ⟨here, others⟩ := List.forall_mem_cons.mp each
      rw [List.map_cons, List.mapM_cons, List.mapM_cons, here, inductionHypothesis others]
      cases echo? item with
      | none => rfl
      | some back => cases rest.mapM echo? <;> rfl

theorem mapM_some {α : Type} (items : List α) : items.mapM some = some items := by
  have whole : items.mapM (fun item => pure (id item)) = (pure (items.map id) : Option _) :=
    List.mapM_pure
  rwa [List.map_id] at whole

theorem mapM_cons_eq_some
    {α : Type}
    {echo? : α → Option α}
    {item : α}
    {rest backs : List α}
    (traversed : (item :: rest).mapM echo? = some backs) :
    ∃ first later, echo? item = some first ∧ rest.mapM echo? = some later ∧
      backs = first :: later := by
  rw [List.mapM_cons] at traversed
  obtain ⟨first, here, traversed⟩ := Option.bind_eq_some_iff.mp traversed
  obtain ⟨later, others, same⟩ := Option.bind_eq_some_iff.mp traversed
  exact ⟨first, later, here, others, (Option.some.inj same).symm⟩

theorem mapM_eq_some_self_iff {α : Type} {echo? : α → Option α} {items : List α} :
    items.mapM echo? = some items ↔ ∀ item ∈ items, echo? item = some item := by
  induction items with
  | nil => exact iff_of_true rfl nofun
  | cons item rest inductionHypothesis =>
      rw [List.forall_mem_cons, ← inductionHypothesis, List.mapM_cons]
      cases echo? item with
      | none => simp
      | some back => cases rest.mapM echo? <;> simp

/-- What is left of a list has been left by one of its items. -/
theorem exists_of_mem_mapM
    {α : Type}
    {echo? : α → Option α}
    {items backs : List α}
    {back : α}
    (traversed : items.mapM echo? = some backs)
    (present : back ∈ backs) :
    ∃ item ∈ items, echo? item = some back := by
  induction items generalizing backs with
  | nil =>
      cases traversed
      cases present
  | cons item rest inductionHypothesis =>
      obtain ⟨first, later, here, others, rfl⟩ := mapM_cons_eq_some traversed
      rcases List.mem_cons.mp present with rfl | present
      · exact ⟨item, List.mem_cons_self, here⟩
      · obtain ⟨origin, among, made⟩ := inductionHypothesis others present
        exact ⟨origin, List.mem_cons_of_mem _ among, made⟩

/-- A test that every item passes with what is left of it tells the same of both lists. -/
theorem all_of_mapM
    {α : Type}
    {echo? : α → Option α}
    {test : α → Bool}
    {items backs : List α}
    (traversed : items.mapM echo? = some backs)
    (same : ∀ item back, echo? item = some back → test back = test item) :
    backs.all test = items.all test := by
  induction items generalizing backs with
  | nil =>
      cases traversed
      rfl
  | cons item rest inductionHypothesis =>
      obtain ⟨first, later, here, others, rfl⟩ := mapM_cons_eq_some traversed
      rw [List.all_cons, List.all_cons, same item first here, inductionHypothesis others]

namespace TextLayer

/-- Nothing is lost but digits of floats and what is nested too deep, and what is read of digits
is a finite float. -/
structure Lawful (layer : TextLayer) : Prop where
  null : layer.transmit? .null = some .null
  natural : ∀ value < Word.limit, layer.transmit? (ofNat value) = some (ofNat value)
  string : ∀ text, layer.transmit? (.string text) = some (.string text)
  float : ∀ value, value.isFinite = true →
    layer.transmit? (.float value) = (layer.echo? value).map .float
  /-- Digits do not stand for what is infinite or not a number. -/
  finite : ∀ value back, layer.echo? value = some back → back.isFinite = true
  /-- Elements are written and read one by one, up to the depth at which readers give up. -/
  array : ∀ bound < Reader.depthLimit, ∀ items, (Json.array items).NestsWithin bound →
    layer.transmit? (.array items) = (items.mapM layer.transmit?).map .array
  /-- So are members, under names that are all different. -/
  object : ∀ bound < Reader.depthLimit, ∀ members, (Json.object members).NestsWithin bound →
    (members.map Prod.fst).Nodup → layer.transmit? (.object members) =
      (members.mapM fun member => (layer.transmit? member.2).map (Prod.mk member.1)).map .object

/-- The layer whose digits tell every finite float. -/
def exact : TextLayer :=
  ⟨some, fun value => if value.isFinite then some value else none⟩

/-- The layer that changes nothing obeys the laws. -/
theorem exact_lawful : exact.Lawful where
  null := rfl
  natural _ _ := rfl
  string _ := rfl
  float value finite := by
    change some (Json.float value) = Option.map _ (if value.isFinite then some value else none)
    rw [if_pos finite]
    rfl
  finite value back echoes := by
    change (if value.isFinite then some value else none) = some back at echoes
    split at echoes
    · rename_i finite
      cases echoes
      exact finite
    · cases echoes
  array _ _ items _ := by
    change some (Json.array items) = (items.mapM some).map .array
    rw [mapM_some]
    rfl
  object _ _ members _ _ := by
    change some (Json.object members) = (members.mapM some).map .object
    rw [mapM_some]
    rfl

variable {layer : TextLayer}

/-- What comes back of a float.  One that is not finite is not written as digits. -/
def echoed? (layer : TextLayer) (value : Float) : Option Float :=
  if value.isFinite then layer.echo? value else some value

/-- A float echoes as itself if it is not finite or the layer is exact at it. -/
theorem echoed?_eq_self_iff {value : Float} :
    layer.echoed? value = some value ↔
      (value.isFinite = true → layer.echo? value = some value) := by
  unfold echoed?
  split
  · rename_i finite
    simp [finite]
  · rename_i infinite
    simp [infinite]

namespace Lawful

/-- A float that comes back is finite if and only if it was. -/
theorem isFinite_eq
    {value back : Float}
    (lawful : layer.Lawful)
    (echoes : layer.echoed? value = some back) :
    back.isFinite = value.isFinite := by
  unfold echoed? at echoes
  split at echoes
  · rename_i finite
    rw [finite, lawful.finite value back echoes]
  · cases echoes
    rfl

/-- So is a float that has been finite, or one that is not written as digits. -/
theorem finite_or_eq
    {value back overNone : Float}
    (lawful : layer.Lawful)
    (known : value.isFinite = true ∨ value = overNone)
    (echoes : layer.echoed? value = some back) :
    back.isFinite = true ∨ back = overNone := by
  by_cases finite : value.isFinite = true
  · exact Or.inl ((lawful.isFinite_eq echoes).trans finite)
  · rw [echoed?, if_neg finite] at echoes
    cases echoes
    exact known

/-- A float is transmitted as its echo. -/
theorem transmit?_ofFloat (lawful : layer.Lawful) (value : Float) :
    layer.transmit? (ofFloat value) = (layer.echoed? value).map ofFloat := by
  unfold echoed? ofFloat
  split
  · rename_i finite
    rw [lawful.float value finite]
    refine Option.map_congr fun back echoes => ?_
    rw [if_pos (lawful.finite value back echoes)]
  · rename_i infinite
    rw [lawful.null, Option.map_some, if_neg infinite]

theorem transmit?_ofOption (lawful : layer.Lawful) (value? : Option Float) :
    layer.transmit? (ofOption ofFloat value?) =
      (value?.mapM layer.echoed?).map (ofOption ofFloat) := by
  cases value? with
  | none => exact lawful.null
  | some value =>
      rw [ofOption, lawful.transmit?_ofFloat]
      change _ = Option.map _ (Option.map some (layer.echoed? value))
      rw [Option.map_map]
      rfl

/-- An array is transmitted element by element. -/
theorem transmit?_array
    {α : Type}
    {write : α → Json}
    {echo? : α → Option α}
    {items : List α}
    {bound : Nat}
    (lawful : layer.Lawful)
    (shallow : bound + 1 < Reader.depthLimit)
    (nested : ∀ item, (write item).NestsWithin bound)
    (each : ∀ item ∈ items, layer.transmit? (write item) = (echo? item).map write) :
    layer.transmit? (.array (items.map write)) =
      (items.mapM echo?).map fun backs => .array (backs.map write) := by
  rw [lawful.array _ shallow _ (.arrayMap nested items), mapM_map_comm each, Option.map_map]
  rfl

end Lawful
end TextLayer

/-! ## Summaries and totals -/

namespace Summary

/-- What comes back of a summary. -/
def echoed? (layer : TextLayer) (summary : Summary) : Option Summary := do
  return { summary with
    sum := ← layer.echoed? summary.sum
    average := ← layer.echoed? summary.average
    least := ← layer.echoed? summary.least
    greatest := ← layer.echoed? summary.greatest }

/-- The floats of a summary. -/
def floats (summary : Summary) : List Float :=
  [summary.sum, summary.average, summary.least, summary.greatest]

variable {layer : TextLayer} {summary back : Summary}

theorem nestsWithin_toJson (summary : Summary) : summary.toJson.NestsWithin 1 := by
  refine .object ?_
  simp [ofNat, Json.NestsWithin.integer, Json.NestsWithin.ofFloat]

/-- A summary is transmitted by the echoes of its floats. -/
theorem transmit?_toJson (lawful : layer.Lawful) (fits : summary.count < Word.limit) :
    layer.transmit? summary.toJson = (summary.echoed? layer).map toJson := by
  rw [toJson, lawful.object 1 (by decide) _ summary.nestsWithin_toJson (by simp)]
  simp only [List.mapM_cons, List.mapM_nil, lawful.natural _ fits, lawful.transmit?_ofFloat]
  unfold echoed?
  cases layer.echoed? summary.sum <;> cases layer.echoed? summary.average <;>
    cases layer.echoed? summary.least <;> cases layer.echoed? summary.greatest <;> rfl

/-- The echo of a summary differs from it in its floats only. -/
theorem echoed?_eq_some_iff :
    summary.echoed? layer = some back ↔
      layer.echoed? summary.sum = some back.sum ∧
        layer.echoed? summary.average = some back.average ∧
        layer.echoed? summary.least = some back.least ∧
        layer.echoed? summary.greatest = some back.greatest ∧ summary.count = back.count := by
  simp only [echoed?, Option.bind_eq_bind, Option.bind_eq_some_iff, Option.pure_def,
    Option.some.injEq]
  constructor
  · rintro ⟨sum, sumEchoes, average, averageEchoes, least, leastEchoes, greatest,
      greatestEchoes, rfl⟩
    exact ⟨sumEchoes, averageEchoes, leastEchoes, greatestEchoes, rfl⟩
  · rintro ⟨sum, average, least, greatest, count⟩
    exact ⟨_, sum, _, average, _, least, _, greatest, by rw [count]⟩

/-- A summary comes back as it was if and only if its floats do. -/
theorem echoed?_eq_self_iff :
    summary.echoed? layer = some summary ↔
      ∀ value ∈ summary.floats, layer.echoed? value = some value := by
  rw [echoed?_eq_some_iff]
  simp [floats]

/-- A summary is as readable after transmission as before. -/
theorem isReadable_of_echoed?
    (lawful : layer.Lawful)
    (echoes : summary.echoed? layer = some back) :
    back.isReadable = summary.isReadable := by
  obtain ⟨sum, average, -⟩ := echoed?_eq_some_iff.mp echoes
  rw [isReadable, isReadable, lawful.isFinite_eq sum, lawful.isFinite_eq average]

/-- An intact summary is intact after transmission. -/
theorem IsIntact.of_echoed?
    (intact : summary.IsIntact)
    (lawful : layer.Lawful)
    (echoes : summary.echoed? layer = some back) :
    back.IsIntact := by
  obtain ⟨-, -, least, greatest, -⟩ := echoed?_eq_some_iff.mp echoes
  exact ⟨lawful.finite_or_eq intact.least least, lawful.finite_or_eq intact.greatest greatest⟩

end Summary

namespace Totals

/-- What comes back of totals. -/
def echoed? (layer : TextLayer) (totals : Totals) : Option Totals := do
  return { totals with
    sum := ← layer.echoed? totals.sum
    average := ← layer.echoed? totals.average
    least := ← totals.least.mapM layer.echoed?
    greatest := ← totals.greatest.mapM layer.echoed? }

/-- The floats of totals. -/
def floats (totals : Totals) : List Float :=
  [totals.sum, totals.average] ++ totals.least.toList ++ totals.greatest.toList

variable {layer : TextLayer} {totals back : Totals}

theorem nestsWithin_toJson (totals : Totals) : totals.toJson.NestsWithin 1 := by
  refine .object ?_
  simp [ofNat, Json.NestsWithin.integer, Json.NestsWithin.ofFloat, Json.NestsWithin.ofOption]

/-- Totals are transmitted by the echoes of their floats. -/
theorem transmit?_toJson
    (lawful : layer.Lawful)
    (fits : totals.count < Word.limit)
    (batchesFit : totals.batchCount < Word.limit) :
    layer.transmit? totals.toJson = (totals.echoed? layer).map toJson := by
  rw [toJson, lawful.object 1 (by decide) _ totals.nestsWithin_toJson (by simp)]
  simp only [List.mapM_cons, List.mapM_nil, lawful.natural _ fits, lawful.natural _ batchesFit,
    lawful.transmit?_ofFloat, lawful.transmit?_ofOption]
  unfold echoed?
  cases layer.echoed? totals.sum <;> cases layer.echoed? totals.average <;>
    cases totals.least.mapM layer.echoed? <;> cases totals.greatest.mapM layer.echoed? <;> rfl

/-- The echo of totals differs from them in their floats only. -/
theorem echoed?_eq_some_iff :
    totals.echoed? layer = some back ↔
      layer.echoed? totals.sum = some back.sum ∧
        layer.echoed? totals.average = some back.average ∧
        totals.least.mapM layer.echoed? = some back.least ∧
        totals.greatest.mapM layer.echoed? = some back.greatest ∧
        totals.count = back.count ∧ totals.batchCount = back.batchCount := by
  simp only [echoed?, Option.bind_eq_bind, Option.bind_eq_some_iff, Option.pure_def,
    Option.some.injEq]
  constructor
  · rintro ⟨sum, sumEchoes, average, averageEchoes, least, leastEchoes, greatest,
      greatestEchoes, rfl⟩
    exact ⟨sumEchoes, averageEchoes, leastEchoes, greatestEchoes, rfl, rfl⟩
  · rintro ⟨sum, average, least, greatest, count, batchCount⟩
    exact ⟨_, sum, _, average, _, least, _, greatest, by rw [count, batchCount]⟩

/-- A bound comes back as it was if and only if it is missing or its float does. -/
theorem mapM_echoed?_eq_self_iff {bound? : Option Float} :
    bound?.mapM layer.echoed? = some bound? ↔
      ∀ value ∈ bound?.toList, layer.echoed? value = some value := by
  cases bound? with
  | none => exact iff_of_true rfl nofun
  | some bound =>
      change Option.map some (layer.echoed? bound) = some (some bound) ↔ _
      simp

/-- Totals come back as they were if and only if their floats do. -/
theorem echoed?_eq_self_iff :
    totals.echoed? layer = some totals ↔
      ∀ value ∈ totals.floats, layer.echoed? value = some value := by
  rw [echoed?_eq_some_iff, mapM_echoed?_eq_self_iff, mapM_echoed?_eq_self_iff]
  simp only [floats, List.forall_mem_append, List.forall_mem_cons, List.not_mem_nil,
    IsEmpty.forall_iff, implies_true, and_true, and_assoc]

/-- Totals are as readable after transmission as before. -/
theorem isReadable_of_echoed?
    (lawful : layer.Lawful)
    (echoes : totals.echoed? layer = some back) :
    back.isReadable = totals.isReadable := by
  obtain ⟨sum, average, -⟩ := echoed?_eq_some_iff.mp echoes
  rw [isReadable, isReadable, lawful.isFinite_eq sum, lawful.isFinite_eq average]

/-- A bound that comes back of a finite one is finite. -/
theorem isFinite_of_mapM_echoed?
    {bound? back? : Option Float}
    (lawful : layer.Lawful)
    (echoes : bound?.mapM layer.echoed? = some back?)
    (finite : ∀ bound ∈ bound?, bound.isFinite = true) :
    ∀ bound ∈ back?, bound.isFinite = true := by
  cases bound? with
  | none =>
      cases echoes
      nofun
  | some bound =>
      obtain ⟨back, here, rfl⟩ := Option.map_eq_some_iff.mp echoes
      rintro other ⟨⟩
      rw [lawful.isFinite_eq here]
      exact finite bound rfl

/-- Intact totals are intact after transmission. -/
theorem IsIntact.of_echoed?
    (intact : totals.IsIntact)
    (lawful : layer.Lawful)
    (echoes : totals.echoed? layer = some back) :
    back.IsIntact := by
  obtain ⟨-, -, least, greatest, -⟩ := echoed?_eq_some_iff.mp echoes
  exact ⟨isFinite_of_mapM_echoed? lawful least intact.least,
    isFinite_of_mapM_echoed? lawful greatest intact.greatest⟩

end Totals

/-! ## Reports -/

theorem StageMetrics.nestsWithin_toJson (metrics : StageMetrics) :
    metrics.toJson.NestsWithin 1 := by
  refine .object ?_
  simp [ofNat, Json.NestsWithin.integer, Json.NestsWithin.string]

/-- Metrics come back as they were. -/
theorem StageMetrics.transmit?_toJson
    {layer : TextLayer}
    {metrics : StageMetrics}
    (lawful : layer.Lawful)
    (fits : metrics.Fits)
    (averageFits : metrics.averageMicroseconds < Word.limit) :
    layer.transmit? metrics.toJson = some metrics.toJson := by
  rw [toJson, lawful.object 1 (by decide) _ metrics.nestsWithin_toJson (by simp)]
  simp only [List.mapM_cons, List.mapM_nil, lawful.string, lawful.natural _ fits.batches,
    lawful.natural _ fits.recordsIn, lawful.natural _ fits.recordsOut,
    lawful.natural _ fits.totalMicroseconds, lawful.natural _ averageFits]
  rfl

theorem Duration.nestsWithin_toJson (duration : Duration) : duration.toJson.NestsWithin 1 := by
  refine .object ?_
  simp [ofNat, Json.NestsWithin.integer]

/-- A duration has no floats and is transmitted as it is. -/
theorem Duration.transmit?_toJson
    {layer : TextLayer}
    {duration : Duration}
    (lawful : layer.Lawful)
    (fits : duration.seconds < Word.limit) :
    layer.transmit? duration.toJson = some duration.toJson := by
  have within : duration.subsecond < Word.limit :=
    Nat.lt_trans (Nat.mod_lt _ (by decide)) (by decide : perSecond < Word.limit)
  rw [toJson, lawful.object 1 (by decide) _ duration.nestsWithin_toJson (by simp)]
  simp only [List.mapM_cons, List.mapM_nil, lawful.natural _ fits, lawful.natural _ within]
  rfl

namespace Report

/-- What comes back of a report. -/
def echoed? (layer : TextLayer) (report : Report) : Option Report := do
  return { report with
    totals := ← report.totals.echoed? layer
    summaries := ← report.summaries.mapM (Summary.echoed? layer) }

/-- The floats of a report. -/
def floats (report : Report) : List Float :=
  report.totals.floats ++ report.summaries.flatMap Summary.floats

variable {layer : TextLayer} {report back : Report}

/-- A report has its summaries and its metrics two levels below. -/
theorem nestsWithin_toJson (report : Report) : report.toJson.NestsWithin 3 := by
  refine .object ?_
  simp only [List.forall_mem_cons, List.not_mem_nil, IsEmpty.forall_iff, implies_true, and_true]
  refine ⟨.string, ?_, .arrayMap Summary.nestsWithin_toJson _,
    .arrayMap StageMetrics.nestsWithin_toJson _, ?_⟩
  · exact report.totals.nestsWithin_toJson.mono (by decide)
  · exact report.duration.nestsWithin_toJson.mono (by decide)

/-- A report is transmitted by the echoes of its totals and summaries. -/
theorem transmit?_toJson (lawful : layer.Lawful) (fits : report.Fits) :
    layer.transmit? report.toJson = (report.echoed? layer).map toJson := by
  have summaries := lawful.transmit?_array (by decide) Summary.nestsWithin_toJson
    fun summary present => Summary.transmit?_toJson lawful (fits.summaries summary present)
  have metrics : layer.transmit? (.array (report.metrics.map StageMetrics.toJson)) =
      some (.array (report.metrics.map StageMetrics.toJson)) := by
    have each : ∀ metrics ∈ report.metrics,
        layer.transmit? metrics.toJson = (some metrics).map StageMetrics.toJson :=
      fun metrics present =>
        StageMetrics.transmit?_toJson lawful (fits.metrics metrics present).1
          (fits.metrics metrics present).2
    rw [lawful.transmit?_array (by decide) StageMetrics.nestsWithin_toJson each, mapM_some]
    rfl
  rw [toJson, lawful.object 3 (by decide) _ report.nestsWithin_toJson (by simp)]
  simp only [List.mapM_cons, List.mapM_nil, RunId.toJson, lawful.string,
    Totals.transmit?_toJson lawful fits.count fits.batchCount, summaries, metrics,
    Duration.transmit?_toJson lawful fits.seconds]
  unfold echoed?
  cases report.totals.echoed? layer <;>
    cases report.summaries.mapM (Summary.echoed? layer) <;> rfl

theorem exists_of_echoed? (echoes : report.echoed? layer = some back) :
    ∃ totals summaries, report.totals.echoed? layer = some totals ∧
      report.summaries.mapM (Summary.echoed? layer) = some summaries ∧
      back = { report with totals := totals, summaries := summaries } := by
  simp only [echoed?, Option.bind_eq_bind, Option.bind_eq_some_iff, Option.pure_def,
    Option.some.injEq] at echoes
  obtain ⟨totals, whole, summaries, each, rfl⟩ := echoes
  exact ⟨totals, summaries, whole, each, rfl⟩

/-- A report comes back as it was if and only if its floats do. -/
theorem echoed?_eq_self_iff :
    report.echoed? layer = some report ↔
      ∀ value ∈ report.floats, value.isFinite = true → layer.echo? value = some value := by
  have parts : report.echoed? layer = some report ↔
      report.totals.echoed? layer = some report.totals ∧
        report.summaries.mapM (Summary.echoed? layer) = some report.summaries := by
    constructor
    · intro echoes
      obtain ⟨totals, summaries, whole, each, same⟩ := exists_of_echoed? echoes
      have totals_eq := congrArg Report.totals same
      have summaries_eq := congrArg Report.summaries same
      exact ⟨totals_eq ▸ whole, summaries_eq ▸ each⟩
    · rintro ⟨whole, each⟩
      rw [echoed?, whole, each]
      rfl
  rw [parts, Totals.echoed?_eq_self_iff, mapM_eq_some_self_iff]
  simp only [Summary.echoed?_eq_self_iff, ← TextLayer.echoed?_eq_self_iff, floats,
    List.mem_append, List.mem_flatMap]
  constructor
  · rintro ⟨whole, each⟩ value (present | ⟨summary, among, present⟩)
    · exact whole value present
    · exact each summary among value present
  · intro all
    exact ⟨fun value present => all value (.inl present),
      fun summary among value present => all value (.inr ⟨summary, among, present⟩)⟩

/-- What comes back of a report has the same natural numbers. -/
theorem Fits.of_echoed? (fits : report.Fits) (echoes : report.echoed? layer = some back) :
    back.Fits := by
  obtain ⟨totals, summaries, whole, each, rfl⟩ := exists_of_echoed? echoes
  obtain ⟨-, -, -, -, count, batchCount⟩ := Totals.echoed?_eq_some_iff.mp whole
  refine ⟨count ▸ fits.count, batchCount ▸ fits.batchCount, ?_, fits.metrics, fits.seconds⟩
  intro summary present
  obtain ⟨origin, among, made⟩ := exists_of_mem_mapM each present
  obtain ⟨-, -, -, -, same⟩ := Summary.echoed?_eq_some_iff.mp made
  exact same ▸ fits.summaries origin among

/-- A report is as readable after transmission as before. -/
theorem isReadable_of_echoed?
    (lawful : layer.Lawful)
    (echoes : report.echoed? layer = some back) :
    back.isReadable = report.isReadable := by
  obtain ⟨totals, summaries, whole, each, rfl⟩ := exists_of_echoed? echoes
  have all : summaries.all Summary.isReadable = report.summaries.all Summary.isReadable :=
    all_of_mapM each fun _ _ made => Summary.isReadable_of_echoed? lawful made
  rw [isReadable, isReadable, Totals.isReadable_of_echoed? lawful whole, all]

/-- An intact report is intact after transmission. -/
theorem IsIntact.of_echoed?
    (intact : report.IsIntact)
    (lawful : layer.Lawful)
    (echoes : report.echoed? layer = some back) :
    back.IsIntact := by
  obtain ⟨totals, summaries, whole, each, rfl⟩ := exists_of_echoed? echoes
  refine ⟨intact.totals.of_echoed? lawful whole, ?_⟩
  intro summary present
  obtain ⟨origin, among, made⟩ := exists_of_mem_mapM each present
  exact (intact.summaries origin among).of_echoed? lawful made

/-- A report that cannot be read of its JSON value cannot be read of the text either. -/
theorem ofJson?_transmit?_eq_none
    (lawful : layer.Lawful)
    (fits : report.Fits)
    (unreadable : report.isReadable = false) :
    (layer.transmit? report.toJson).bind ofJson? = none := by
  rw [transmit?_toJson lawful fits]
  cases echoes : report.echoed? layer with
  | none => rfl
  | some back =>
      rw [Option.map_some, Option.bind_some, ofJson?_toJson (fits.of_echoed? echoes),
        isReadable_of_echoed? lawful echoes, unreadable]
      rfl

/-- A report that can, and whose bounds have a JSON form, comes back as the layer echoes it. -/
theorem ofJson?_transmit?
    (lawful : layer.Lawful)
    (fits : report.Fits)
    (intact : report.IsIntact)
    (readable : report.isReadable = true) :
    (layer.transmit? report.toJson).bind ofJson? = report.echoed? layer := by
  rw [transmit?_toJson lawful fits]
  cases echoes : report.echoed? layer with
  | none => rfl
  | some back =>
      have same := restored_eq_iff.mpr (intact.of_echoed? lawful echoes)
      rw [Option.map_some, Option.bind_some, ofJson?_toJson (fits.of_echoed? echoes),
        isReadable_of_echoed? lawful echoes, readable, if_pos rfl, same]

end Report
end StagePipeline
