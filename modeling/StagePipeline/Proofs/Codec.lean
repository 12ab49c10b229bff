import StagePipeline.Json.Codec
import StagePipeline.Proofs.RunId
import StagePipeline.Proofs.Run.Counters

/-!
# Reading back what has been written

Numbers that are not finite have no JSON form and are written as null.  Only the bounds may
be null when they are read, so that a summary can be read back exactly if its sum and its
average are finite, and then comes back with the bounds over no values in the place of those
that are not finite.  A report is read back in the same way, part by part.
-/

namespace StagePipeline

open Json

/-! ## Reading back -/

/-- How a value comes back that has been written: not at all if it is not readable, and
otherwise restored, which is the same if the value is intact.  What has come back once comes
back again as it is. -/
structure ReadsBack
    {α : Type}
    (write : α → Json)
    (read? : Json → Option α)
    (readable : α → Bool)
    (restored : α → α)
    (IsIntact : α → Prop)
    (value : α) :
    Prop where
  fails_iff : read? (write value) = none ↔ readable value = false
  restores : readable value = true → read? (write value) = some (restored value)
  same_iff : read? (write value) = some value ↔ readable value = true ∧ IsIntact value
  settles : ∀ back, read? (write value) = some back → read? (write back) = some back

/-- It is enough to know how a value and what is restored of it are read. -/
theorem ReadsBack.of_restored
    {α : Type}
    {write : α → Json}
    {read? : Json → Option α}
    {readable : α → Bool}
    {restored : α → α}
    {IsIntact : α → Prop}
    {value : α}
    (read : read? (write value) = if readable value then some (restored value) else none)
    (again : read? (write (restored value)) =
      if readable (restored value) then some (restored (restored value)) else none)
    (readable_restored : readable (restored value) = readable value)
    (restored_restored : restored (restored value) = restored value)
    (restored_eq_iff : restored value = value ↔ IsIntact value) :
    ReadsBack write read? readable restored IsIntact value := by
  rw [readable_restored, restored_restored] at again
  cases known : readable value with
  | false =>
      rw [known] at read
      exact ⟨by simp [read, known], by simp [known], by simp [read, known], by simp [read]⟩
  | true =>
      rw [known, if_pos rfl] at read again
      refine ⟨by simp [read, known], fun _ => read, ?_, ?_⟩
      · rw [read, Option.some.injEq, restored_eq_iff, known, eq_self, true_and]
      · rintro back comesBack
        obtain rfl := Option.some.inj (read.symm.trans comesBack)
        exact again

/-! ## Plain values -/

namespace Json

/-- A count that fits a word is read back. -/
theorem word?_ofNat {value : Nat} (fits : value < Word.limit) :
    word? (ofNat value) = some value := by
  rw [ofNat, word?, if_pos ⟨Int.natCast_nonneg value, by rwa [Int.toNat_natCast]⟩,
    Int.toNat_natCast]

/-- A float that is not finite cannot be read as a number. -/
theorem number?_ofFloat (value : Float) :
    number? (ofFloat value) = if value.isFinite then some value else none := by
  unfold ofFloat
  split <;> rfl

/-- A float that is not finite is written as null. -/
theorem nullable?_ofFloat (value : Float) :
    nullable? number? (ofFloat value) =
      some (if value.isFinite then some value else none) := by
  unfold ofFloat
  split <;> rfl

/-- What may be null is lost if it is not finite. -/
theorem nullable?_ofOption (value? : Option Float) :
    nullable? number? (ofOption ofFloat value?) = some (value?.filter Float.isFinite) := by
  cases value? with
  | none => rfl
  | some value =>
      rw [ofOption, nullable?_ofFloat, Option.filter_some]

/-- Items are read one by one, and all of them must be readable. -/
theorem mapM_map
    {α : Type}
    {write : α → Json}
    {read? : Json → Option α}
    {readable : α → Bool}
    {restored : α → α}
    {items : List α}
    (reads : ∀ item ∈ items,
      read? (write item) = if readable item then some (restored item) else none) :
    (items.map write).mapM read? =
      if items.all readable then some (items.map restored) else none := by
  induction items with
  | nil => rfl
  | cons item rest inductionHypothesis =>
      obtain ⟨here, others⟩ := List.forall_mem_cons.mp reads
      rw [List.map_cons, List.mapM_cons, here, inductionHypothesis others, List.all_cons,
        List.map_cons]
      cases readable item with
      | false => rfl
      | true => cases rest.all readable <;> rfl

end Json

/-! ## Summaries -/

namespace Summary

variable {summary : Summary}

/-- A summary whose sum and average are numbers of JSON. -/
def isReadable (summary : Summary) : Bool :=
  summary.sum.isFinite && summary.average.isFinite

/-- A bound, or the bound over no values in the place of one that is not finite. -/
def finiteOr (overNone bound : Float) : Float :=
  if bound.isFinite then bound else overNone

/-- The replacement of what is not finite leaves a bound alone exactly if there is nothing to
replace. -/
theorem finiteOr_eq_iff {overNone bound : Float} :
    finiteOr overNone bound = bound ↔ bound.isFinite = true ∨ bound = overNone := by
  unfold finiteOr
  split
  · rename_i finite
    exact iff_of_true rfl (Or.inl finite)
  · rename_i infinite
    rw [eq_comm]
    exact (or_iff_right infinite).symm

theorem finiteOr_finiteOr (overNone bound : Float) :
    finiteOr overNone (finiteOr overNone bound) = finiteOr overNone bound := by
  rw [finiteOr_eq_iff]
  by_cases finite : bound.isFinite = true
  · exact Or.inl (by rw [finiteOr, if_pos finite, finite])
  · exact Or.inr (if_neg finite)

/-- A summary with the bounds over no values in the place of those that are not finite. -/
def restored (summary : Summary) : Summary :=
  { summary with
    least := finiteOr Binary64.positiveInfinity summary.least
    greatest := finiteOr Binary64.negativeInfinity summary.greatest }

/-- The bounds of a summary are finite, or those over no values. -/
structure IsIntact (summary : Summary) : Prop where
  least : summary.least.isFinite = true ∨ summary.least = Binary64.positiveInfinity
  greatest : summary.greatest.isFinite = true ∨ summary.greatest = Binary64.negativeInfinity

/-- A summary is restored to itself exactly if it is intact. -/
theorem restored_eq_iff : summary.restored = summary ↔ summary.IsIntact := by
  have bounds : summary.restored = summary ↔
      finiteOr Binary64.positiveInfinity summary.least = summary.least ∧
        finiteOr Binary64.negativeInfinity summary.greatest = summary.greatest := by
    cases summary
    simp [restored]
  rw [bounds, finiteOr_eq_iff, finiteOr_eq_iff]
  exact ⟨fun ⟨least, greatest⟩ => ⟨least, greatest⟩,
    fun intact => ⟨intact.least, intact.greatest⟩⟩

theorem restored_restored (summary : Summary) :
    summary.restored.restored = summary.restored := by
  simp only [restored, finiteOr_finiteOr]

/-- A bound that was written as null comes back as the one over no values. -/
theorem bound?_ofFloat (overNone value : Float) :
    bound? overNone (ofFloat value) = some (finiteOr overNone value) := by
  rw [bound?, nullable?_ofFloat, Option.map_some, finiteOr]
  split <;> rfl

/-- A summary comes back exactly if it is readable. -/
theorem ofJson?_toJson (fits : summary.count < Word.limit) :
    ofJson? summary.toJson =
      if summary.isReadable then some summary.restored else none := by
  have fields : summary.toJson.fields? ["count", "sum", "avg", "min", "max"] =
      some [some (ofNat summary.count), some (ofFloat summary.sum),
        some (ofFloat summary.average), some (ofFloat summary.least),
        some (ofFloat summary.greatest)] := rfl
  rw [ofJson?, fields]
  simp only [required?, Option.bind_eq_bind, Option.bind_some]
  rw [word?_ofNat fits, number?_ofFloat, number?_ofFloat, bound?_ofFloat, bound?_ofFloat]
  unfold isReadable
  cases summary.sum.isFinite with
  | false => rfl
  | true => cases summary.average.isFinite <;> rfl

/-- A summary whose count fits a word reads back as its restored form. -/
theorem readsBack (fits : summary.count < Word.limit) :
    ReadsBack toJson ofJson? isReadable restored IsIntact summary :=
  .of_restored (ofJson?_toJson fits) (ofJson?_toJson fits) rfl (restored_restored summary)
    restored_eq_iff

end Summary

/-! ## Totals -/

namespace Totals

variable {totals : Totals}

/-- Totals whose sum and average are numbers of JSON. -/
def isReadable (totals : Totals) : Bool :=
  totals.sum.isFinite && totals.average.isFinite

/-- Totals without the bounds that are not finite. -/
def restored (totals : Totals) : Totals :=
  { totals with
    least := totals.least.filter Float.isFinite
    greatest := totals.greatest.filter Float.isFinite }

theorem filter_isFinite_eq_iff {bound? : Option Float} :
    bound?.filter Float.isFinite = bound? ↔ ∀ bound ∈ bound?, bound.isFinite = true := by
  cases bound? with
  | none => simp
  | some bound => simp [Option.filter_some]

/-- The bounds of totals that are there are finite. -/
structure IsIntact (totals : Totals) : Prop where
  least : ∀ bound ∈ totals.least, bound.isFinite = true
  greatest : ∀ bound ∈ totals.greatest, bound.isFinite = true

/-- The totals are restored to themselves exactly if they are intact. -/
theorem restored_eq_iff : totals.restored = totals ↔ totals.IsIntact := by
  have bounds : totals.restored = totals ↔
      totals.least.filter Float.isFinite = totals.least ∧
        totals.greatest.filter Float.isFinite = totals.greatest := by
    cases totals
    simp [restored]
  rw [bounds, filter_isFinite_eq_iff, filter_isFinite_eq_iff]
  exact ⟨fun ⟨least, greatest⟩ => ⟨least, greatest⟩,
    fun intact => ⟨intact.least, intact.greatest⟩⟩

theorem restored_restored (totals : Totals) : totals.restored.restored = totals.restored := by
  simp only [restored, Option.filter_filter, Bool.and_self]

/-- Totals come back exactly if they are readable. -/
theorem ofJson?_toJson
    (fits : totals.count < Word.limit)
    (batchesFit : totals.batchCount < Word.limit) :
    ofJson? totals.toJson = if totals.isReadable then some totals.restored else none := by
  have fields : totals.toJson.fields? ["count", "sum", "avg", "min", "max", "batch_count"] =
      some [some (ofNat totals.count), some (ofFloat totals.sum),
        some (ofFloat totals.average), some (ofOption ofFloat totals.least),
        some (ofOption ofFloat totals.greatest), some (ofNat totals.batchCount)] := rfl
  rw [ofJson?, fields]
  simp only [required?, optional?, Option.bind_eq_bind, Option.bind_some]
  rw [word?_ofNat fits, word?_ofNat batchesFit, number?_ofFloat, number?_ofFloat,
    nullable?_ofOption, nullable?_ofOption]
  unfold isReadable
  cases totals.sum.isFinite with
  | false => rfl
  | true => cases totals.average.isFinite <;> rfl

end Totals

/-! ## Metrics and durations -/

/-- The metrics of a stage read back if their counters fit. -/
theorem StageMetrics.ofJson?_toJson
    {metrics : StageMetrics}
    (fits : metrics.Fits)
    (averageFits : metrics.averageMicroseconds < Word.limit) :
    ofJson? metrics.toJson = some metrics := by
  have fields : metrics.toJson.fields? ["stage_name", "batches_processed", "records_in",
        "records_out", "total_processing_time_us", "avg_processing_time_us"] =
      some [some (.string metrics.stageName), some (ofNat metrics.batches),
        some (ofNat metrics.recordsIn), some (ofNat metrics.recordsOut),
        some (ofNat metrics.totalMicroseconds),
        some (ofNat metrics.averageMicroseconds)] := rfl
  rw [ofJson?, fields]
  simp only [required?, text?, Option.bind_eq_bind, Option.bind_some]
  rw [word?_ofNat fits.batches, word?_ofNat fits.recordsIn, word?_ofNat fits.recordsOut,
    word?_ofNat fits.totalMicroseconds, word?_ofNat averageFits]
  rfl

theorem Duration.ofJson?_toJson
    {duration : Duration}
    (fits : duration.seconds < Word.limit) :
    ofJson? duration.toJson = some duration := by
  have fields : duration.toJson.fields? fieldNames =
      some [some (ofNat duration.seconds), some (ofNat duration.subsecond)] := rfl
  have only : duration.toJson.hasOnly fieldNames = true := rfl
  have below : duration.subsecond < perSecond := Nat.mod_lt _ (by decide)
  have short : duration.subsecond < Nat.pow 2 32 := Nat.lt_trans below (by decide)
  have within : duration.subsecond < Word.limit := Nat.lt_trans below (by decide)
  rw [ofJson?, fields]
  simp only [required?, Option.bind_eq_bind, Option.bind_some]
  rw [word?_ofNat fits, word?_ofNat within]
  simp only [Option.bind_some, only, short, decide_true, Bool.and_self, if_true]
  rw [ofParts?, Nat.div_eq_of_lt below, Nat.add_zero, if_pos fits, ofParts_seconds_subsecond]

/-- The identity of a run reads back as it is. -/
theorem RunId.ofJson?_toJson (runId : RunId) : ofJson? runId.toJson = some runId := by
  simp only [ofJson?, toJson, text?, Option.bind_eq_bind, Option.bind_some,
    parse?_hyphenated]

/-! ## Reports -/

namespace Report

variable {report : Report}

/-- All natural numbers of a report fit words. -/
structure Fits (report : Report) : Prop where
  count : report.totals.count < Word.limit
  batchCount : report.totals.batchCount < Word.limit
  summaries : ∀ summary ∈ report.summaries, summary.count < Word.limit
  metrics : ∀ metrics ∈ report.metrics,
    metrics.Fits ∧ metrics.averageMicroseconds < Word.limit
  seconds : report.duration.seconds < Word.limit

instance (report : Report) : Decidable report.Fits :=
  decidable_of_iff
    (report.totals.count < Word.limit ∧ report.totals.batchCount < Word.limit ∧
      (∀ summary ∈ report.summaries, summary.count < Word.limit) ∧
      (∀ metrics ∈ report.metrics,
        metrics.Fits ∧ metrics.averageMicroseconds < Word.limit) ∧
      report.duration.seconds < Word.limit)
    ⟨fun ⟨count, batchCount, summaries, metrics, seconds⟩ =>
      ⟨count, batchCount, summaries, metrics, seconds⟩,
    fun fits => ⟨fits.count, fits.batchCount, fits.summaries, fits.metrics, fits.seconds⟩⟩

/-- A report of readable totals and summaries. -/
def isReadable (report : Report) : Bool :=
  report.totals.isReadable && report.summaries.all Summary.isReadable

/-- A report with its totals and summaries as they are read back. -/
def restored (report : Report) : Report :=
  { report with
    totals := report.totals.restored
    summaries := report.summaries.map Summary.restored }

/-- The totals and all summaries of a report are intact. -/
structure IsIntact (report : Report) : Prop where
  totals : report.totals.IsIntact
  summaries : ∀ summary ∈ report.summaries, summary.IsIntact

/-- A report is restored to itself exactly if it is intact. -/
theorem restored_eq_iff : report.restored = report ↔ report.IsIntact := by
  have parts : report.restored = report ↔
      report.totals.restored = report.totals ∧
        report.summaries.map Summary.restored = report.summaries := by
    cases report
    simp [restored]
  have summaries : report.summaries.map Summary.restored = report.summaries ↔
      ∀ summary ∈ report.summaries, summary.IsIntact := by
    calc
      _ ↔ report.summaries.map Summary.restored = report.summaries.map id := by rw [List.map_id]
      _ ↔ ∀ summary ∈ report.summaries, summary.restored = summary := List.map_inj_left
      _ ↔ _ := by simp only [Summary.restored_eq_iff]
  rw [parts, Totals.restored_eq_iff, summaries]
  exact ⟨fun ⟨totals, summaries⟩ => ⟨totals, summaries⟩,
    fun intact => ⟨intact.totals, intact.summaries⟩⟩

theorem restored_restored (report : Report) : report.restored.restored = report.restored := by
  simp only [restored, Totals.restored_restored, List.map_map, Function.comp_def,
    Summary.restored_restored]

theorem Fits.restored (fits : report.Fits) : report.restored.Fits where
  count := fits.count
  batchCount := fits.batchCount
  summaries := by
    intro summary present
    obtain ⟨written, among, rfl⟩ := List.mem_map.mp present
    exact fits.summaries written among
  metrics := fits.metrics
  seconds := fits.seconds

/-- A report comes back exactly if it is readable. -/
theorem ofJson?_toJson (fits : report.Fits) :
    ofJson? report.toJson = if report.isReadable then some report.restored else none := by
  have fields : report.toJson.fields? ["run_id", "global", "batches", "stage_metrics",
        "duration"] =
      some [some report.runId.toJson, some report.totals.toJson,
        some (.array (report.summaries.map Summary.toJson)),
        some (.array (report.metrics.map StageMetrics.toJson)),
        some report.duration.toJson] := rfl
  have summaries := mapM_map fun summary present =>
    Summary.ofJson?_toJson (fits.summaries summary present)
  have metrics : (report.metrics.map StageMetrics.toJson).mapM StageMetrics.ofJson? =
      some report.metrics := by
    have reads : (report.metrics.map StageMetrics.toJson).mapM StageMetrics.ofJson? =
        if report.metrics.all fun _ => true then some (report.metrics.map id) else none :=
      mapM_map fun metrics present =>
        StageMetrics.ofJson?_toJson (fits.metrics metrics present).1
          (fits.metrics metrics present).2
    rw [reads, List.map_id, if_pos (by simp)]
  rw [ofJson?, fields]
  simp only [required?, items?, Option.bind_eq_bind, Option.bind_some, RunId.ofJson?_toJson,
    Totals.ofJson?_toJson fits.count fits.batchCount, summaries, metrics,
    Duration.ofJson?_toJson fits.seconds]
  unfold isReadable
  cases report.totals.isReadable with
  | false => rfl
  | true => cases report.summaries.all Summary.isReadable <;> rfl

/-- A report whose counters fit reads back as its restored form. -/
theorem readsBack (fits : report.Fits) :
    ReadsBack toJson ofJson? isReadable restored IsIntact report := by
  refine .of_restored (ofJson?_toJson fits) (ofJson?_toJson fits.restored) ?_
    (restored_restored report) restored_eq_iff
  simp only [isReadable, restored, List.all_map]
  rfl

end Report

/-- Summaries and reports whose natural numbers fit words are read back exactly: if and only
if all sums and averages are finite, with the bounds over no values in the place of bounds
that are not finite, and without such bounds in the totals.  So those come back as they were
whose bounds are finite or stand for no values, and nothing changes the second time. -/
theorem reads_back_exactly :
    (∀ summary : Summary, summary.count < Word.limit →
      ReadsBack Summary.toJson Summary.ofJson? Summary.isReadable Summary.restored
        Summary.IsIntact summary) ∧
    ∀ report : Report, report.Fits →
      ReadsBack Report.toJson Report.ofJson? Report.isReadable Report.restored
        Report.IsIntact report :=
  ⟨fun _ fits => Summary.readsBack fits, fun _ fits => Report.readsBack fits⟩

/-- A summary whose least value is not a number, and whose greatest one is infinite. -/
def Summary.skewed : Summary :=
  ⟨1, 2, 2, Binary64.notANumber, Binary64.positiveInfinity⟩

/-- A report of that summary alone, under some totals. -/
def Report.skewed (totals : Totals) : Report :=
  ⟨default, totals, [Summary.skewed], [], ⟨5⟩⟩

/-- Bounds that are not finite are replaced, and a sum that is not finite cannot be read. -/
theorem reads_back_exactly_skewed :
    Summary.ofJson? Summary.skewed.toJson =
        some { Summary.empty with count := 1, sum := 2, average := 2 } ∧
      Report.ofJson? (Report.skewed ⟨1, 2, 2, some Binary64.notANumber, some 2, 1⟩).toJson =
        some ⟨default, ⟨1, 2, 2, none, some 2, 1⟩,
          [{ Summary.empty with count := 1, sum := 2, average := 2 }], [], ⟨5⟩⟩ ∧
      Report.ofJson? (Report.skewed
        ⟨1, Binary64.positiveInfinity, 2, none, none, 1⟩).toJson = none := by
  have small : 1 < Word.limit := by decide
  have fits : ∀ totals : Totals, totals.count = 1 → totals.batchCount = 1 →
      (Report.skewed totals).Fits := by
    intro totals count batchCount
    have seconds : Duration.seconds ⟨5⟩ < Word.limit := by decide
    refine ⟨count ▸ small, batchCount ▸ small, fun summary present => ?_, nofun, seconds⟩
    rw [List.mem_singleton.mp present]
    exact small
  obtain ⟨summaries, reports⟩ := reads_back_exactly
  refine ⟨(summaries _ small).restores (by decide +kernel), ?_, ?_⟩
  · exact (reports _ (fits _ rfl rfl)).restores (by decide +kernel)
  · exact (reports _ (fits _ rfl rfl)).fails_iff.mpr (by decide +kernel)

end StagePipeline
