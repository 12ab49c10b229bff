import StagePipeline.Proofs.Summary

/-!
# Totals of any values and of any summaries

Values that are summarised in groups come to the totals that a summary over all of them
tells, also if some of them are infinite or not numbers, since infinity loses against every
number and what is not a number against everything.  Of arbitrary summaries the totals see
the counts and, of those over some values, the bounds.  Neither the order of the summaries
nor those over no values have a part in them.
-/

namespace StagePipeline

open Binary64

namespace Tally

variable {tally : Tally}

/-- Counts that fit a word one after the other are those that fit it together.  The counts only
grow, so that one that does not fit shows in the last one. -/
theorem foldlM_pushChecked
    (fits : tally.count < Word.limit)
    (summaries : List Summary) :
    summaries.foldlM (fun tally summary => (pushChecked tally summary).toOption) tally =
      if (summaries.foldl push tally).count < Word.limit then some (summaries.foldl push tally)
      else none := by
  induction summaries generalizing tally with
  | nil => exact (if_pos fits).symm
  | cons summary rest inductionHypothesis =>
      rw [List.foldlM_cons, List.foldl_cons]
      by_cases next : tally.count + summary.count < Word.limit
      · have pushed : (tally.pushChecked summary).toOption = some (tally.push summary) := by
          rw [pushChecked, if_pos next]
          rfl
        rw [pushed]
        exact inductionHypothesis next
      · have stopped : (tally.pushChecked summary).toOption = none := by
          rw [pushChecked, if_neg next]
          rfl
        rw [stopped, if_neg]
        · rfl
        · rw [foldl_push_count, push_count]
          omega

end Tally

namespace Totals

/-- The count of the totals is the sum of all counts. -/
theorem combine_count (summaries : List Summary) :
    (combine summaries).count = (summaries.map Summary.count).sum :=
  Tally.ofList_count summaries

theorem combine_batchCount (summaries : List Summary) :
    (combine summaries).batchCount = summaries.length :=
  Tally.ofList_batchCount summaries

/-- There are totals if the count of all values fits a word. -/
theorem combineChecked?_eq (summaries : List Summary) :
    combineChecked? summaries =
      if (combine summaries).count < Word.limit then some (combine summaries) else none := by
  have empty : Tally.empty.count < Word.limit := by decide
  rw [combineChecked?, Tally.foldlM_pushChecked empty, Option.map_if]
  rfl

/-- Values that are summarised in groups come to the count and the bounds of the summary over
all of them, which is the same without the groups in which there is nothing.  A number among
the values does away with the infinities from which summaries start: the bounds are then the
least and the greatest of the numbers. -/
theorem combine_of_groups (groups : List (List Float)) :
    (combine (groups.map Summary.ofValues)).Agrees (Summary.ofValues groups.flatten) ∧
    (combine ((groups.filter fun group => !group.isEmpty).map Summary.ofValues)).Agrees
      (Summary.ofValues groups.flatten) ∧
    (combine (groups.map Summary.ofValues)).batchCount = groups.length ∧
    (groups.flatten.length < Word.limit →
      combineChecked? (groups.map Summary.ofValues) =
        some (combine (groups.map Summary.ofValues))) ∧
    ∀ value ∈ groups.flatten, value.isNaN = false →
      ∃ least greatest,
        (combine (groups.map Summary.ofValues)).least = some least ∧
        Leads (· ≤ ·) groups.flatten least ∧
        (combine (groups.map Summary.ofValues)).greatest = some greatest ∧
        Leads (· ≥ ·) groups.flatten greatest := by
  have agrees : (combine (groups.map Summary.ofValues)).Agrees
      (Summary.ofValues groups.flatten) := Tally.ofList_agrees groups
  refine ⟨agrees, ?_, ?_, fun few => ?_, fun value present number => ?_⟩
  · rw [← List.flatten_filter_not_isEmpty]
    exact Tally.ofList_agrees _
  · rw [combine_batchCount, List.length_map]
  · rw [combineChecked?_eq, agrees.count, Summary.ofValues_count, if_pos few]
  · have some : (Summary.ofValues groups.flatten).count ≠ 0 := by
      rw [Summary.ofValues_count]
      exact Nat.ne_of_gt (List.length_pos_of_mem present)
    refine ⟨_, _, ?_, Summary.leads_least present number, ?_,
      Summary.leads_greatest present number⟩
    · rw [agrees.least, if_neg some]
    · rw [agrees.greatest, if_neg some]

/-- A group around which there are others with nothing in them, or nothing that is a number. -/
def gaps : List (List Float) :=
  [[], [notANumber], [3, notANumber, positiveInfinity], []]

/-- The other groups do not show in the bounds. -/
theorem combine_of_groups_gaps :
    (3 : Float) ∈ gaps.flatten ∧ (3 : Float).isNaN = false ∧
    gaps.flatten.length < Word.limit ∧
    (combineChecked? (gaps.map Summary.ofValues)).map Totals.least = some (some 3) ∧
    Leads (· ≤ ·) gaps.flatten 3 := by
  have present : (3 : Float) ∈ gaps.flatten := by simp [gaps]
  have number : (3 : Float).isNaN = false := by decide +kernel
  have few : gaps.flatten.length < Word.limit := by decide
  obtain ⟨agrees, -, -, counted, bounded⟩ := combine_of_groups gaps
  obtain ⟨least, -, bound, leads, -⟩ := bounded 3 present number
  have three : (combine (gaps.map Summary.ofValues)).least = some 3 := by
    rw [agrees.least]
    decide +kernel
  obtain rfl : least = 3 := Option.some.inj (bound.symm.trans three)
  refine ⟨present, number, few, ?_, leads⟩
  rw [counted few, Option.map_some, three]

end Totals

/-! ## Summaries in any order, with any others over no values -/

namespace Summary

/-- The bounds on one side of those summaries that are over some values. -/
def boundsOf (bound : Summary → Float) (summaries : List Summary) : List Float :=
  (summaries.filter fun summary => !summary.isEmpty).map bound

/-- Some summaries, and what they become if that many others over no values, with any
bounds, are put anywhere among them. -/
inductive Padded : List Summary → Nat → List Summary → Prop where
  | nil : Padded [] 0 []
  | keep {summaries padded : List Summary} {inserted : Nat} (summary : Summary) :
      Padded summaries inserted padded →
      Padded (summary :: summaries) inserted (summary :: padded)
  | insert {summaries padded : List Summary} {inserted : Nat} {summary : Summary} :
      summary.count = 0 → Padded summaries inserted padded →
      Padded summaries (inserted + 1) (summary :: padded)

variable
  {summaries padded : List Summary}
  {inserted : Nat}

theorem isEmpty_iff {summary : Summary} : summary.isEmpty = true ↔ summary.count = 0 :=
  beq_iff_eq

theorem mem_boundsOf {bound : Summary → Float} {value : Float} :
    value ∈ boundsOf bound summaries ↔
      ∃ summary ∈ summaries, summary.count ≠ 0 ∧ bound summary = value := by
  simp [boundsOf, ← isEmpty_iff, and_assoc]

/-- There is no bound to gather exactly if all summaries are empty. -/
theorem boundsOf_eq_nil_iff {bound : Summary → Float} :
    boundsOf bound summaries = [] ↔ ∀ summary ∈ summaries, summary.count = 0 := by
  simp [boundsOf, isEmpty_iff]

/-- Inserted summaries have no bounds. -/
theorem Padded.boundsOf_eq
    (padding : Padded summaries inserted padded)
    (bound : Summary → Float) :
    boundsOf bound padded = boundsOf bound summaries := by
  induction padding with
  | nil => rfl
  | keep summary _ inductionHypothesis =>
      unfold boundsOf at inductionHypothesis ⊢
      rw [List.filter_cons, List.filter_cons]
      split
      · rw [List.map_cons, List.map_cons, inductionHypothesis]
      · exact inductionHypothesis
  | insert nothing _ inductionHypothesis =>
      rw [boundsOf, List.filter_cons, isEmpty_iff.mpr nothing]
      exact inductionHypothesis

/-- Empty summaries add nothing to the counts. -/
theorem Padded.sum_eq (padding : Padded summaries inserted padded) :
    (padded.map count).sum = (summaries.map count).sum := by
  induction padding with
  | nil => rfl
  | keep summary _ inductionHypothesis =>
      rw [List.map_cons, List.map_cons, List.sum_cons, List.sum_cons, inductionHypothesis]
  | insert nothing _ inductionHypothesis =>
      rw [List.map_cons, List.sum_cons, nothing, Nat.zero_add, inductionHypothesis]

/-- Every summary that is put in counts as a batch. -/
theorem Padded.length_eq (padding : Padded summaries inserted padded) :
    padded.length = summaries.length + inserted := by
  induction padding with
  | nil => rfl
  | keep summary _ inductionHypothesis =>
      rw [List.length_cons, List.length_cons, inductionHypothesis, Nat.add_right_comm]
  | insert _ _ inductionHypothesis =>
      rw [List.length_cons, inductionHypothesis, Nat.add_assoc]

end Summary

/-- The same bound over values in another order; or zeros of different signs, if both are
among the values, between which the order decides. -/
inductive SameBound (values : List Float) : Option Float → Option Float → Prop where
  | same (bound? : Option Float) : SameBound values bound? bound?
  | zeros {left right : Float} :
      OppositeZeros left right → left ∈ values → right ∈ values →
      SameBound values (some left) (some right)

/-- What leads some values leads them in any order, but for the sign of zero. -/
theorem SameBound.of_leads
    {before : Float → Float → Prop}
    {choose : Float → Float → Float}
    {values others : List Float}
    {value other : Float}
    (picks : Picks before choose)
    (perm : others.Perm values)
    (leads : Leads before values value)
    (otherLeads : Leads before others other) :
    SameBound values (some other) (some value) := by
  rcases otherLeads.eq_or_oppositeZeros picks leads fun _ => perm.mem_iff with rfl | opposite
  · exact .same _
  · exact .zeros opposite (perm.mem_iff.mp otherLeads.among) leads.among

namespace Tally

section Foremost

variable
  {before : Float → Float → Prop}
  {choose : Float → Float → Float}
  {values others : List Float}

/-- There is no foremost value exactly if there are no values. -/
theorem foremost_eq_none_iff : foremost choose values = none ↔ values = [] := by
  cases values with
  | nil => simp [foremost]
  | cons => simp [foremost]

/-- The foremost value leads all of them. -/
theorem foremost_leads
    {value : Float}
    (picks : Picks before choose)
    (chosen : foremost choose values = some value) :
    Leads before values value := by
  cases values with
  | nil => cases chosen
  | cons first rest =>
      cases chosen
      exact (Leads.singleton picks first).foldl picks

/-- Among numbers the foremost one is the first. -/
theorem foremost_isBound
    (picks : Picks before choose)
    (numbers : ∀ value ∈ values, value.isNaN = false) :
    IsBound before values (foremost choose values) := by
  cases chosen : foremost choose values with
  | none => exact foremost_eq_none_iff.mp chosen
  | some value => exact (foremost_leads picks chosen).first numbers

/-- In another order the same value is foremost, but for the sign of zero. -/
theorem foremost_perm
    (picks : Picks before choose)
    (perm : others.Perm values) :
    SameBound values (foremost choose others) (foremost choose values) := by
  cases chosen : foremost choose values with
  | none =>
      rw [foremost_eq_none_iff] at chosen
      rw [chosen, List.perm_nil] at perm
      rw [perm]
      exact .same none
  | some value =>
      cases otherChosen : foremost choose others with
      | none =>
          rw [foremost_eq_none_iff] at otherChosen
          rw [otherChosen, List.nil_perm] at perm
          rw [perm] at chosen
          cases chosen
      | some other =>
          exact .of_leads picks perm (foremost_leads picks chosen)
            (foremost_leads picks otherChosen)

end Foremost

/-- The bounds of a tally are chosen among these values. -/
structure Gathers (tally : Tally) (lows highs : List Float) : Prop where
  least : tally.least = foremost lesser lows
  greatest : tally.greatest = foremost greater highs

variable
  {tally : Tally}
  {lows highs : List Float}

/-- What one push gathers, a row of pushes gathers. -/
theorem Gathers.foldl
    (gathers : tally.Gathers lows highs)
    (summaries : List Summary) :
    (summaries.foldl push tally).Gathers (lows ++ Summary.boundsOf Summary.least summaries)
      (highs ++ Summary.boundsOf Summary.greatest summaries) := by
  induction summaries generalizing tally lows highs with
  | nil =>
      simp only [Summary.boundsOf, List.filter_nil, List.map_nil,
        List.append_nil, List.foldl_nil]
      exact gathers
  | cons summary rest inductionHypothesis =>
      rw [List.foldl_cons, Summary.boundsOf, Summary.boundsOf, List.filter_cons]
      cases nothing : summary.isEmpty with
      | true =>
          obtain ⟨sameLeast, sameGreatest⟩ := tally.push_bounds_of_isEmpty nothing
          exact inductionHypothesis
            ⟨sameLeast.trans gathers.least, sameGreatest.trans gathers.greatest⟩
      | false =>
          obtain ⟨newLeast, newGreatest⟩ := tally.push_bounds nothing
          have next : (tally.push summary).Gathers (lows ++ [summary.least])
              (highs ++ [summary.greatest]) := by
            constructor
            · rw [newLeast, gathers.least]
              exact mergeBound_foremost lesser lows [] summary.least
            · rw [newGreatest, gathers.greatest]
              exact mergeBound_foremost greater highs [] summary.greatest
          have later := inductionHypothesis next
          rw [List.append_assoc, List.append_assoc] at later
          exact later

theorem ofList_gathers (summaries : List Summary) :
    (ofList summaries).Gathers (Summary.boundsOf Summary.least summaries)
      (Summary.boundsOf Summary.greatest summaries) := by
  have start : empty.Gathers [] [] := ⟨rfl, rfl⟩
  exact start.foldl summaries

end Tally

namespace Totals

/-- The least bound of the totals is the lesser of those of all summaries with values. -/
theorem combine_least (summaries : List Summary) :
    (combine summaries).least =
      Tally.foremost lesser (Summary.boundsOf Summary.least summaries) :=
  (Tally.ofList_gathers summaries).least

/-- The greatest bound of the totals is the greater of those of all summaries with values. -/
theorem combine_greatest (summaries : List Summary) :
    (combine summaries).greatest =
      Tally.foremost greater (Summary.boundsOf Summary.greatest summaries) :=
  (Tally.ofList_gathers summaries).greatest

/-- Of arbitrary summaries the totals hold the counts and the bounds of those over some
values, in whatever order they come and whatever others over no values are among them. -/
theorem combine_order_immaterial (summaries : List Summary) :
    (combineChecked? summaries =
      if (combine summaries).count < Word.limit then some (combine summaries) else none) ∧
    (∀ others, others.Perm summaries →
      (combine others).count = (combine summaries).count ∧
      (combine others).batchCount = (combine summaries).batchCount ∧
      SameBound (Summary.boundsOf Summary.least summaries)
        (combine others).least (combine summaries).least ∧
      SameBound (Summary.boundsOf Summary.greatest summaries)
        (combine others).greatest (combine summaries).greatest) ∧
    (∀ inserted padded, Summary.Padded summaries inserted padded →
      (combine padded).count = (combine summaries).count ∧
      (combine padded).least = (combine summaries).least ∧
      (combine padded).greatest = (combine summaries).greatest ∧
      (combine padded).batchCount = (combine summaries).batchCount + inserted) ∧
    ((combine summaries).least = none ↔ ∀ summary ∈ summaries, summary.count = 0) ∧
    ((combine summaries).greatest = none ↔ ∀ summary ∈ summaries, summary.count = 0) ∧
    ((∀ summary ∈ summaries, summary.count ≠ 0 → summary.least.isNaN = false) →
      IsBound (· ≤ ·) (Summary.boundsOf Summary.least summaries)
        (combine summaries).least) ∧
    ((∀ summary ∈ summaries, summary.count ≠ 0 → summary.greatest.isNaN = false) →
      IsBound (· ≥ ·) (Summary.boundsOf Summary.greatest summaries)
        (combine summaries).greatest) := by
  refine ⟨combineChecked?_eq summaries, fun others perm => ⟨?_, ?_, ?_, ?_⟩,
    fun inserted padded padding => ⟨?_, ?_, ?_, ?_⟩, ?_, ?_, fun numbers => ?_,
    fun numbers => ?_⟩
  · rw [combine_count, combine_count]
    exact (perm.map Summary.count).sum_eq
  · rw [combine_batchCount, combine_batchCount]
    exact perm.length_eq
  · rw [combine_least, combine_least]
    exact Tally.foremost_perm lesser_picks ((perm.filter _).map Summary.least)
  · rw [combine_greatest, combine_greatest]
    exact Tally.foremost_perm greater_picks ((perm.filter _).map Summary.greatest)
  · rw [combine_count, combine_count, padding.sum_eq]
  · rw [combine_least, combine_least, padding.boundsOf_eq]
  · rw [combine_greatest, combine_greatest, padding.boundsOf_eq]
  · rw [combine_batchCount, combine_batchCount, padding.length_eq]
  · rw [combine_least, Tally.foremost_eq_none_iff, Summary.boundsOf_eq_nil_iff]
  · rw [combine_greatest, Tally.foremost_eq_none_iff, Summary.boundsOf_eq_nil_iff]
  · rw [combine_least]
    apply Tally.foremost_isBound lesser_picks
    intro value present
    obtain ⟨summary, among, something, rfl⟩ := Summary.mem_boundsOf.mp present
    exact numbers summary among something
  · rw [combine_greatest]
    apply Tally.foremost_isBound greater_picks
    intro value present
    obtain ⟨summary, among, something, rfl⟩ := Summary.mem_boundsOf.mp present
    exact numbers summary among something

/-- Two summaries over some values around one over none. -/
def crowd : List Summary :=
  [⟨2, 60, 30, 20, 40⟩, ⟨0, 0, 0, notANumber, 99⟩, ⟨1, 5, 5, 5, 5⟩]

/-- They can be reversed, and another one over no values can be put in front of them. -/
theorem combine_order_immaterial_crowd :
    crowd.reverse.Perm crowd ∧
    SameBound [20, 5] (combine crowd.reverse).least (combine crowd).least ∧
    Summary.Padded crowd 1 (⟨0, 7, 7, -1, notANumber⟩ :: crowd) ∧
    (combine (⟨0, 7, 7, -1, notANumber⟩ :: crowd)).least = (combine crowd).least ∧
    (∀ summary ∈ crowd, summary.count ≠ 0 → summary.least.isNaN = false) ∧
    IsBound (· ≤ ·) [20, 5] (combine crowd).least ∧
    (∀ summary ∈ crowd, summary.count ≠ 0 → summary.greatest.isNaN = false) ∧
    IsBound (· ≥ ·) [40, 5] (combine crowd).greatest := by
  have perm : crowd.reverse.Perm crowd := List.reverse_perm crowd
  have padding : Summary.Padded crowd 1 (⟨0, 7, 7, -1, notANumber⟩ :: crowd) :=
    .insert rfl (.keep _ (.keep _ (.keep _ .nil)))
  have lows : ∀ summary ∈ crowd, summary.count ≠ 0 → summary.least.isNaN = false := by
    decide +kernel
  have highs : ∀ summary ∈ crowd, summary.count ≠ 0 → summary.greatest.isNaN = false := by
    decide +kernel
  obtain ⟨-, reordered, inserted, -, -, least, greatest⟩ := combine_order_immaterial crowd
  exact ⟨perm, (reordered _ perm).2.2.1, padding, (inserted _ _ padding).2.1, lows, least lows,
    highs, greatest highs⟩

end Totals
end StagePipeline
