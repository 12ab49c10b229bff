import StagePipeline.Proofs.Coordinator
import StagePipeline.Proofs.Stage

/-!
# Lists of stages that are accepted

A list of stages is accepted if it is not empty, if every stage has a name of its own, and
if no built-in stage that always summarises stands before the last place.  A list that is
not accepted is reported by the first rule that it breaks: first that it is empty, then the
first place whose name is missing or has been used before, and only where all names are
fine the first stage that summarises too early.
-/

namespace StagePipeline

theorem StageKind.isTerminal_iff {kind : StageKind} :
    kind.isTerminal = true ↔ kind = .aggregate := by
  cases kind <;> simp [isTerminal]

namespace Stage

/-! ## The rules -/

/-- Stages that all have names, each its own. -/
structure AreNamed (stages : List Stage) : Prop where
  named : ∀ stage ∈ stages, stage.name ≠ ""
  distinct : stages.Pairwise fun earlier later => earlier.name ≠ later.name

/-- A list of stages that a coordinator accepts. -/
structure IsAcceptable (stages : List Stage) : Prop where
  nonempty : stages ≠ []
  named : AreNamed stages
  ordered : ∀ stage ∈ stages.dropLast, stage.kind ≠ .aggregate

/-- The fault of the first rule that a list of stages breaks. -/
inductive Breaks : List Stage → Fault → Prop where
  | empty : Breaks [] (.configuration "stages" "pipeline requires at least one stage")
  | unnamed {before after : List Stage} {stage : Stage} :
      AreNamed before → stage.name = "" →
      Breaks (before ++ stage :: after)
        (.configuration "stages" "stage name must not be empty")
  | repeated {before after : List Stage} {stage : Stage} :
      AreNamed before → stage.name ≠ "" → stage.name ∈ before.map name →
      Breaks (before ++ stage :: after)
        (.configuration "stages" ("duplicate stage name '" ++ stage.name ++ "'"))
  | misplaced {before after : List Stage} {stage : Stage} :
      AreNamed (before ++ stage :: after) → after ≠ [] → stage.kind = .aggregate →
      (∀ earlier ∈ before, earlier.kind ≠ .aggregate) →
      Breaks (before ++ stage :: after)
        (.configuration "stages" ("aggregate stage '" ++ stage.name ++
          "' must be the last stage (found at position " ++ toString before.length ++ ")"))

variable
  {stages before after : List Stage}
  {stage : Stage}
  {used : List String}

/-! ## Names -/

/-- The search for a fault passes over stages that have new names of their own. -/
theorem nameFault?_append
    (named : AreNamed before)
    (fresh : ∀ stage ∈ before, stage.name ∉ used)
    (after : List Stage) :
    nameFault? used (before ++ after) = nameFault? ((before.map name).reverse ++ used) after := by
  induction before generalizing used with
  | nil => rfl
  | cons stage rest inductionHypothesis =>
      obtain ⟨present, others⟩ := List.forall_mem_cons.mp named.named
      obtain ⟨differs, distinct⟩ := List.pairwise_cons.mp named.distinct
      obtain ⟨unused, othersUnused⟩ := List.forall_mem_cons.mp fresh
      have later : ∀ other ∈ rest, other.name ∉ stage.name :: used := fun other among =>
        List.not_mem_cons_of_ne_of_not_mem (differs other among).symm (othersUnused other among)
      rw [List.cons_append, nameFault?, if_neg present, if_neg unused,
        inductionHypothesis ⟨others, distinct⟩ later, List.map_cons, List.reverse_cons,
        List.append_assoc]
      rfl

/-- Stages with names of their own pass the check of the names. -/
theorem nameFault?_of_named (named : AreNamed stages) : nameFault? [] stages = none := by
  have passed := nameFault?_append named (fun _ _ => List.not_mem_nil) []
  rw [List.append_nil] at passed
  rw [passed, nameFault?]

/-- The first stage without a name is told. -/
theorem nameFault?_of_unnamed
    (named : AreNamed before)
    (nameless : stage.name = "")
    (after : List Stage) :
    nameFault? [] (before ++ stage :: after) = some (listFault "stage name must not be empty") := by
  rw [nameFault?_append named (fun _ _ => List.not_mem_nil), nameFault?, if_pos nameless]

/-- The first stage with the name of an earlier one is told. -/
theorem nameFault?_of_repeated
    (named : AreNamed before)
    (present : stage.name ≠ "")
    (again : stage.name ∈ before.map name)
    (after : List Stage) :
    nameFault? [] (before ++ stage :: after) =
      some (listFault ("duplicate stage name '" ++ stage.name ++ "'")) := by
  rw [nameFault?_append named (fun _ _ => List.not_mem_nil), nameFault?, if_neg present, if_pos]
  rwa [List.append_nil, List.mem_reverse]

/-- Either all stages have names of their own, or there is a first one that has not. -/
theorem named_or_first (stages : List Stage) :
    AreNamed stages ∨
      ∃ before stage after, stages = before ++ stage :: after ∧ AreNamed before ∧
        (stage.name = "" ∨ stage.name ∈ before.map name) := by
  induction stages using List.reverseRecOn with
  | nil => exact Or.inl ⟨List.forall_mem_nil _, List.Pairwise.nil⟩
  | append_singleton front last inductionHypothesis =>
      rcases inductionHypothesis with
        named | ⟨before, stage, after, rfl, named, culprit⟩
      · by_cases culprit : last.name = "" ∨ last.name ∈ front.map name
        · exact Or.inr ⟨front, last, [], rfl, named, culprit⟩
        · obtain ⟨present, unused⟩ := not_or.mp culprit
          refine Or.inl ⟨?_, List.pairwise_append.mpr ⟨named.distinct,
            List.pairwise_singleton _ _, ?_⟩⟩
          · simpa [or_imp, forall_and, present] using named.named
          · intro earlier among other there same
            rw [List.mem_singleton.mp there] at same
            exact unused (List.mem_map.mpr ⟨earlier, among, same⟩)
      · exact Or.inr ⟨before, stage, after ++ [last], by rw [List.append_assoc]; rfl, named,
          culprit⟩

/-! ## Order -/

/-- The search for a fault passes over stages that need not summarise. -/
theorem orderFault?_append
    (position : Nat)
    (inner : ∀ stage ∈ before, stage.kind ≠ .aggregate)
    (something : after ≠ []) :
    orderFault? position (before ++ after) = orderFault? (position + before.length) after := by
  induction before generalizing position with
  | nil => rfl
  | cons stage rest inductionHypothesis =>
      obtain ⟨passes, others⟩ := List.forall_mem_cons.mp inner
      obtain ⟨next, more, split⟩ := List.exists_cons_of_ne_nil
        (List.append_ne_nil_of_right_ne_nil rest something)
      rw [List.cons_append, split, orderFault?, if_neg (mt StageKind.isTerminal_iff.mp passes),
        ← split, inductionHypothesis (position + 1) others, List.length_cons, Nat.add_assoc,
        Nat.add_comm 1]

/-- Stages whose terminal one is the last pass the check of the order. -/
theorem orderFault?_of_ordered
    (nonempty : stages ≠ [])
    (ordered : ∀ stage ∈ stages.dropLast, stage.kind ≠ .aggregate) :
    orderFault? 0 stages = none := by
  rw [← List.dropLast_append_getLast nonempty,
    orderFault?_append 0 ordered (List.cons_ne_nil _ _), orderFault?]

/-- The first terminal stage that is not the last is told with its place. -/
theorem orderFault?_of_misplaced
    (inner : ∀ earlier ∈ before, earlier.kind ≠ .aggregate)
    (terminal : stage.kind = .aggregate)
    (something : after ≠ []) :
    orderFault? 0 (before ++ stage :: after) =
      some (listFault ("aggregate stage '" ++ stage.name ++
        "' must be the last stage (found at position " ++ toString before.length ++ ")")) := by
  obtain ⟨next, rest, rfl⟩ := List.exists_cons_of_ne_nil something
  rw [orderFault?_append 0 inner (List.cons_ne_nil _ _), orderFault?,
    if_pos (StageKind.isTerminal_iff.mpr terminal), Nat.zero_add]

/-! ## Acceptance -/

/-- An acceptable list is accepted. -/
theorem validateList_of_isAcceptable (acceptable : IsAcceptable stages) :
    validateList stages = .ok () := by
  obtain ⟨nonempty, named, ordered⟩ := acceptable
  rw [validateList, List.isEmpty_eq_false_iff.mpr nonempty, nameFault?_of_named named,
    orderFault?_of_ordered nonempty ordered]
  rfl

/-- A list that breaks a rule is refused for it. -/
theorem validateList_of_breaks {fault : Fault} (breaks : Breaks stages fault) :
    validateList stages = .error fault := by
  cases breaks with
  | empty => rfl
  | unnamed named nameless =>
      rw [validateList, List.isEmpty_eq_false_iff.mpr (by simp),
        nameFault?_of_unnamed named nameless]
      rfl
  | repeated named present again =>
      rw [validateList, List.isEmpty_eq_false_iff.mpr (by simp),
        nameFault?_of_repeated named present again]
      rfl
  | misplaced named something terminal inner =>
      rw [validateList, List.isEmpty_eq_false_iff.mpr (by simp), nameFault?_of_named named,
        orderFault?_of_misplaced inner terminal something]
      rfl

/-- A list that is not acceptable has a first rule that it breaks. -/
theorem isAcceptable_or_breaks (stages : List Stage) :
    IsAcceptable stages ∨ ∃ fault, Breaks stages fault := by
  by_cases nonempty : stages = []
  · subst nonempty
    exact Or.inr ⟨_, .empty⟩
  · rcases named_or_first stages with
      named | ⟨before, stage, after, rfl, named, culprit⟩
    · rcases forall_or_first (fun stage => stage.kind ≠ .aggregate) stages.dropLast with
        ordered | ⟨before, stage, after, split, inner, terminal⟩
      · exact Or.inl ⟨nonempty, named, ordered⟩
      · rw [ne_eq, not_not] at terminal
        have whole := List.dropLast_append_getLast nonempty
        rw [split, List.append_assoc, List.cons_append] at whole
        rw [← whole] at named ⊢
        exact Or.inr ⟨_, .misplaced named (by simp) terminal inner⟩
    · by_cases nameless : stage.name = ""
      · exact Or.inr ⟨_, .unnamed named nameless⟩
      · exact Or.inr ⟨_, .repeated named nameless (culprit.resolve_left nameless)⟩

/-- The acceptable lists are those that are accepted. -/
theorem validateList_eq_ok_iff : validateList stages = .ok () ↔ IsAcceptable stages := by
  refine ⟨fun accepted => ?_, validateList_of_isAcceptable⟩
  rcases isAcceptable_or_breaks stages with acceptable | ⟨fault, breaks⟩
  · exact acceptable
  · rw [validateList_of_breaks breaks] at accepted
    cases accepted

/-- The faults are those of the rules that are broken. -/
theorem validateList_eq_error_iff {fault : Fault} :
    validateList stages = .error fault ↔ Breaks stages fault := by
  refine ⟨fun refused => ?_, validateList_of_breaks⟩
  rcases isAcceptable_or_breaks stages with acceptable | ⟨other, breaks⟩
  · rw [validateList_of_isAcceptable acceptable] at refused
    cases refused
  · rw [validateList_of_breaks breaks] at refused
    cases refused
    exact breaks

end Stage

namespace Coordinator

variable {settings : Settings}

/-- Under settings in range, creation depends on the list of stages alone. -/
theorem create_of_inRange
    (inRange : settings.InRange)
    (stages : List Stage)
    (runId : RunId) :
    create stages settings runId =
      (Stage.validateList stages).map fun _ => ⟨settings, stages, .idle, runId⟩ := by
  rw [create, Settings.validate_eq_ok_iff.mpr inRange]
  cases Stage.validateList stages <;> rfl

/-- Under settings in range, a coordinator is created exactly if the list of stages is
acceptable, and is idle then.  Otherwise the fault is that of the first rule which the list
breaks. -/
theorem create_exact (inRange : settings.InRange) (stages : List Stage) (runId : RunId) :
    ((∃ coordinator, create stages settings runId = .ok coordinator) ↔
      Stage.IsAcceptable stages) ∧
    (∀ coordinator, create stages settings runId = .ok coordinator →
      coordinator = ⟨settings, stages, .idle, runId⟩) ∧
    ∀ fault, create stages settings runId = .error fault ↔ Stage.Breaks stages fault := by
  rw [create_of_inRange inRange]
  simp only [← Stage.validateList_eq_ok_iff, ← Stage.validateList_eq_error_iff]
  cases Stage.validateList stages with
  | ok accepted => simp [Except.map]
  | error fault => simp [Except.map]

/-- A list that breaks all rules at once: a name comes twice behind an aggregate stage, and
one is missing behind that. -/
def unruly : List Stage :=
  [⟨"a", .aggregate⟩, ⟨"b", .parse⟩, ⟨"b", .filter⟩, ⟨"", .aggregate⟩]

/-- The name that comes twice is the first place at which something is wrong with names. -/
theorem create_exact_unruly :
    Settings.standard.InRange ∧
    create unruly Settings.standard default =
      .error (.configuration "stages" "duplicate stage name 'b'") := by
  have inRange : Settings.standard.InRange := Settings.inRange_of_validate rfl
  have named : Stage.AreNamed [⟨"a", .aggregate⟩, ⟨"b", .parse⟩] := ⟨by simp, by simp⟩
  have again : (⟨"b", .filter⟩ : Stage).name ∈
      [(⟨"a", .aggregate⟩ : Stage), ⟨"b", .parse⟩].map Stage.name := by simp
  exact ⟨inRange, ((create_exact inRange unruly default).2.2 _).mpr
    (.repeated named (by simp) again)⟩

end Coordinator
end StagePipeline
