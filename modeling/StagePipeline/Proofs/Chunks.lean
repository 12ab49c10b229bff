import StagePipeline.Proofs.Stage

/-!
# Batches cut from a row of texts

Laid end to end, the batches into which a row of texts is cut are its records, whatever
their size.  All batches but the last one are full, so that the identifier of a record
tells the index of its batch.
-/

namespace StagePipeline

/-- Every one of some texts is a number. -/
def Legible (texts : List String) : Prop :=
  ∀ text ∈ texts, ∃ value, parseValue text = .ok value

namespace Batch

/-! ## Raw records -/

theorem rawRecords_append (firstId : Nat) (front back : List String) :
    rawRecords firstId (front ++ back) =
      rawRecords firstId front ++ rawRecords (firstId + front.length) back := by
  induction front generalizing firstId with
  | nil => rfl
  | cons text rest inductionHypothesis =>
      have shifted : firstId + 1 + rest.length = firstId + (rest.length + 1) := by omega
      simp [inductionHypothesis, shifted]

theorem mem_rawRecords
    {firstId : Nat}
    {texts : List String}
    {record : Record}
    (present : record ∈ rawRecords firstId texts) :
    ∃ id text, record = .raw id text ∧ text ∈ texts := by
  induction texts generalizing firstId with
  | nil => cases present
  | cons first rest inductionHypothesis =>
      rcases List.mem_cons.mp present with rfl | present
      · exact ⟨_, _, rfl, List.mem_cons_self⟩
      · obtain ⟨id, text, rfl, among⟩ := inductionHypothesis present
        exact ⟨id, text, rfl, List.mem_cons_of_mem _ among⟩

/-- A record among raw ones comes from a text, and bears its position. -/
theorem rawRecords_split
    {firstId id : Nat}
    {texts : List String}
    {text : String}
    {front back : List Record}
    (split : rawRecords firstId texts = front ++ .raw id text :: back) :
    ∃ before after, texts = before ++ text :: after ∧ front = rawRecords firstId before ∧
      id = firstId + before.length := by
  induction texts generalizing firstId front with
  | nil => simp at split
  | cons first rest inductionHypothesis =>
      cases front with
      | nil =>
          cases split
          exact ⟨[], rest, rfl, rfl, rfl⟩
      | cons record others =>
          obtain ⟨rfl, later⟩ := List.cons.inj split
          obtain ⟨before, after, rfl, rfl, rfl⟩ := inductionHypothesis later
          refine ⟨first :: before, after, rfl, rfl, ?_⟩
          rw [List.length_cons]
          omega

theorem legible_of_readable
    {firstId : Nat}
    {texts : List String}
    (readable : Readable (rawRecords firstId texts)) :
    Legible texts := by
  induction texts generalizing firstId with
  | nil => exact fun text present => by cases present
  | cons first rest inductionHypothesis =>
      refine List.forall_mem_cons.mpr ⟨readable firstId first List.mem_cons_self, ?_⟩
      exact inductionHypothesis fun id text present =>
        readable id text (List.mem_cons_of_mem _ present)

/-! ## Chunks -/

variable {spare index firstId : Nat} {texts : List String}

/-- Identifiers count on behind a full chunk, and otherwise there is nothing left to count. -/
theorem rawRecords_take_append_drop (spare firstId : Nat) (texts : List String) :
    rawRecords firstId (texts.take spare) ++ rawRecords (firstId + spare) (texts.drop spare) =
      rawRecords firstId texts := by
  rcases Nat.le_total spare texts.length with enough | short
  · have full : (texts.take spare).length = spare := List.length_take_of_le enough
    nth_rewrite 2 [← full]
    rw [← rawRecords_append, List.take_append_drop]
  · rw [List.take_of_length_le short, List.drop_of_length_le short, rawRecords_nil,
      List.append_nil]

/-- Laid end to end, the chunks are all records in order. -/
theorem chunksFrom_records (spare index firstId : Nat) (texts : List String) :
    (chunksFrom spare index firstId texts).flatMap Batch.records =
      rawRecords firstId texts := by
  fun_induction chunksFrom spare index firstId texts with
  | case1 => rfl
  | case2 index firstId text rest inductionHypothesis =>
      rw [List.flatMap_cons, inductionHypothesis]
      exact rawRecords_take_append_drop (spare + 1) firstId (text :: rest)

theorem chunksFrom_length (spare index firstId : Nat) (texts : List String) :
    (chunksFrom spare index firstId texts).length =
      (texts.length + spare) / (spare + 1) := by
  fun_induction chunksFrom spare index firstId texts with
  | case1 =>
      rw [List.length_nil, List.length_nil, Nat.zero_add,
        Nat.div_eq_of_lt (Nat.lt_succ_self spare)]
  | case2 index firstId text rest inductionHypothesis =>
      rw [List.length_cons, inductionHypothesis, List.length_drop, List.length_cons,
        Nat.add_right_comm, Nat.add_assoc, Nat.add_div_right _ (Nat.succ_pos spare)]
      congr 1
      rcases Nat.le_total spare rest.length with enough | short
      · rw [Nat.sub_add_cancel enough]
      · rw [Nat.sub_eq_zero_of_le short, Nat.zero_add,
          Nat.div_eq_of_lt (Nat.lt_succ_self spare), Nat.div_eq_of_lt (Nat.lt_succ_of_le short)]

/-- All chunks in front of another one are full. -/
theorem chunksFrom_place
    {front back : List Batch}
    {batch : Batch}
    (split : chunksFrom spare index firstId texts = front ++ batch :: back) :
    batch.index = index + front.length ∧
      (front.flatMap Batch.records).length = front.length * (spare + 1) ∧
      batch.records.length ≤ spare + 1 := by
  fun_induction chunksFrom spare index firstId texts generalizing front with
  | case1 => simp at split
  | case2 index firstId text rest inductionHypothesis =>
      cases front with
      | nil =>
          obtain ⟨rfl, -⟩ := List.cons.inj split
          refine ⟨rfl, by simp, ?_⟩
          have few := List.length_take_le spare rest
          rw [ofRaw, rawRecords_length, List.length_cons]
          omega
      | cons first others =>
          obtain ⟨rfl, later⟩ := List.cons.inj split
          obtain ⟨place, total, short⟩ := inductionHypothesis later
          have more : spare < rest.length := by
            by_contra none
            rw [List.drop_of_length_le (Nat.le_of_not_lt none), chunksFrom_nil] at later
            simp at later
          refine ⟨?_, ?_, short⟩
          · rw [place, List.length_cons]
            omega
          · rw [List.flatMap_cons, List.length_append, total, ofRaw, rawRecords_length,
              List.length_cons, List.length_take_of_le (Nat.le_of_lt more), List.length_cons,
              Nat.succ_mul, Nat.add_comm]

/-- Laid end to end, the batches are all records in order. -/
theorem chunks_records (size : Nat) (texts : List String) :
    (chunks size texts).flatMap Batch.records = rawRecords 0 texts :=
  chunksFrom_records (size - 1) 0 0 texts

theorem chunks_isRaw
    {size : Nat}
    {batch : Batch}
    (present : batch ∈ chunks size texts) :
    batch.IsRaw := by
  intro record among
  have listed : record ∈ rawRecords 0 texts := by
    rw [← chunks_records size texts]
    exact List.mem_flatMap.mpr ⟨batch, present, among⟩
  obtain ⟨id, text, rfl, -⟩ := mem_rawRecords listed
  exact ⟨id, text, rfl⟩

/-- There are as many batches as are needed. -/
theorem chunks_length
    {size : Nat}
    (positive : 0 < size)
    (texts : List String) :
    (chunks size texts).length = (texts.length + (size - 1)) / size := by
  have filled := chunksFrom_length (size - 1) 0 0 texts
  rwa [Nat.sub_add_cancel positive] at filled

/-- The identifier of a record tells the index of its batch. -/
theorem chunks_index
    {size id : Nat}
    {text : String}
    {front back : List Batch}
    {batch : Batch}
    {before after : List Record}
    (positive : 0 < size)
    (split : chunks size texts = front ++ batch :: back)
    (record : batch.records = before ++ .raw id text :: after) :
    batch.index = (front.flatMap Batch.records ++ before).length / size := by
  obtain ⟨place, total, short⟩ := chunksFrom_place split
  rw [Nat.sub_add_cancel positive] at total short
  have inside : before.length < size := by
    rw [record, List.length_append, List.length_cons] at short
    omega
  rw [place, Nat.zero_add, List.length_append, total, Nat.mul_comm,
    Nat.mul_add_div positive, Nat.div_eq_of_lt inside, Nat.add_zero]

end Batch
end StagePipeline
