import Mathlib.Algebra.Order.Floor.Div
import StagePipeline.Proofs.Chunks

/-!
# Batches as a partition of a row of texts

The batches cut from a row of texts are consecutive slices of it: the place of a batch is
its index, and tells its first identifier and its texts.  The same batches come about if
records are put into a buffer one by one, and the buffer is set aside whenever it is full.
-/

namespace StagePipeline
namespace Batch

/-! ## Slices -/

/-- The texts between one multiple of a size and the next one, as far as there are any. -/
def slice (size place : Nat) (texts : List String) : List String :=
  texts.extract (place * size) (min ((place + 1) * size) texts.length)

theorem slice_eq_take_drop (size place : Nat) (texts : List String) :
    slice size place texts = (texts.drop (place * size)).take size := by
  rw [slice, List.extract_eq_take_drop, List.take_eq_take_iff, List.length_drop, Nat.succ_mul]
  omega

theorem slice_length (size place : Nat) (texts : List String) :
    (slice size place texts).length = min size (texts.length - place * size) := by
  rw [slice_eq_take_drop, List.length_take, List.length_drop]

/-- Which batch stands at a place.  The first one stands at place zero, every other one a place
further than among the rest. -/
theorem chunksFrom_getElem?
    (spare index firstId place : Nat)
    (texts : List String) :
    (chunksFrom spare index firstId texts)[place]? =
      if place * (spare + 1) < texts.length then
        some (ofRaw (index + place) (firstId + place * (spare + 1))
          (slice (spare + 1) place texts))
      else none := by
  fun_induction chunksFrom spare index firstId texts generalizing place with
  | case1 => simp
  | case2 index firstId text rest inductionHypothesis =>
      rw [slice_eq_take_drop]
      cases place with
      | zero => simp
      | succ place =>
          have inside : place * (spare + 1) < (rest.drop spare).length ↔
              (place + 1) * (spare + 1) < (text :: rest).length := by
            rw [List.length_drop, List.length_cons, Nat.succ_mul]
            omega
          have behind : (rest.drop spare).drop (place * (spare + 1)) =
              (text :: rest).drop ((place + 1) * (spare + 1)) := by
            rw [Nat.succ_mul, ← Nat.add_assoc, List.drop_succ_cons, List.drop_drop,
              Nat.add_comm spare]
          rw [List.getElem?_cons_succ, inductionHypothesis, slice_eq_take_drop, behind,
            if_congr inside rfl rfl, Nat.add_right_comm index, Nat.add_assoc index place,
            Nat.add_assoc firstId, Nat.add_comm (spare + 1), ← Nat.succ_mul]

theorem rawRecords_eq_mapIdx (firstId : Nat) (texts : List String) :
    rawRecords firstId texts = texts.mapIdx fun place text => .raw (firstId + place) text := by
  induction texts generalizing firstId with
  | nil => rfl
  | cons text rest inductionHypothesis =>
      rw [rawRecords_cons, inductionHypothesis, List.mapIdx_cons]
      congr 2
      funext place text
      rw [Nat.add_assoc, Nat.add_comm 1]

/-! ## Records put into a buffer one by one -/

/-- Batches in the making: those that are full, and the records of the next one. -/
structure Filling where
  full : List Batch
  buffer : List Record

namespace Filling

/-- Put a record into the buffer.  If that makes it full it is set aside, with the number of
batches before it as its index. -/
def add (size : Nat) (filling : Filling) (record : Record) : Filling :=
  let buffer := filling.buffer ++ [record]
  if buffer.length = size then ⟨filling.full ++ [⟨filling.full.length, buffer⟩], []⟩
  else ⟨filling.full, buffer⟩

/-- All batches; what is left in the buffer is the last one. -/
def finish (filling : Filling) : List Batch :=
  if filling.buffer.isEmpty then filling.full
  else filling.full ++ [⟨filling.full.length, filling.buffer⟩]

variable
  {size spare index firstId : Nat}
  {full : List Batch}
  {buffer records : List Record}

theorem add_of_lt (record : Record) (room : buffer.length + 1 < size) :
    add size ⟨full, buffer⟩ record = ⟨full, buffer ++ [record]⟩ := by
  rw [add, if_neg]
  rw [List.length_append, List.length_singleton]
  exact Nat.ne_of_lt room

theorem add_of_eq (record : Record) (last : buffer.length + 1 = size) :
    add size ⟨full, buffer⟩ record =
      ⟨full ++ [⟨full.length, buffer ++ [record]⟩], []⟩ := by
  rw [add, if_pos]
  rw [List.length_append, List.length_singleton]
  exact last

/-- Records that do not fill the buffer stay in it. -/
theorem foldl_add_of_lt (room : buffer.length + records.length < size) :
    records.foldl (add size) ⟨full, buffer⟩ = ⟨full, buffer ++ records⟩ := by
  induction records generalizing buffer with
  | nil => rw [List.foldl_nil, List.append_nil]
  | cons record rest inductionHypothesis =>
      rw [List.length_cons] at room
      rw [List.foldl_cons, add_of_lt record (by omega), inductionHypothesis, List.append_assoc]
      · rfl
      · rw [List.length_append, List.length_singleton]
        omega

/-- Records that fill the buffer become a batch. -/
theorem foldl_add_of_eq
    (something : records ≠ [])
    (last : buffer.length + records.length = size) :
    records.foldl (add size) ⟨full, buffer⟩ =
      ⟨full ++ [⟨full.length, buffer ++ records⟩], []⟩ := by
  obtain ⟨front, record, rfl⟩ := (List.eq_nil_or_concat' records).resolve_left something
  rw [List.length_append, List.length_singleton] at last
  have room : buffer.length + front.length < size := by omega
  rw [List.foldl_append, foldl_add_of_lt room, List.foldl_cons, add_of_eq, List.foldl_nil,
    List.append_assoc]
  rw [List.length_append]
  omega

/-- With an empty buffer the chunks of what is to come are appended. -/
theorem finish_foldl
    (texts : List String)
    (place : full.length = index) :
    ((rawRecords firstId texts).foldl (add (spare + 1)) ⟨full, []⟩).finish =
      full ++ chunksFrom spare index firstId texts := by
  fun_induction chunksFrom spare index firstId texts generalizing full with
  | case1 => simp [finish]
  | case2 index firstId text rest inductionHypothesis =>
      rcases Nat.lt_or_ge rest.length spare with short | enough
      · have buffered : (rawRecords firstId (text :: rest)).foldl (add (spare + 1)) ⟨full, []⟩ =
            ⟨full, rawRecords firstId (text :: rest)⟩ := by
          apply foldl_add_of_lt
          rw [rawRecords_length, List.length_nil, List.length_cons]
          omega
        rw [buffered, List.take_of_length_le (Nat.le_of_lt short),
          List.drop_of_length_le (Nat.le_of_lt short), chunksFrom_nil, ofRaw, ← place]
        rfl
      · have completed : (rawRecords firstId (text :: rest.take spare)).foldl (add (spare + 1))
            ⟨full, []⟩ = ⟨full ++ [ofRaw index firstId (text :: rest.take spare)], []⟩ := by
          rw [ofRaw, ← place]
          apply foldl_add_of_eq (List.cons_ne_nil _ _)
          rw [List.length_nil, List.length_cons, rawRecords_length, List.length_take_of_le enough]
          omega
        rw [← rawRecords_take_append_drop (spare + 1), List.foldl_append, List.take_succ_cons,
          List.drop_succ_cons, completed, inductionHypothesis, List.append_assoc]
        · rfl
        · rw [List.length_append, place]
          rfl

end Filling

/-- The batches that come about if the records of some texts are put into a buffer of a
given size one by one. -/
def fill (size : Nat) (texts : List String) : List Batch :=
  ((texts.mapIdx Record.raw).foldl (Filling.add size) ⟨[], []⟩).finish

/-! ## Partition -/

/-- The batches are the slices of the texts, in order. -/
structure IsPartition (size : Nat) (texts : List String) (batches : List Batch) : Prop where
  length : batches.length = texts.length ⌈/⌉ size
  place : ∀ place (inside : place < batches.length),
    batches[place] = ofRaw place (place * size) (slice size place texts)
  identified : texts.length < Word.limit → ∀ place (inside : place < batches.length),
    ofRaw? place (place * size) (slice size place texts) = some batches[place]
  nonempty : ∀ batch ∈ batches, batch.records ≠ []
  full : ∀ place (inside : place + 1 < batches.length), batches[place].size = size
  records : batches.flatMap Batch.records = texts.mapIdx Record.raw

/-- A batch stands at every place at which there are texts left. -/
theorem lt_chunks_length_iff
    {size place : Nat}
    {texts : List String}
    (positive : 0 < size) :
    place < (chunks size texts).length ↔ place * size < texts.length := by
  have listed := chunksFrom_getElem? (size - 1) 0 0 place texts
  rw [Nat.sub_add_cancel positive] at listed
  rw [← not_iff_not, Nat.not_lt, ← List.getElem?_eq_none_iff, chunks, listed]
  split <;> simp [*]

theorem chunks_getElem
    {size place : Nat}
    {texts : List String}
    (positive : 0 < size)
    (inside : place < (chunks size texts).length) :
    (chunks size texts)[place] = ofRaw place (place * size) (slice size place texts) := by
  have listed := chunksFrom_getElem? (size - 1) 0 0 place texts
  rw [Nat.sub_add_cancel positive, if_pos ((lt_chunks_length_iff positive).mp inside),
    Nat.zero_add, Nat.zero_add] at listed
  exact (List.getElem_eq_iff inside).mpr listed

theorem chunks_isPartition
    {size : Nat}
    (positive : 0 < size)
    (texts : List String) :
    IsPartition size texts (chunks size texts) := by
  have began : ∀ place, place < (chunks size texts).length → place * size < texts.length :=
    fun place inside => (lt_chunks_length_iff positive).mp inside
  have sized : ∀ place (inside : place < (chunks size texts).length),
      (chunks size texts)[place].size = min size (texts.length - place * size) := by
    intro place inside
    rw [chunks_getElem positive inside, ofRaw_size, slice_length]
  refine ⟨?_, fun place inside => chunks_getElem positive inside, ?_, ?_, ?_, ?_⟩
  · rw [chunks_length positive, Nat.ceilDiv_eq_add_pred_div, Nat.add_sub_assoc positive]
  · intro few place inside
    have begun := began place inside
    rw [chunks_getElem positive inside, ofRaw?, if_pos]
    rw [slice_length]
    omega
  · intro batch present
    obtain ⟨place, inside, rfl⟩ := List.getElem_of_mem present
    have begun := began place inside
    rw [← List.length_pos_iff]
    change 0 < (chunks size texts)[place].size
    rw [sized place inside]
    omega
  · intro place inside
    have begun := began (place + 1) inside
    rw [Nat.succ_mul] at begun
    rw [sized place (Nat.lt_of_succ_lt inside)]
    omega
  · rw [chunks_records, rawRecords_eq_mapIdx]
    simp only [Nat.zero_add]

/-- Filling a buffer comes to the same batches. -/
theorem fill_eq_chunks
    {size : Nat}
    (positive : 0 < size)
    (texts : List String) :
    fill size texts = chunks size texts := by
  have filled : ((rawRecords 0 texts).foldl (Filling.add (size - 1 + 1)) ⟨[], []⟩).finish =
      chunks size texts := Filling.finish_foldl texts rfl
  rw [Nat.sub_add_cancel positive, rawRecords_eq_mapIdx] at filled
  simp only [Nat.zero_add] at filled
  exact filled

/-- If a buffer for a batch can be addressed, texts are cut into the slices of their row,
which are the batches that come about by filling such a buffer.  Size zero counts as one. -/
theorem chunks_partition
    {size : Nat}
    (addressable : Word.fitsBuffer (max size 1) recordBytes = true)
    (texts : List String) :
    ∃ batches, chunks? size texts = some batches ∧
      IsPartition (max size 1) texts batches ∧ fill (max size 1) texts = batches := by
  have positive : 0 < max size 1 := Nat.lt_of_lt_of_le Nat.one_pos (Nat.le_max_right size 1)
  have same : chunks size texts = chunks (max size 1) texts := by
    rw [chunks, chunks, show max size 1 - 1 = size - 1 by omega]
  refine ⟨chunks size texts, ?_, ?_, ?_⟩
  · rw [chunks?, if_pos addressable]
  · rw [same]
    exact chunks_isPartition positive texts
  · rw [same, fill_eq_chunks positive]

/-- Three texts in batches of two, and two texts in batches of size zero. -/
theorem chunks_partition_three :
    Word.fitsBuffer (max 2 1) recordBytes = true ∧
    chunks? 2 ["a", "b", "c"] =
      some [⟨0, [.raw 0 "a", .raw 1 "b"]⟩, ⟨1, [.raw 2 "c"]⟩] ∧
    Word.fitsBuffer (max 0 1) recordBytes = true ∧
    chunks? 0 ["a", "b"] = some [⟨0, [.raw 0 "a"]⟩, ⟨1, [.raw 1 "b"]⟩] := by
  have two : Word.fitsBuffer (max 2 1) recordBytes = true := by decide
  have one : Word.fitsBuffer (max 0 1) recordBytes = true := by decide
  obtain ⟨pairs, cut, -, rfl⟩ := chunks_partition two ["a", "b", "c"]
  obtain ⟨singles, singly, -, rfl⟩ := chunks_partition one ["a", "b"]
  exact ⟨two, cut, one, singly⟩

end Batch
end StagePipeline
