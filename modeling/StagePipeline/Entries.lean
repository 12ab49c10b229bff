/-!
# Entries

A list of entries holds values under keys.  A new entry goes to the end of the
list, and a key that is there already keeps its place.
-/

namespace StagePipeline
namespace Entries

/-- The first value under a key. -/
def find? (key : String) : List (String × α) → Option α
  | [] => none
  | (name, value) :: rest => if name = key then some value else find? key rest

/-- Put a value in the place of the one under the same key, or at the end. -/
def put (key : String) (value : α) : List (String × α) → List (String × α)
  | [] => [(key, value)]
  | (name, old) :: rest =>
      if name = key then (name, value) :: rest else (name, old) :: put key value rest

/-- Remove all entries under a key. -/
def erase (key : String) (entries : List (String × α)) : List (String × α) :=
  entries.filter fun entry => entry.1 != key

/-- Keep the last entry under every key. -/
def keepLast : List (String × α) → List (String × α)
  | [] => []
  | (key, value) :: rest =>
      if (find? key rest).isSome then keepLast rest else (key, value) :: keepLast rest

@[simp] theorem find?_nil (key : String) : find? key ([] : List (String × α)) = none :=
  rfl

@[simp] theorem find?_put_self
    (key : String)
    (value : α)
    (entries : List (String × α)) :
    find? key (put key value entries) = some value := by
  induction entries with
  | nil => simp [put, find?]
  | cons first rest inductionHypothesis =>
      by_cases same : first.1 = key <;> simp [put, find?, same, inductionHypothesis]

theorem find?_put_of_ne
    {key other : String}
    (different : key ≠ other)
    (value : α)
    (entries : List (String × α)) :
    find? other (put key value entries) = find? other entries := by
  induction entries with
  | nil => simp [put, find?, different]
  | cons first rest inductionHypothesis =>
      by_cases same : first.1 = key
      · simp [put, find?, same, different]
      · simp [put, find?, same, inductionHypothesis]

end Entries
end StagePipeline
