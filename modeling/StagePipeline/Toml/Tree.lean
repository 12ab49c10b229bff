import StagePipeline.Entries
import StagePipeline.Toml

/-!
# Trees of tables under construction

While a document is read, every table remembers how it came about, because that
decides how it may still be extended.
-/

namespace StagePipeline
namespace Toml

/-- How a table came about. -/
inductive Origin where
  /-- By a header of its own, or as the document itself. -/
  | header
  /-- By the header of a table inside it. -/
  | implied
  /-- By a key of several parts. -/
  | dotted
  deriving DecidableEq, Repr

/-- A node of the tree.  Tables inside values are closed and stand as values. -/
inductive Node where
  | value (value : Value)
  | table (origin : Origin) (members : List (String × Node))
  /-- An array of tables, the one that was begun last in front. -/
  | tables (elements : List (Origin × List (String × Node)))
  deriving Inhabited

/-- The named nodes in a table. -/
abbrev Members := List (String × Node)

/-- Change the table at the end of a path.  Missing tables on the way come about
by the path; in an array of tables the way leads through the table begun last.  A
value ends every path, and a table with a header ends a path of a dotted key. -/
def editAt
    (dotted : Bool)
    (change : Origin → Members → Option Members) :
    List String → Origin → Members → Option Members
  | [], origin, members => change origin members
  | key :: path, _, members =>
      match Entries.find? key members with
      | none => do
          let created : Origin := if dotted then .dotted else .implied
          let inner ← editAt dotted change path created []
          return Entries.put key (.table created inner) members
      | some (.value _) => none
      | some (.table origin inner) =>
          if dotted && origin == .header then none
          else do
            let inner ← editAt dotted change path origin inner
            return Entries.put key (.table origin inner) members
      | some (.tables []) => none
      | some (.tables ((origin, inner) :: elements)) => do
          let inner ← editAt dotted change path origin inner
          return Entries.put key (.tables ((origin, inner) :: elements)) members

/-- Add a value under a key of several parts.  The last part must be new, and a key
of several parts adds to no table but those that such keys have made. -/
def insertValue (path : List String) (key : String) (value : Value) (members : Members) :
    Option Members :=
  editAt true (fun origin members =>
    if (origin == .dotted) == path.isEmpty then none
    else
      match Entries.find? key members with
      | some _ => none
      | none => some (Entries.put key (.value value) members))
    path .header members

mutual

/-- The value that a finished node stands for. -/
def Node.toValue : Node → Value
  | .value value => value
  | .table _ members => .table (membersToTable members)
  | .tables elements => .array (elementsToValues elements)

/-- The table that finished members stand for. -/
def membersToTable : List (String × Node) → List (String × Value)
  | [] => []
  | (key, node) :: rest => (key, node.toValue) :: membersToTable rest

/-- The values that the tables of an array stand for, put into their order. -/
def elementsToValues : List (Origin × List (String × Node)) → List Value
  | [] => []
  | (_, members) :: rest => elementsToValues rest ++ [.table (membersToTable members)]

end

end Toml
end StagePipeline
