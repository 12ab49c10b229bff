import StagePipeline.Toml.Scalar
import StagePipeline.Toml.Tree

/-!
# TOML documents

A document is read as a list of statements, each a header or a key with a value.
The statements are grouped into sections, and the sections are added to the tree
of tables one after the other.
-/

namespace StagePipeline
namespace Toml

/-! ## Keys -/

/-- Whether a character may stand in a bare key. -/
def isBare (character : Char) : Bool :=
  character.isAlphanum || character == '-' || character == '_'

/-- Read one part of a key. -/
def keyPart? (text : List Char) : Option (String × List Char) :=
  match text with
  | '"' :: _ => lineString? text
  | '\'' :: _ => lineString? text
  | _ =>
      let bare := text.takeWhile isBare
      if bare.isEmpty then none else some (String.ofList bare, text.dropWhile isBare)

/-- Keys, headers and values may not be nested this deep. -/
def depthLimit : Nat := 80

/-- Read at most so many parts of a key, joined by points.  Spaces may stand around
every part. -/
def keyParts? : Nat → List Char → Option (List String × List Char)
  | 0, _ => none
  | room + 1, text => do
      let (part, rest) ← keyPart? (skipSpaces text)
      match skipSpaces rest with
      | '.' :: rest =>
          let (parts, rest) ← keyParts? room rest
          return (part :: parts, rest)
      | rest => return ([part], rest)

/-- A key: the parts in front of the last one, and the last one. -/
structure Key where
  path : List String
  last : String
  deriving DecidableEq, Repr

/-- Read a key. -/
def key? (text : List Char) : Option (Key × List Char) := do
  let (parts, rest) ← keyParts? (depthLimit - 1) text
  let last ← parts.getLast?
  return (⟨parts.dropLast, last⟩, rest)

/-! ## Values -/

/-- The text behind a comment, which ends with its line. -/
def comment? : List Char → Option (List Char)
  | '#' :: rest =>
      match rest.dropWhile isPlain with
      | [] => some []
      | rest => lineEnd? rest
  | _ => none

/-- Skip blanks, line ends and comments. -/
def skipFiller (fuel : Nat) (text : List Char) : List Char :=
  match fuel with
  | 0 => text
  | fuel + 1 =>
      let text := skipLines text
      match comment? text with
      | some rest => skipFiller fuel rest
      | none => text

mutual

/-- Read a value. -/
def value? (fuel depth : Nat) (text : List Char) : Option (Value × List Char) :=
  match fuel with
  | 0 => none
  | fuel + 1 =>
      match text with
      | '[' :: rest =>
          match depth with
          | 0 | 1 => none
          | depth + 1 =>
              (items? fuel depth rest).map fun (items, rest) => (.array items, rest)
      | '\x7b' :: rest =>
          match depth with
          | 0 | 1 => none
          | depth + 1 =>
              match skipSpaces rest with
              | '\x7d' :: rest => some (.table [], rest)
              | rest =>
                  (pairs? fuel depth [] rest).map fun (members, rest) =>
                    (.table (membersToTable members), rest)
      | _ => scalar? text

/-- Read the items of an array up to its closing bracket. -/
def items? (fuel depth : Nat) (text : List Char) : Option (List Value × List Char) :=
  match fuel with
  | 0 => none
  | fuel + 1 =>
      match skipFiller text.length text with
      | ']' :: rest => some ([], rest)
      | text =>
          match value? fuel depth text with
          | none => none
          | some (item, rest) =>
              match skipFiller rest.length rest with
              | ',' :: rest =>
                  (items? fuel depth rest).map fun (items, rest) => (item :: items, rest)
              | ']' :: rest => some ([item], rest)
              | _ => none

/-- Read the pairs of a table on one line up to its closing brace, and add them to
its members. -/
def pairs? (fuel depth : Nat) (members : Members) (text : List Char) :
    Option (Members × List Char) :=
  match fuel with
  | 0 => none
  | fuel + 1 =>
      match key? text with
      | some (key, '=' :: rest) =>
          match value? fuel depth (skipSpaces rest) with
          | none => none
          | some (value, rest) =>
              match insertValue key.path key.last value members with
              | none => none
              | some members =>
                  match skipSpaces rest with
                  | ',' :: rest => pairs? fuel depth members rest
                  | '\x7d' :: rest => some (members, rest)
                  | _ => none
      | _ => none

end

/-! ## Statements -/

/-- A header or a key with its value. -/
inductive Statement where
  | table (key : Key)
  | element (key : Key)
  | pair (key : Key) (value : Value)

/-- The text behind the end of a line, before which there may be a comment. -/
def endLine? (text : List Char) : Option (List Char) :=
  match skipSpaces text with
  | [] => some []
  | '#' :: rest => comment? ('#' :: rest)
  | rest => lineEnd? rest

/-- Read one statement and the rest of its line. -/
def statement? (text : List Char) : Option (Statement × List Char) :=
  match text with
  | '[' :: '[' :: rest =>
      match key? rest with
      | some (key, ']' :: ']' :: rest) => (endLine? rest).map (.element key, ·)
      | _ => none
  | '[' :: rest =>
      match key? rest with
      | some (key, ']' :: rest) => (endLine? rest).map (.table key, ·)
      | _ => none
  | _ =>
      match key? text with
      | some (key, '=' :: rest) =>
          match value? (2 * text.length) depthLimit (skipSpaces rest) with
          | some (value, rest) => (endLine? rest).map (.pair key value, ·)
          | none => none
      | _ => none

/-- Read all statements. -/
def statements? : Nat → List Char → Option (List Statement)
  | 0, _ => none
  | fuel + 1, text =>
      match skipSpaces text with
      | [] => some []
      | '#' :: rest => (comment? ('#' :: rest)).bind (statements? fuel)
      | text =>
          match lineEnd? text with
          | some rest => statements? fuel rest
          | none =>
              match statement? text with
              | some (statement, rest) => (statements? fuel rest).map (statement :: ·)
              | none => none

/-! ## Sections -/

/-- Add a section with the given pairs under a header.  A table with a header is
new or was implied before, and goes to the end of the table around it; an element
goes to a new or an old array of tables. -/
def addSection
    (isElement : Bool)
    (key : Key)
    (fill : Members → Option Members)
    (root : Members) :
    Option Members :=
  editAt false (fun _ members =>
    match Entries.find? key.last members, isElement with
    | none, false => (fill []).map fun inner => Entries.put key.last (.table .header inner) members
    | some (.table .implied inner), false =>
        (fill inner).map fun inner =>
          Entries.erase key.last members ++ [(key.last, .table .header inner)]
    | none, true =>
        (fill []).map fun inner => Entries.put key.last (.tables [(.header, inner)]) members
    | some (.tables elements), true =>
        (fill []).map fun inner =>
          Entries.put key.last (.tables ((.header, inner) :: elements)) members
    | _, _ => none)
    key.path .header root

/-- The pairs in front of the next header. -/
def leadingPairs : List Statement → List (Key × Value)
  | .pair key value :: rest => (key, value) :: leadingPairs rest
  | _ => []

/-- The statements from the next header on. -/
def afterPairs : List Statement → List Statement
  | .pair _ _ :: rest => afterPairs rest
  | statements => statements

/-- Add pairs to the members of a table. -/
def insertPairs (pairs : List (Key × Value)) (members : Members) : Option Members :=
  pairs.foldlM (fun members (key, value) => insertValue key.path key.last value members) members

/-- Add all sections that begin with a header. -/
def addSections : Nat → List Statement → Members → Option Members
  | 0, _, _ => none
  | _ + 1, [], root => some root
  | fuel + 1, statement :: rest, root =>
      let fill := insertPairs (leadingPairs rest)
      match statement with
      | .table key => (addSection false key fill root).bind (addSections fuel (afterPairs rest))
      | .element key => (addSection true key fill root).bind (addSections fuel (afterPairs rest))
      | .pair _ _ => none

/-- The table that a list of statements describes. -/
def tableOf? (statements : List Statement) : Option Table := do
  let root ← insertPairs (leadingPairs statements) []
  let root ← addSections (statements.length + 1) (afterPairs statements) root
  return membersToTable root

/-- Read a whole document.  A byte order mark in front of it is skipped. -/
def parse? (document : String) : Option Table :=
  let text := document.toList
  let text := if text.head? = some '\ufeff' then text.tail else text
  (statements? (text.length + 1) text).bind tableOf?

end Toml
end StagePipeline
