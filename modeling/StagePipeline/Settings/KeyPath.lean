import StagePipeline.Decimal.Literal
import StagePipeline.Settings.Value
import StagePipeline.Word

/-!
# Key paths

A key of layered settings leads through tables and lists to the value that it sets:
`a.b[2]` is the third item of the list `b` in the table `a`, and so is `A.B[2]`.
Values on the way that do not fit the path give way to it.
-/

namespace StagePipeline
namespace Settings

/-- A step into a value. -/
inductive KeyStep where
  /-- To the member of a table. -/
  | member (name : String)
  /-- To the item of a list; a negative index counts from the end. -/
  | item (index : Int)
  deriving DecidableEq, Repr

/-- The step with the name of its member in small letters. -/
def KeyStep.lowerCase : KeyStep → KeyStep
  | member name => member (Text.lowerCase name)
  | item index => item index

/-- The steps from the whole settings to a value. -/
abbrev KeyPath := List KeyStep

namespace KeyPath

/-! ## Reading -/

/-- Whether a character may stand in the name of a member. -/
def isNameCharacter (character : Char) : Bool :=
  character.isAlphanum || character == '_' || character == '-' || character == ' '

/-- The text behind spaces and tabs. -/
def skipBlanks (text : List Char) : List Char :=
  text.dropWhile fun character => character == ' ' || character == '\t'

/-- Read an index and its closing bracket.  The index must fit a word with a sign,
and blanks may stand around it. -/
def index? (text : List Char) : Option (Int × List Char) :=
  let text := skipBlanks text
  let negative := text.head? == some '-'
  let unsigned := if negative then text.tail else text
  let digits := Decimal.leadingDigits unsigned
  let magnitude : Int := Decimal.digitsValue digits
  let index := if negative then -magnitude else magnitude
  match skipBlanks (Decimal.afterDigits unsigned) with
  | ']' :: rest =>
      if digits.isEmpty || !Word.fitsSigned index then none else some (index, rest)
  | _ => none

/-- Read at most so many steps behind the first one: names after points and indices
in brackets. -/
def steps? : Nat → List Char → Option KeyPath
  | _, [] => some []
  | 0, _ => none
  | room + 1, '.' :: rest =>
      let name := rest.takeWhile isNameCharacter
      if name.isEmpty then none
      else
        (steps? room (rest.dropWhile isNameCharacter)).map fun path =>
          .member (String.ofList name) :: path
  | room + 1, '[' :: rest =>
      match index? rest with
      | some (index, rest) => (steps? room rest).map fun path => .item index :: path
      | none => none
  | _, _ => none

/-- Read a key as a path, which begins with a name. -/
def parse? (key : String) : Option KeyPath :=
  let name := key.toList.takeWhile isNameCharacter
  let rest := key.toList.dropWhile isNameCharacter
  if name.isEmpty then none
  else (steps? rest.length rest).map fun path => .member (String.ofList name) :: path

/-- The path of a key.  A key that does not read as a path, as it is written, is a
name as a whole. -/
def ofKey (key : String) : KeyPath :=
  ((parse? key).getD [.member key]).map KeyStep.lowerCase

/-! ## Setting values -/

/-- The bytes that an item takes in a list. -/
def itemBytes : Nat := 96

/-- The position that an index means in a list of some length.  There is none in
front of the first item, nor so far behind the last one that a list up to there could
not be addressed. -/
def position? (length : Nat) : Int → Option Nat
  | .ofNat index => if Word.fitsBuffer (index + 1) itemBytes then some index else none
  | .negSucc before => if before < length then some (length - 1 - before) else none

/-- The items of a list with nulls behind them, so that there is one at a position. -/
def extended (items : List Value) (position : Nat) : List Value :=
  items ++ List.replicate (position + 1 - items.length) .null

/-- Set the value at the end of a path.  A member is laid over what was there before,
an item replaces it.  The value cannot be set if a list has no position for an
index. -/
def set? (value : Value) : KeyPath → Value → Option Value
  | [], below => some (value.overlay below)
  | .member name :: path, below =>
      let old := (Entries.find? name below.members).getD (.table [])
      (set? value path old).map fun new => .table (Entries.put name new below.members)
  | .item index :: path, below =>
      match position? below.items.length index with
      | none => none
      | some position =>
          let items := extended below.items position
          let new? := match path with
            | [] => some value
            | _ => set? value path (items[position]?.getD .null)
          new?.map fun new => .list (items.set position new)

end KeyPath
end Settings
end StagePipeline
