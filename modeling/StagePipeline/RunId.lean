import StagePipeline.Text.Hexadecimal

/-!
# Run identifiers

A run is named by 128 bits, written as 32 hexadecimal digits in groups of
8, 4, 4, 4 and 12.
-/

namespace StagePipeline

/-- The identifier of one run. -/
structure RunId where
  value : Nat
  bounded : value < Nat.pow 2 128
  deriving DecidableEq

namespace RunId

/-- The identifier with the given bits, of which the lowest 128 count. -/
def ofNat (value : Nat) : RunId :=
  ⟨value % Nat.pow 2 128, Nat.mod_lt _ (by decide)⟩

instance : Inhabited RunId := ⟨ofNat 0⟩

/-- The 32 digits, most significant first. -/
def digits (id : RunId) : List Char :=
  (List.range 32).map fun place => Text.hexDigit (id.value / Nat.pow 16 (31 - place) % 16)

/-- The digits in five groups joined by hyphens. -/
def hyphenated (id : RunId) : String :=
  let part (start length : Nat) := String.ofList ((id.digits.drop start).take length)
  part 0 8 ++ "-" ++ part 8 4 ++ "-" ++ part 12 4 ++ "-" ++ part 16 4 ++ "-" ++ part 20 12

/-- The name under which a run is reported. -/
def text (id : RunId) : String :=
  "run-" ++ id.hyphenated

/-- Read 32 hexadecimal digits. -/
def ofDigits? (text : List Char) : Option RunId :=
  if text.length = 32 then
    (Text.hexNumber? text).map ofNat
  else none

/-- Read five groups joined by hyphens. -/
def ofHyphenated? (text : List Char) : Option RunId :=
  let hyphens := [8, 13, 18, 23].all fun place => text[place]? == some '-'
  if text.length = 36 ∧ hyphens then
    ofDigits? (text.take 8 ++ (text.drop 9).take 4 ++ (text.drop 14).take 4 ++
      (text.drop 19).take 4 ++ text.drop 24)
  else none

/-- The mark in front of an identifier that stands as a name among other names. -/
def nameMark : List Char := "urn:uuid:".toList

/-- Read an identifier: 32 digits, or groups that stand alone, in braces or after
the mark of names in any case. -/
def parse? (text : List Char) : Option RunId :=
  match text.length with
  | 32 => ofDigits? text
  | 36 => ofHyphenated? text
  | 38 =>
      if text.head? = some '\x7b' ∧ text.getLast? = some '\x7d' then
        ofHyphenated? ((text.drop 1).take 36)
      else none
  | 45 =>
      if (text.take 9).map Char.toLower = nameMark then ofHyphenated? (text.drop 9) else none
  | _ => none

end RunId
end StagePipeline
