import StagePipeline.Decimal.Literal
import StagePipeline.Text.Hexadecimal
import StagePipeline.Toml
import StagePipeline.Toml.Moment
import StagePipeline.Word

/-!
# Scalars of TOML documents

Readers for numbers and strings, and for scalars of any kind.  Every reader takes a
text and returns what it has read together with the rest of the text.
-/

namespace StagePipeline
namespace Toml

open Decimal

/-! ## Numbers -/

/-- Read digits, between which single underscores may stand. -/
def digitRun (isDigit : Char → Bool) : List Char → List Char × List Char
  | [] => ([], [])
  | first :: rest =>
      if isDigit first then
        match rest with
        | '_' :: second :: after =>
            if isDigit second then
              let (digits, rest) := digitRun isDigit (second :: after)
              (first :: digits, rest)
            else ([first], '_' :: second :: after)
        | rest =>
            let (digits, rest) := digitRun isDigit rest
            (first :: digits, rest)
      else ([], first :: rest)
termination_by text => text.length

/-- Read at least one digit. -/
def digits? (isDigit : Char → Bool) (text : List Char) : Option (List Char × List Char) :=
  match digitRun isDigit text with
  | ([], _) => none
  | read => some read

/-- Read a sign and decimal digits, of which only a zero that stands alone may
come first. -/
def decimal? (text : List Char) : Option ((Bool × List Char) × List Char) :=
  let (negative, unsigned) := splitSign text
  match unsigned with
  | '0' :: rest => some ((negative, ['0']), rest)
  | _ => (digits? Char.isDigit unsigned).map fun (digits, rest) => ((negative, digits), rest)

/-- Read an optional fraction. -/
def fraction? : List Char → Option (List Char × List Char)
  | '.' :: rest => digits? Char.isDigit rest
  | text => some ([], text)

/-- Read an optional exponent. -/
def exponentPart? : List Char → Option (Option Int × List Char)
  | [] => some (none, [])
  | letter :: rest =>
      if letter = 'e' ∨ letter = 'E' then do
        let (negative, unsigned) := splitSign rest
        let (digits, rest) ← digits? Char.isDigit unsigned
        let value : Int := digitsValue digits
        return (some (if negative then -value else value), rest)
      else some (none, letter :: rest)

/-- Read a number with a fraction or an exponent.  It must not round to positive
infinity. -/
def pointed? (text : List Char) : Option (Value × List Char) := do
  let ((negative, whole), rest) ← decimal? text
  let (fraction, rest) ← fraction? rest
  let (exponent, rest) ← exponentPart? rest
  if fraction.isEmpty && exponent.isNone then none
  else
    let literal : Literal := ⟨negative, whole ++ fraction, exponent.getD 0 - fraction.length⟩
    if literal.toFloat == Binary64.positiveInfinity then none
    else some (.float literal.toFloat, rest)

/-- Read infinity or no number by its name. -/
def named? (text : List Char) : Option (Value × List Char) :=
  let (negative, unsigned) := splitSign text
  match unsigned with
  | 'i' :: 'n' :: 'f' :: rest =>
      some (.float (Binary64.ofMagnitude negative Binary64.infinityBits), rest)
  | 'n' :: 'a' :: 'n' :: rest => some (.float Binary64.notANumber, rest)
  | _ => none

/-- Read digits of a base as a natural number. -/
def inBase? (base : Nat) (text : List Char) : Option (Value × List Char) := do
  let isDigit (digit : Char) : Bool := (Text.hexValue? digit).any fun value => value < base
  let (digits, rest) ← digits? isDigit text
  let value := digits.foldl (fun value digit =>
    base * value + (Text.hexValue? digit).getD 0) 0
  if value < Word.signedLimit then some (.integer value, rest) else none

/-- Read an integer in decimal, or in another base after its mark. -/
def integer? : List Char → Option (Value × List Char)
  | '0' :: 'x' :: rest => inBase? 16 rest
  | '0' :: 'o' :: rest => inBase? 8 rest
  | '0' :: 'b' :: rest => inBase? 2 rest
  | text => do
      let ((negative, digits), rest) ← decimal? text
      let magnitude : Int := digitsValue digits
      let value := if negative then -magnitude else magnitude
      if Word.fitsSigned value then some (.integer value, rest) else none

/-! ## Strings -/

/-- Whether a character may stand in comments and strings: no control character
but the tab. -/
def isPlain (character : Char) : Bool :=
  character == '\t' || (decide (0x20 ≤ character.toNat) && character.toNat != 0x7F)

/-- Skip spaces and tabs. -/
def skipSpaces (text : List Char) : List Char :=
  text.dropWhile fun character => character == ' ' || character == '\t'

/-- The text behind a line end, if there is one. -/
def lineEnd? : List Char → Option (List Char)
  | '\n' :: rest => some rest
  | '\r' :: '\n' :: rest => some rest
  | _ => none

/-- The character with a given code in hexadecimal digits. -/
def codePoint? (digits : List Char) : Option Char := do
  let code ← Text.hexNumber? digits
  if code < 0xD800 ∨ (0xE000 ≤ code ∧ code < 0x110000) then some (Char.ofNat code) else none

/-- Read what follows a backslash, and return what is left to read. -/
def escape? : List Char → Option (Char × List Char)
  | [] => none
  | letter :: rest =>
      if letter = 'u' then
        if 4 ≤ rest.length then (codePoint? (rest.take 4)).map (·, rest.drop 4) else none
      else if letter = 'U' then
        if 8 ≤ rest.length then (codePoint? (rest.take 8)).map (·, rest.drop 8) else none
      else if letter = 'b' then some ('\x08', rest)
      else if letter = 't' then some ('\t', rest)
      else if letter = 'n' then some ('\n', rest)
      else if letter = 'f' then some ('\x0c', rest)
      else if letter = 'r' then some ('\r', rest)
      else if letter = '"' ∨ letter = '\\' then some (letter, rest)
      else none

/-- Read a string up to its closing quote, collecting characters in reverse. -/
def quoted? (fuel : Nat) (read text : List Char) : Option (String × List Char) :=
  match fuel, text with
  | 0, _ => none
  | _, [] => none
  | fuel + 1, character :: rest =>
      if character = '"' then some (String.ofList read.reverse, rest)
      else if character = '\\' then
        match escape? rest with
        | some (escaped, rest) => quoted? fuel (escaped :: read) rest
        | none => none
      else if isPlain character then quoted? fuel (character :: read) rest
      else none

/-- Read a string without escapes up to its closing apostrophe. -/
def literal? (read : List Char) : List Char → Option (String × List Char)
  | [] => none
  | character :: rest =>
      if character = '\'' then some (String.ofList read.reverse, rest)
      else if isPlain character then literal? (character :: read) rest
      else none

/-- The blanks and line ends at the start of a text skipped. -/
def skipLines : List Char → List Char
  | ' ' :: rest => skipLines rest
  | '\t' :: rest => skipLines rest
  | '\n' :: rest => skipLines rest
  | '\r' :: '\n' :: rest => skipLines rest
  | text => text

/-- The text behind the line end that follows a backslash, possibly after spaces. -/
def foldedLine? (text : List Char) : Option (List Char) :=
  (lineEnd? (skipSpaces text)).map skipLines

/-- Close a string of several lines with a run of delimiters, of which the last
three close it and up to two belong to it. -/
def closeLines (delimiter : Char) (read : List Char) (run : Nat) (rest : List Char) :
    Option (String × List Char) :=
  if run ≤ 5 then
    some (String.ofList (List.replicate (run - 3) delimiter ++ read).reverse, rest)
  else none

/-- Read a string of several lines up to its closing delimiters.  Escapes are read
if the delimiter is the quote.  Line ends become line feeds. -/
def lines? (delimiter : Char) (fuel : Nat) (read text : List Char) :
    Option (String × List Char) :=
  match fuel, text with
  | 0, _ => none
  | _, [] => none
  | fuel + 1, character :: rest =>
      if character = delimiter then
        let run := (text.takeWhile (· == delimiter)).length
        if 3 ≤ run then closeLines delimiter read run (text.drop run)
        else lines? delimiter fuel (character :: read) rest
      else if character = '\\' ∧ delimiter = '"' then
        match foldedLine? rest with
        | some rest => lines? delimiter fuel read rest
        | none =>
            match escape? rest with
            | some (escaped, rest) => lines? delimiter fuel (escaped :: read) rest
            | none => none
      else
        match lineEnd? text with
        | some rest => lines? delimiter fuel ('\n' :: read) rest
        | none =>
            if isPlain character then lines? delimiter fuel (character :: read) rest else none

/-- The text without the line end that it may start with. -/
def dropLineEnd (text : List Char) : List Char :=
  (lineEnd? text).getD text

/-- Read a string of one line. -/
def lineString? : List Char → Option (String × List Char)
  | '"' :: rest => quoted? (rest.length + 1) [] rest
  | '\'' :: rest => literal? [] rest
  | _ => none

/-- Read a string of any kind. -/
def string? : List Char → Option (String × List Char)
  | '"' :: '"' :: '"' :: rest => lines? '"' (rest.length + 1) [] (dropLineEnd rest)
  | '\'' :: '\'' :: '\'' :: rest => lines? '\'' (rest.length + 1) [] (dropLineEnd rest)
  | text => lineString? text

/-- Read a scalar. -/
def scalar? (text : List Char) : Option (Value × List Char) :=
  match text with
  | 't' :: 'r' :: 'u' :: 'e' :: rest => some (.boolean true, rest)
  | 'f' :: 'a' :: 'l' :: 's' :: 'e' :: rest => some (.boolean false, rest)
  | '"' :: _ => (string? text).map fun (value, rest) => (.string value, rest)
  | '\'' :: _ => (string? text).map fun (value, rest) => (.string value, rest)
  | _ =>
      match moment? text with
      | some (moment, rest) => some (.moment moment, rest)
      | none => (pointed? text).or ((named? text).or (integer? text))

end Toml
end StagePipeline
