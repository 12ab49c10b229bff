/-!
# Blank characters

The characters that separate words in any script, and the text without the
blanks at its two ends.
-/

namespace StagePipeline
namespace Text

/-- The inclusive code point ranges of blank characters. -/
def blankRanges : List (Nat × Nat) :=
  [(0x0009, 0x000D), (0x0020, 0x0020), (0x0085, 0x0085), (0x00A0, 0x00A0),
    (0x1680, 0x1680), (0x2000, 0x200A), (0x2028, 0x2029), (0x202F, 0x202F),
    (0x205F, 0x205F), (0x3000, 0x3000)]

/-- Whether a character is blank. -/
def isBlank (character : Char) : Bool :=
  blankRanges.any fun range =>
    decide (range.1 ≤ character.toNat) && decide (character.toNat ≤ range.2)

/-- The text without leading blanks. -/
def trimStart (text : List Char) : List Char :=
  text.dropWhile isBlank

/-- The text without leading and trailing blanks. -/
def trim (text : List Char) : List Char :=
  (trimStart (trimStart text).reverse).reverse

/-- The small letter of one of the letters A to Z, also of the sign for kelvins. -/
def smallLetter (letter : Char) : Char :=
  if letter = '\u212a' then 'k' else letter.toLower

/-- The text in which the letters A to Z are replaced by a to z. -/
def lowerCase (text : String) : String :=
  String.ofList (text.toList.map smallLetter)

end Text
end StagePipeline
