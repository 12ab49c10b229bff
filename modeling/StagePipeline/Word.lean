/-!
# Words

Numbers that fit 64 bits, and buffers that can be addressed by them.
-/

namespace StagePipeline
namespace Word

/-- Natural numbers below this one fit a word. -/
def limit : Nat := Nat.pow 2 64

/-- Integers below this number, and not below its negative, fit a word with a
sign. -/
def signedLimit : Nat := Nat.pow 2 63

/-- Whether an integer fits a word with a sign. -/
def fitsSigned (value : Int) : Bool :=
  decide (-(signedLimit : Int) ≤ value) && decide (value < signedLimit)

/-- The size in bytes of the largest buffer that can be addressed. -/
def addressableBytes : Nat := Nat.pow 2 63 - 1

/-- Whether a buffer for that many items of that many bytes each can be addressed. -/
def fitsBuffer (count bytes : Nat) : Bool :=
  decide (count * bytes ≤ addressableBytes)

end Word
end StagePipeline
