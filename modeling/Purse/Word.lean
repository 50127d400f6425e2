/-!
# Words

The numbers that fit words of a given size. Settings, documents and parameters hold numbers that
have to fit a word, and what does not fit is an error of theirs, never cut off.
-/

namespace Purse.Word

/-- How many numbers a word of `bits` bits can hold. -/
def size (bits : Nat) : Nat := Nat.pow 2 bits

/-- The greatest number of a word without sign. -/
def greatest (bits : Nat) : Nat := size bits - 1

/-- Whether a number fits a word with sign, of one bit more than `bits`. -/
def fitsSigned (bits : Nat) (n : Int) : Bool :=
  -(size bits : Int) ≤ n && n < size bits

end Purse.Word
