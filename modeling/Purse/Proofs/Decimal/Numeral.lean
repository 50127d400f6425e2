import Mathlib.Algebra.Order.Field.Power
import Mathlib.Data.Rat.Cast.Order
import Purse.Decimal.Numeral
import Purse.Proofs.Text.Digits

/-!
# Reading numerals

A numeral is read from the left: digits, a point with digits, an exponent. Each part is found again
in front of anything that it could not go on into. `Numeral.toRat` is the number that a numeral
stands for, without any rounding, and `Numeral.readExact?` reads a text as such a number.
-/

namespace Purse.Numeral

open Text (EndsDigits)

variable {rest ds places : List Char}

/-! ### The parts of a numeral -/

/-- A text that begins with a digit has no sign. -/
theorem sign_of_isDigit {c : Char} {cs : List Char} (digit : c.isDigit) :
    sign (c :: cs) = (false, c :: cs) := by
  unfold sign
  split
  · next h =>
    cases h
    exact absurd digit (by decide)
  · next h =>
    cases h
    exact absurd digit (by decide)
  · rfl

theorem fractionRun_point (digits : ∀ c ∈ places, c.isDigit) (stop : EndsDigits rest) :
    fractionRun ('.' :: (places ++ rest)) = (some places, rest) := by
  rw [fractionRun, Text.digitRun_append digits stop]

theorem fractionRun_of_ne (other : rest.head? ≠ some '.') : fractionRun rest = (none, rest) := by
  unfold fractionRun
  split
  · exact absurd rfl other
  · rfl

/-- An exponent as it is written: with a sign in any case. -/
theorem exponent?_append {negative : Bool} (some_ : ds ≠ []) (digits : ∀ c ∈ ds, c.isDigit)
    (stop : EndsDigits rest) :
    exponent? ('e' :: (if negative then '-' else '+') :: (ds ++ rest)) =
      some (some (negative, ds), rest) := by
  have run := Text.digits1?_append some_ digits stop
  cases negative with
  | true => simp [exponent?, sign, run]
  | false => simp [exponent?, sign, run]

theorem exponent?_of_ne (other : ∀ c ∈ rest.head?, c ≠ 'e' ∧ c ≠ 'E') :
    exponent? rest = some (none, rest) := by
  cases rest with
  | nil => rfl
  | cons c cs =>
    obtain ⟨lower, upper⟩ := other c rfl
    simp [exponent?, lower, upper]

/-! ### Numerals in documents -/

/-- The characters of the point and the digits after it. -/
def pointChars : Option (List Char) → List Char
  | some places => '.' :: places
  | none => []

/-- The characters of an exponent. -/
def exponentChars : Option (Bool × List Char) → List Char
  | some (negative, ds) => 'e' :: (if negative then '-' else '+') :: ds
  | none => []

theorem chars_eq (n : Numeral) :
    n.chars = (if n.negative then ['-'] else []) ++ n.whole ++ pointChars n.fraction ++
      exponentChars n.exponent := rfl

/-- The form of numerals in documents: digits without a superfluous leading zero, and some digits
after a point and in an exponent. -/
structure WellFormed (n : Numeral) : Prop where
  whole : Text.IsWholeNumeral n.whole
  fraction : ∀ places ∈ n.fraction, places ≠ [] ∧ ∀ c ∈ places, c.isDigit
  exponent : ∀ e ∈ n.exponent, e.2 ≠ [] ∧ ∀ c ∈ e.2, c.isDigit

/-- An integer is written in that form. -/
theorem wellFormed_ofInt (k : Int) : (ofInt k).WellFormed where
  whole := Text.isWholeNumeral_decimal k.natAbs
  fraction _ h := nomatch h
  exponent _ h := nomatch h

/-! ### The exact value -/

/-- The rational number that a numeral stands for. -/
def toRat (n : Numeral) : ℚ :=
  let places := n.fraction.getD []
  let magnitude : ℚ := Text.natOfDigits (n.whole ++ places) * 10 ^ (n.scale - places.length)
  if n.negative then -magnitude else magnitude

/-- **The rational number that a text writes:** an optional sign, and a numeral. -/
def readExact? (text : String) : Option ℚ :=
  let (negative, cs) := sign text.toList
  (unsigned? negative cs).map toRat

/-- Digits with a point between them are a numeral. -/
theorem unsigned?_point {negative : Bool} (some_ : ds ≠ []) (digits : ∀ c ∈ ds, c.isDigit)
    (digits' : ∀ c ∈ places, c.isDigit) :
    unsigned? negative (ds ++ '.' :: places) = some ⟨negative, ds, some places, none⟩ := by
  have whole : Text.digitRun (ds ++ '.' :: places) = (ds, '.' :: places) :=
    Text.digitRun_append digits (Text.endsDigits_cons.2 rfl)
  have fraction : fractionRun ('.' :: places) = (some places, []) := by
    have run := fractionRun_point digits' Text.endsDigits_nil
    rwa [List.append_nil] at run
  have nonempty : ds.isEmpty = false := by
    cases ds with
    | nil => exact absurd rfl some_
    | cons => rfl
  simp [unsigned?, whole, fraction, nonempty, exponent?]

end Purse.Numeral
