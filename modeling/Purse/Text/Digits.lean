/-!
# Digits

Decimal and hexadecimal digits as characters, and the two directions between a natural number and
its digits. Everything that prints or reads a number in this library goes through this module, so
that what is known about a printed number is known once: `natOfDigits_decimal` says that the decimal
digits of a number read back as it.
-/

namespace Purse.Text

/-- The decimal digits of `n`, most significant first, with no superfluous leading zero. -/
def decimal (n : Nat) : List Char :=
  Nat.toDigits 10 n

/-- The decimal digits of `n`, filled up on the left with zeros to at least `width` characters. -/
def padded (width n : Nat) : List Char :=
  List.replicate (width - (decimal n).length) '0' ++ decimal n

/-- The decimal digits of an integer, with `-` in front of a negative one. -/
def integer : Int → List Char
  | .ofNat n => decimal n
  | .negSucc n => '-' :: decimal (n + 1)

/-- The number that a run of decimal digits stands for. -/
def natOfDigits (ds : List Char) : Nat :=
  Nat.ofDigitChars 10 ds 0

@[simp] theorem natOfDigits_decimal (n : Nat) : natOfDigits (decimal n) = n :=
  Nat.ofDigitChars_ten_toDigits

@[simp] theorem natOfDigits_padded (width n : Nat) : natOfDigits (padded width n) = n := by
  simp [natOfDigits, padded, Nat.ofDigitChars_append, Nat.ofDigitChars_replicate_zero, decimal,
    Nat.ofDigitChars_ten_toDigits]

theorem isDigit_of_mem_decimal {c : Char} {n : Nat} (h : c ∈ decimal n) : c.isDigit :=
  Nat.isDigit_of_mem_toDigits (by decide) (by decide) h

theorem decimal_ne_nil (n : Nat) : decimal n ≠ [] :=
  Nat.toDigits_ne_nil

/-- The longest run of decimal digits at the front, and what follows it. -/
def digitRun (cs : List Char) : List Char × List Char :=
  cs.span Char.isDigit

/-- A run of decimal digits that is not empty, and what follows it. -/
def digits1? (cs : List Char) : Option (List Char × List Char) :=
  match digitRun cs with
  | ([], _) => none
  | run => some run

/-- The value of a hexadecimal digit, of either case. -/
def hexValue? (c : Char) : Option (Fin 16) :=
  if c.isDigit then some (Fin.ofNat 16 (c.toNat - '0'.toNat))
  else if 'a' ≤ c ∧ c ≤ 'f' then some (Fin.ofNat 16 (c.toNat - 'a'.toNat + 10))
  else if 'A' ≤ c ∧ c ≤ 'F' then some (Fin.ofNat 16 (c.toNat - 'A'.toNat + 10))
  else none

/-- The lower-case hexadecimal digit of a value. -/
def hexDigit (d : Fin 16) : Char :=
  Nat.digitChar d.val

@[simp] theorem hexValue?_hexDigit (d : Fin 16) : hexValue? (hexDigit d) = some d := by
  revert d; decide

/-- The number that a run of hexadecimal digits stands for, if all of them are such digits. -/
def natOfHex? (cs : List Char) : Option Nat :=
  cs.foldlM (fun n c => (hexValue? c).map fun d => 16 * n + d.val) 0

/-- The lower-case hexadecimal digits of `n`, filled up on the left with zeros to `width`
characters. -/
def hexPadded (width n : Nat) : List Char :=
  let ds := Nat.toDigits 16 n
  List.replicate (width - ds.length) '0' ++ ds

/-- Equality of two texts up to the case of their ASCII letters. -/
def sameLetters (a b : List Char) : Bool :=
  a.map Char.toLower == b.map Char.toLower

/-- What follows `start` in `cs`, if `cs` begins with it. -/
def after? : (start cs : List Char) → Option (List Char)
  | [], cs => some cs
  | _ :: _, [] => none
  | s :: start, c :: cs => if s = c then after? start cs else none

@[simp] theorem after?_append (start cs : List Char) : after? start (start ++ cs) = some cs := by
  induction start with
  | nil => simp [after?]
  | cons s start ih => simp [after?, ih]

end Purse.Text
