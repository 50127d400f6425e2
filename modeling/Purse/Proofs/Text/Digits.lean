import Mathlib.Algebra.Group.Nat.Defs
import Mathlib.Data.List.Basic
import Mathlib.Data.List.TakeDrop
import Purse.Text.Digits

/-!
# Runs of digits

What is written digit by digit is read back from the text that it stands in. A run of digits ends
where no digit follows, so it is found again in front of anything of that kind (`digitRun_append`),
and `IsWholeNumeral` is what the digits of a number are like: there are some, and no zero stands in
front of others (`isWholeNumeral_decimal`).
-/

namespace Purse.Text

variable {n width : Nat} {ds rest : List Char}

/-! ### Where a run ends -/

/-- No digit follows. -/
def EndsDigits (cs : List Char) : Prop := ∀ c ∈ cs.head?, c.isDigit = false

@[simp] theorem endsDigits_nil : EndsDigits [] := by
  intro c h
  cases h

@[simp] theorem endsDigits_cons {c : Char} {cs : List Char} :
    EndsDigits (c :: cs) ↔ c.isDigit = false := by
  simp [EndsDigits]

theorem digitRun_append (digits : ∀ c ∈ ds, c.isDigit) (stop : EndsDigits rest) :
    digitRun (ds ++ rest) = (ds, rest) := by
  rw [digitRun, List.span_eq_takeWhile_dropWhile, List.takeWhile_append_of_pos digits,
    List.dropWhile_append_of_pos digits]
  cases rest with
  | nil => simp
  | cons c cs =>
    have none_ := endsDigits_cons.1 stop
    simp [none_]

theorem digits1?_append (some_ : ds ≠ []) (digits : ∀ c ∈ ds, c.isDigit) (stop : EndsDigits rest) :
    digits1? (ds ++ rest) = some (ds, rest) := by
  rw [digits1?, digitRun_append digits stop]
  cases ds with
  | nil => exact absurd rfl some_
  | cons => rfl

/-- The number that digits stand for grows with each run by as many places as the run has. -/
theorem natOfDigits_append (ds es : List Char) :
    natOfDigits (ds ++ es) = natOfDigits ds * 10 ^ es.length + natOfDigits es := by
  rw [natOfDigits, Nat.ofDigitChars_append, Nat.ofDigitChars_eq_ofDigitChars_zero, natOfDigits,
    natOfDigits, Nat.mul_comm]

/-! ### The digits of a number -/

/-- The form of a whole number: some digits, of which the first is zero only if it stands alone. -/
structure IsWholeNumeral (ds : List Char) : Prop where
  ne_nil : ds ≠ []
  digits : ∀ c ∈ ds, c.isDigit
  no_leading_zero : 1 < ds.length → ds.head? ≠ some '0'

/-- A number of one digit is written as that digit. -/
theorem decimal_of_lt (h : n < 10) : decimal n = [Nat.digitChar n] :=
  Nat.toDigits_of_lt_base h

/-- A number of more digits is written as its tenth, and the digit that is left. -/
theorem decimal_of_le (h : 10 ≤ n) : decimal n = decimal (n / 10) ++ [Nat.digitChar (n % 10)] :=
  Nat.toDigits_of_base_le (by decide) h

theorem head?_decimal_ne_zero (pos : 0 < n) : (decimal n).head? ≠ some '0' := by
  induction n using Nat.strongRecOn with
  | ind n ih =>
    rcases Nat.lt_or_ge n 10 with one | more
    · rw [decimal_of_lt one, List.head?_cons, ne_eq, Option.some.injEq, Nat.digitChar_eq_zero]
      exact Nat.ne_of_gt pos
    · -- the leading digit is that of the tenth
      rw [decimal_of_le more, List.head?_append_of_ne_nil _ (decimal_ne_nil _)]
      exact ih (n / 10) (by omega) (by omega)

theorem isWholeNumeral_decimal (n : Nat) : IsWholeNumeral (decimal n) where
  ne_nil := decimal_ne_nil n
  digits _ h := isDigit_of_mem_decimal h
  no_leading_zero long := by
    refine head?_decimal_ne_zero (Nat.pos_of_ne_zero ?_)
    rintro rfl
    exact absurd long (by decide)

theorem isDigit_of_mem_padded {c : Char} (h : c ∈ padded width n) : c.isDigit := by
  rcases List.mem_append.1 h with zero | digit
  · rw [List.eq_of_mem_replicate zero]
    decide
  · exact isDigit_of_mem_decimal digit

/-- A number is filled up to the width if it has no more digits. -/
theorem length_padded (pos : 0 < width) (h : n < 10 ^ width) : (padded width n).length = width := by
  have short : (decimal n).length ≤ width := (Nat.length_toDigits_le_iff (by decide) pos).2 h
  rw [padded, List.length_append, List.length_replicate]
  omega

end Purse.Text
