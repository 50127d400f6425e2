import Mathlib.Tactic.Push
import Mathlib.Tactic.Ring
import Purse.MinorUnits
import Purse.Proofs.Decimal.Numeral

/-!
# What an amount is displayed as

The sign, the whole units and the two digits after the point are produced one by one from the
magnitude of a count. Together they are a numeral, and a hundred times the number that it stands for
is the count, exactly (`MinorUnits.toRat_numeral`): the whole units and the rest of a magnitude are
the magnitude again, and its sign is the one in front. The text is read as that numeral
(`MinorUnits.readExact?_text_eq`), so it determines the amount.
-/

namespace Purse.MinorUnits

variable {u : MinorUnits}

/-- The sign of a count, its whole units and its two digits as a numeral. -/
def numeral (u : MinorUnits) : Numeral :=
  ⟨u.units < 0, Text.decimal (u.units.natAbs / 100),
    some (Text.padded 2 (u.units.natAbs % 100)), none⟩

/-- A hundredth is written with two digits, however small it is. -/
theorem length_cents (n : Nat) : (Text.padded 2 (n % 100)).length = 2 :=
  Text.length_padded (by decide) (Nat.mod_lt n (by decide))

/-- The digits of a count, without the point, stand for its magnitude. -/
theorem natOfDigits_numeral (n : Nat) :
    Text.natOfDigits (Text.decimal (n / 100) ++ Text.padded 2 (n % 100)) = n := by
  rw [Text.natOfDigits_append, Text.natOfDigits_decimal, Text.natOfDigits_padded, length_cents]
  exact Nat.div_add_mod' n 100

theorem toRat_numeral (u : MinorUnits) : u.numeral.toRat * 100 = u.units := by
  have places : ((Text.padded 2 (u.units.natAbs % 100)).length : ℤ) = 2 := by
    rw [length_cents]
    rfl
  have hundredth : (10 : ℚ) ^ (0 - 2 : ℤ) * 100 = 1 := by norm_num
  -- the exact magnitude, a hundred times, is the magnitude of the count
  have magnitude : (u.units.natAbs : ℚ) * 10 ^ (0 - 2 : ℤ) * 100 = u.units.natAbs := by
    rw [mul_assoc, hundredth, mul_one]
  simp only [Numeral.toRat, numeral, Option.getD_some, natOfDigits_numeral, Numeral.scale, places,
    decide_eq_true_eq]
  rcases lt_or_ge u.units 0 with negative | positive
  · have sign : (u.units : ℚ) = -(u.units.natAbs : ℚ) := by
      rw [← Int.cast_natCast, ← Int.cast_neg, Int.cast_inj]
      omega
    rw [if_pos negative, neg_mul, magnitude, sign]
  · have sign : (u.units : ℚ) = u.units.natAbs := by
      rw [← Int.cast_natCast, Int.cast_inj]
      omega
    rw [if_neg (Int.not_lt.2 positive), magnitude, sign]

/-- The text is read as the numeral that it was made from. -/
theorem readExact?_text_eq (u : MinorUnits) : Numeral.readExact? u.text = some u.numeral.toRat := by
  have whole := Text.isWholeNumeral_decimal (u.units.natAbs / 100)
  have parsed (negative : Bool) : Numeral.unsigned? negative
      (Text.decimal (u.units.natAbs / 100) ++ '.' :: Text.padded 2 (u.units.natAbs % 100)) = some
        ⟨negative, Text.decimal (u.units.natAbs / 100),
          some (Text.padded 2 (u.units.natAbs % 100)), none⟩ :=
    Numeral.unsigned?_point whole.ne_nil whole.digits fun _ => Text.isDigit_of_mem_padded
  rcases lt_or_ge u.units 0 with negative | positive
  · have signed : Numeral.sign u.text.toList = (true, Text.decimal (u.units.natAbs / 100) ++
        '.' :: Text.padded 2 (u.units.natAbs % 100)) := by
      simp [text, chars, negative, Numeral.sign]
    simp only [Numeral.readExact?, signed, parsed]
    simp [numeral, negative]
  -- without a sign the first character is a digit, which is no sign either
  · have signed : Numeral.sign u.text.toList = (false, Text.decimal (u.units.natAbs / 100) ++
        '.' :: Text.padded 2 (u.units.natAbs % 100)) := by
      have plain : u.text.toList = Text.decimal (u.units.natAbs / 100) ++
          '.' :: Text.padded 2 (u.units.natAbs % 100) := by
        simp [text, chars, Int.not_lt.2 positive]
      rw [plain]
      cases digits : Text.decimal (u.units.natAbs / 100) with
      | nil => exact absurd digits whole.ne_nil
      | cons c cs => exact Numeral.sign_of_isDigit (whole.digits c (by simp [digits]))
    simp only [Numeral.readExact?, signed, parsed]
    simp [numeral, Int.not_lt.2 positive]

/-- **How a count is displayed:** a minus sign if it is negative, the digits of a whole number, a
point and two digits. As a decimal number this is a hundredth of the count, and no other count is
displayed alike. -/
structure Displayed (u : MinorUnits) (text : String) : Prop where
  form : ∃ whole cents, text.toList = (if u.units < 0 then ['-'] else []) ++ whole ++ '.' :: cents ∧
    Text.IsWholeNumeral whole ∧ cents.length = 2 ∧ ∀ c ∈ cents, c.isDigit
  value : ∃ q, Numeral.readExact? text = some q ∧ q * 100 = u.units
  unique : ∀ v : MinorUnits, v.text = text → v = u

/-- The displayed text determines the count. -/
theorem text_inj {u v : MinorUnits} (same : u.text = v.text) : u = v := by
  have read : u.numeral.toRat = v.numeral.toRat := by
    have := readExact?_text_eq u
    rw [same, readExact?_text_eq v] at this
    exact (Option.some.inj this).symm
  have units : (u.units : ℚ) = v.units := by
    calc (u.units : ℚ) = u.numeral.toRat * 100 := (toRat_numeral u).symm
      _ = v.numeral.toRat * 100 := by rw [read]
      _ = v.units := toRat_numeral v
  exact ext (by exact_mod_cast units)

/-- **Every count is displayed so that the text determines it.** -/
theorem displayed_text (u : MinorUnits) : Displayed u u.text where
  form := ⟨Text.decimal (u.units.natAbs / 100), Text.padded 2 (u.units.natAbs % 100),
    by simp [text, chars], Text.isWholeNumeral_decimal _, length_cents _,
    fun _ h => Text.isDigit_of_mem_padded h⟩
  value := ⟨_, readExact?_text_eq u, toRat_numeral u⟩
  unique _ same := text_inj same

/-- The least count, which is not the opposite of any, and a small negative one. -/
example : (⟨-9223372036854775808, by decide, by decide⟩ : MinorUnits).text =
      "-92233720368547758.08" ∧
    (⟨-5, by decide, by decide⟩ : MinorUnits).text = "-0.05" := by decide

end Purse.MinorUnits
