import Purse.MinorUnits
import Purse.Proofs.Decimal.Truncation

/-!
# What an amount comes to

An amount crosses into minor units by one product and one cut. What is left of the product is
compared with two limits, all of them doubles, and the comparisons come to the same as if they were
made on integers (`MinorUnits.beyond_iff`). `MinorUnits.ofAmount?_eq_some_iff` says what the amount
comes to: the integer part of the nearest double to a hundred times the amount. The rest of that
double is what was cut off (`MinorUnits.cutOff`); up to a rounding the two together are the amount
(`MinorUnits.units_le`, `MinorUnits.amount_le`).

An exchange crosses twice. What it debits is cut off the amount, and what it credits is cut off the
amount times the rate, not off the debit times the rate. So the credit follows the amount with all
its digits, and is bounded by the debit only together with what was cut off
(`MinorUnits.credit_le`).
-/

namespace Purse

namespace Binary64

theorem isPositive_hundred : IsPositive 100.0 := isPositive_iff.2 (by decide)

theorem toRat_hundred : toRat 100.0 = 100 := by
  have h : ofFloat 100.0 = .finite false 7036874417766400 (-46) := by decide
  rw [toRat, h, value, signed]
  norm_num

theorem isPositive_greatest : IsPositive 9223372036854775807.0 := isPositive_iff.2 (by decide)

/-- The greatest count, as a double, is the first number that is too large for a count. -/
theorem toRat_greatest : toRat 9223372036854775807.0 = 2 ^ 63 := by
  have h : ofFloat 9223372036854775807.0 = .finite false 4503599627370496 11 := by decide
  rw [toRat, h, value, signed]
  norm_num

end Binary64

namespace MinorUnits

open Binary64

variable {amount rate x : Float} {units debit credit : MinorUnits}

/-! ### The limits -/

/-- What is cut off is too large if its integer part is no count. -/
theorem greatest_le_trunc_iff (h : IsPositive x) (one_le : 1 ≤ ⌊toRat x⌋) :
    9223372036854775807.0 ≤ trunc x ↔ greatest < ⌊toRat x⌋ := by
  rw [h.le_trunc_iff isPositive_greatest one_le, toRat_greatest, greatest]
  constructor
  · intro le
    have : (2 ^ 63 : ℤ) ≤ ⌊toRat x⌋ := by exact_mod_cast le
    omega
  · intro lt
    have : (2 ^ 63 : ℤ) ≤ ⌊toRat x⌋ := by omega
    exact_mod_cast this

/-- What is not too large becomes a count as it is. -/
theorem units_clamp_trunc (h : IsPositive x) (one_le : 1 ≤ ⌊toRat x⌋) (le : ⌊toRat x⌋ ≤ greatest) :
    (clamp (trunc x)).units = ⌊toRat x⌋ := by
  obtain ⟨positive, whole⟩ := h.toRat_trunc one_le
  have floor : ⌊toRat (trunc x)⌋ = ⌊toRat x⌋ := by rw [whole, Int.floor_intCast]
  rw [← floor] at le ⊢
  exact positive.clampToInt_eq (by decide) le

/-- **The limits of a product,** compared as doubles, let pass what is positive and has a count above
zero for its integer part. -/
theorem beyond_iff (pos : IsPositive amount) :
    (trunc (amount * 100.0) < 1.0 ∨ 9223372036854775807.0 ≤ trunc (amount * 100.0)) ↔
      ¬ (IsPositive (amount * 100.0) ∧ 1 ≤ ⌊toRat (amount * 100.0)⌋ ∧
        ⌊toRat (amount * 100.0)⌋ ≤ greatest) := by
  -- a product that is zero is below the limits and one that is infinite is above them, so only a
  -- finite one has to be cut off
  rcases pos.mul_cases isPositive_hundred with zero | product | infinite
  · refine iff_of_true (.inl ?_) fun ⟨⟨_, _, _, product⟩, _⟩ => nomatch zero.symm.trans product
    rw [trunc_of_zero zero]
    exact lt_of_unpack_zero zero isPositive_one
  · rw [product.trunc_lt_one_iff]
    by_cases one_le : 1 ≤ ⌊toRat (amount * 100.0)⌋
    · rw [greatest_le_trunc_iff product one_le]
      simp [product, one_le]
    · exact iff_of_true (.inl (not_le.1 one_le)) fun within => one_le within.2.1
  · refine iff_of_true (.inr ?_) fun ⟨⟨_, _, _, product⟩, _⟩ => nomatch infinite.symm.trans product
    rw [trunc_of_infinity infinite]
    exact le_of_unpack_infinity infinite isPositive_greatest

/-- **What an amount comes to:** the integer part of its product by a hundred, if that is a count
above zero. -/
theorem ofAmount?_eq_some_iff : ofAmount? amount = some units ↔
    IsPositive amount ∧ IsPositive (amount * 100.0) ∧ 1 ≤ units.units ∧
    units.units = ⌊toRat (amount * 100.0)⌋ := by
  unfold ofAmount?
  by_cases pos : IsPositive amount
  · obtain ⟨above, finite⟩ := Binary64.isPositive_iff.1 pos
    rw [if_neg (by simp [above, finite])]
    simp only [Bool.or_eq_true, decide_eq_true_iff, ge_iff_le]
    -- what passes the limits is kept by the conversion, bounds and all
    by_cases within : IsPositive (amount * 100.0) ∧ 1 ≤ ⌊toRat (amount * 100.0)⌋ ∧
        ⌊toRat (amount * 100.0)⌋ ≤ greatest
    · have whole := units_clamp_trunc within.1 within.2.1 within.2.2
      rw [if_neg ((beyond_iff pos).not_left.2 within), Option.some.injEq]
      constructor
      · rintro rfl
        exact ⟨pos, within.1, whole ▸ within.2.1, whole⟩
      · rintro ⟨-, -, -, h⟩
        exact MinorUnits.ext (whole.trans h.symm)
    · rw [if_pos ((beyond_iff pos).2 within)]
      refine iff_of_false nofun fun ⟨_, product, one_le, h⟩ => within ?_
      exact ⟨product, h ▸ one_le, h ▸ units.upper⟩
  · have refused : (!decide (amount > 0.0) || !amount.isFinite) = true := by
      rw [Binary64.isPositive_iff] at pos
      simpa [Classical.or_iff_not_imp_left] using pos
    rw [if_pos refused]
    exact iff_of_false nofun fun ⟨h, _⟩ => pos h

/-- An amount that is accepted is finite. -/
theorem ofAmount?_isFinite (h : ofAmount? amount = some units) : amount.isFinite :=
  (Binary64.isPositive_iff.1 (ofAmount?_eq_some_iff.1 h).1).2

/-- An amount that is accepted comes to something. -/
theorem ofAmount?_pos (h : ofAmount? amount = some units) : 0 < units.units :=
  (ofAmount?_eq_some_iff.1 h).2.2.1

/-- The product behind an amount that comes to something. More than a half of a unit is needed for
that, so the product is far from the subnormal numbers and its rounding error is relative. -/
theorem ofAmount?_product (h : ofAmount? amount = some units) :
    toRat (amount * 100.0) = nearest (toRat amount * 100) ∧ 2 ^ (-1 : ℤ) < toRat amount * 100 := by
  obtain ⟨pos, product, one_le, floor⟩ := ofAmount?_eq_some_iff.mp h
  have eq := (toRat_mul pos product).2
  rw [toRat_hundred] at eq
  refine ⟨eq, ?_⟩
  have one_le : (1 : ℚ) ≤ nearest (toRat amount * 100) := by
    rw [← eq]
    exact_mod_cast Int.le_floor.mp (floor ▸ one_le)
  refine zpow_lt_of_lt_nearest (mul_pos pos.toRat_pos (by norm_num)) (by decide)
    (lt_of_lt_of_le ?_ one_le)
  norm_num

theorem normal_of_half_lt {q : ℚ} (h : 2 ^ (-1 : ℤ) < q) : 2 ^ (-1022 : ℤ) ≤ q :=
  le_trans (zpow_le_zpow_right₀ one_le_two (by decide)) h.le

/-- The units exceed the amount by one rounding at most. -/
theorem units_le (h : ofAmount? amount = some units) :
    (units.units : ℚ) ≤ toRat amount * 100 * (1 + 2 ^ (-53 : ℤ)) := by
  obtain ⟨-, -, -, floor⟩ := ofAmount?_eq_some_iff.mp h
  obtain ⟨eq, half⟩ := ofAmount?_product h
  calc (units.units : ℚ) ≤ toRat (amount * 100.0) := by rw [floor]; exact Int.floor_le _
    _ = nearest (toRat amount * 100) := eq
    _ ≤ toRat amount * 100 * (1 + 2 ^ (-53 : ℤ)) :=
      nearest_le_mul (lt_trans (by norm_num) half) (normal_of_half_lt half)

/-- The amount exceeds the product it is cut from by one rounding at most. -/
theorem amount_le (h : ofAmount? amount = some units) :
    toRat amount * 100 ≤ toRat (amount * 100.0) * (1 + 2 ^ (-53 : ℤ)) := by
  obtain ⟨eq, half⟩ := ofAmount?_product h
  rw [eq]
  exact le_nearest_mul (lt_trans (by norm_num) half) (normal_of_half_lt half)

/-- What is credited exceeds the amount at the rate by two roundings at most: the one of the product
by the rate and the one of the product by a hundred. -/
theorem converted_le (pos : IsPositive amount) (h : ofConverted? amount rate = some credit) :
    0 < toRat rate ∧
    (credit.units : ℚ) ≤ toRat amount * 100 * toRat rate * (1 + 2 ^ (-53 : ℤ)) ^ 2 := by
  obtain ⟨product, -⟩ := ofAmount?_eq_some_iff.mp h
  obtain ⟨ratePos, eq⟩ := toRat_mul pos product
  refine ⟨ratePos.toRat_pos, ?_⟩
  have hq : 0 < toRat amount * toRat rate := mul_pos pos.toRat_pos ratePos.toRat_pos
  -- At a hundredth of the half, the product by the rate is far from the subnormal numbers, too.
  have normal : 2 ^ (-1022 : ℤ) ≤ toRat amount * toRat rate := by
    have half := (ofAmount?_product h).2
    have least : (2 : ℚ) ^ (-8 : ℤ) < nearest (toRat amount * toRat rate) := by
      rw [← eq]
      norm_num at half ⊢
      linarith
    exact le_trans (zpow_le_zpow_right₀ one_le_two (by decide))
      (zpow_lt_of_lt_nearest hq (by decide) least).le
  calc (credit.units : ℚ) ≤ toRat (amount * rate) * 100 * (1 + 2 ^ (-53 : ℤ)) := units_le h
    _ = nearest (toRat amount * toRat rate) * 100 * (1 + 2 ^ (-53 : ℤ)) := by rw [eq]
    _ ≤ toRat amount * toRat rate * (1 + 2 ^ (-53 : ℤ)) * 100 * (1 + 2 ^ (-53 : ℤ)) := by
      gcongr
      exact nearest_le_mul hq normal
    _ = toRat amount * 100 * toRat rate * (1 + 2 ^ (-53 : ℤ)) ^ 2 := by ring

/-- The part of a minor unit that is cut off an amount. -/
def cutOff (amount : Float) : ℚ := Int.fract (toRat (amount * 100.0))

theorem cutOff_nonneg (amount : Float) : 0 ≤ cutOff amount := Int.fract_nonneg _

theorem cutOff_lt_one (amount : Float) : cutOff amount < 1 := Int.fract_lt_one _

/-- The units and what was cut off are all of the product. -/
theorem units_add_cutOff (h : ofAmount? amount = some units) :
    units.units + cutOff amount = toRat (amount * 100.0) := by
  rw [(ofAmount?_eq_some_iff.mp h).2.2.2]
  exact Int.floor_add_fract _

/-! ### The two legs of an exchange -/

section Legs

variable (debited : ofAmount? amount = some debit)
    (credited : ofConverted? amount rate = some credit)
include debited credited

/-- **What is credited** exceeds what is debited, with what was cut off, by three roundings at
most. -/
theorem credit_le :
    (credit.units : ℚ) ≤ (debit.units + cutOff amount) * toRat rate * (1 + 2 ^ (-53 : ℤ)) ^ 3 := by
  obtain ⟨ratePos, le⟩ := converted_le (ofAmount?_eq_some_iff.mp debited).1 credited
  -- the debit and what was cut off are one rounding below the amount, the credit is two above it
  have cut := amount_le debited
  rw [units_add_cutOff debited]
  calc (credit.units : ℚ) ≤ toRat amount * 100 * toRat rate * (1 + 2 ^ (-53 : ℤ)) ^ 2 := le
    _ ≤ toRat (amount * 100.0) * (1 + 2 ^ (-53 : ℤ)) * toRat rate *
      (1 + 2 ^ (-53 : ℤ)) ^ 2 := by gcongr
    _ = toRat (amount * 100.0) * toRat rate * (1 + 2 ^ (-53 : ℤ)) ^ 3 := by ring

/-- Three roundings come to less than a unit, up to three thousand million million units. -/
theorem credit_lt (limit : (debit.units + cutOff amount) * toRat rate ≤ 3 * 10 ^ 15) :
    (credit.units : ℚ) < (debit.units + cutOff amount) * toRat rate + 1 := by
  have le := credit_le debited credited
  norm_num at le limit ⊢
  linarith

end Legs

end MinorUnits

end Purse
