import Purse.Proofs.Decimal.Product

/-!
# Quotients of doubles

The quotient of two positive doubles is the nearest double to the exact quotient, or infinite if
that is too large (`unpack_div_finite`). Division works on the significands: it divides as integers,
far enough to the right, and remembers of the remainder only how it compares with half of the
divisor. `standsFor_fraction` says that this is enough to round.

The quotient that matters here is a reciprocal. That of a positive double is never zero, since even
the reciprocal of the greatest double is far above the least (`reciprocal_pos`). But the doubles
reach further down than up: at `2 ^ (-1024)` and below the reciprocal is too large for a double, and
`isFinite_reciprocal_iff` says that this is the only exception.
-/

namespace Purse.Binary64

open Float.Model (Format UnpackedFloat)
open Float.Model.UnpackedFloat

/-! ### Integer division with a remainder -/

/-- **The remainder of a division tells how the quotient goes on:** whether anything follows, and
whether it is below one half, one half or above. -/
theorem standsFor_fraction {a n : Nat} (pos : 0 < n) :
    StandsFor (.ofMantissaAndAccuracy (a / n) (accuracyOfFraction (a % n) n)) (a / n : ℚ) := by
  have divisor : (0 : ℚ) < n := by exact_mod_cast pos
  have parts : (a / n : ℚ) = (a / n : ℕ) + (a % n : ℕ) / n := by
    rw [eq_comm, ← eq_sub_iff_add_eq', div_eq_iff divisor.ne', sub_mul,
      div_mul_cancel₀ _ divisor.ne', eq_sub_iff_add_eq]
    exact_mod_cast Nat.mod_add_div' a n
  have below : ((a % n : ℕ) : ℚ) / n < 1 := by
    rw [div_lt_one divisor]
    exact_mod_cast Nat.mod_lt a pos
  rw [parts]
  unfold accuracyOfFraction
  split
  · next none_ =>
    rw [none_, Nat.cast_zero, zero_div, add_zero]
    exact standsFor_exact _
  · next some_ =>
    have above : (0 : ℚ) < ((a % n : ℕ) : ℚ) / n :=
      div_pos (by exact_mod_cast Nat.pos_of_ne_zero some_) divisor
    cases compared : compare (2 * (a % n)) n with
    | lt =>
      have half : ((a % n : ℕ) : ℚ) / n < 1 / 2 := by
        rw [div_lt_div_iff₀ divisor two_pos, one_mul, mul_comm]
        exact_mod_cast Nat.compare_eq_lt.1 compared
      exact ⟨_, above.le, half, iff_of_true rfl above,
        by simp [ExtendedMantissa.ofMantissaAndAccuracy]⟩
    | eq =>
      have half : ((a % n : ℕ) : ℚ) / n = 1 / 2 := by
        rw [div_eq_div_iff divisor.ne' two_ne_zero, one_mul, mul_comm]
        exact_mod_cast Nat.compare_eq_eq.1 compared
      exact ⟨0, le_refl _, by norm_num, iff_of_false Bool.false_ne_true (lt_irrefl _),
        by simp [ExtendedMantissa.ofMantissaAndAccuracy, half]⟩
    | gt =>
      have half : 1 / 2 < ((a % n : ℕ) : ℚ) / n := by
        rw [div_lt_div_iff₀ two_pos divisor, one_mul, mul_comm _ (2 : ℚ)]
        exact_mod_cast Nat.compare_eq_gt.1 compared
      exact ⟨((a % n : ℕ) : ℚ) / n - 1 / 2, sub_nonneg.2 half.le, by linarith,
        iff_of_true rfl (sub_pos.2 half), by simp [ExtendedMantissa.ofMantissaAndAccuracy]⟩

/-! ### Division -/

theorem unpack_div (x y : Float) : (x / y).toModel.unpack = UnpackedFloat.unpack .binary64
    (pack .binary64 (UnpackedFloat.div .binary64 x.toModel.unpack y.toModel.unpack)) := rfl

/-- The exponent at which two significands are divided. -/
def quotientExponent (m₁ : Nat) (e₁ : Int) (m₂ : Nat) (e₂ : Int) : Int :=
  min (e₁ - e₂) (Format.binary64.targetExponent
    (Float.Model.totalExponent m₁ e₁ - Float.Model.totalExponent m₂ e₂))

/-- How far the dividend is shifted to the left before. -/
def quotientShift (m₁ : Nat) (e₁ : Int) (m₂ : Nat) (e₂ : Int) : Nat :=
  (e₁ - e₂ - quotientExponent m₁ e₁ m₂ e₂).toNat

theorem div_finite (s₁ s₂ : Sign) {m₁ m₂ : Nat} (e₁ e₂ : Int) (pos₁ : 0 < m₁) (pos₂ : 0 < m₂) :
    UnpackedFloat.div .binary64 (.finite s₁ m₁ e₁ pos₁) (.finite s₂ m₂ e₂ pos₂) =
      roundWithAccuracy .binary64 (s₁ / s₂) ((m₁ <<< quotientShift m₁ e₁ m₂ e₂) / m₂)
        (quotientExponent m₁ e₁ m₂ e₂)
        (accuracyOfFraction ((m₁ <<< quotientShift m₁ e₁ m₂ e₂) % m₂) m₂) := rfl

section Quotient

variable {m₁ m₂ : Nat} (e₁ e₂ : Int) (pos₁ : 0 < m₁) (pos₂ : 0 < m₂)
include pos₁ pos₂

/-- In units of the quotient's exponent the exact quotient is that of the shifted significands. -/
theorem shifted_div_eq :
    (m₁ * 2 ^ e₁ / (m₂ * 2 ^ e₂) : ℚ) / 2 ^ quotientExponent m₁ e₁ m₂ e₂ =
      ((m₁ <<< quotientShift m₁ e₁ m₂ e₂ : ℕ) : ℚ) / m₂ := by
  have le : quotientExponent m₁ e₁ m₂ e₂ ≤ e₁ - e₂ := min_le_left _ _
  have shift : ((quotientShift m₁ e₁ m₂ e₂ : ℕ) : ℤ) = e₁ - e₂ - quotientExponent m₁ e₁ m₂ e₂ :=
    Int.toNat_of_nonneg (by omega)
  have divisor : (m₂ : ℚ) ≠ 0 := by exact_mod_cast pos₂.ne'
  rw [Nat.shiftLeft_eq, Nat.cast_mul, Nat.cast_pow, Nat.cast_ofNat, ← zpow_natCast, shift,
    zpow_sub₀ two_ne_zero, zpow_sub₀ two_ne_zero]
  field_simp

/-- The quotient is computed to all bits of the double that it is rounded to. -/
theorem quotientExponent_le :
    quotientExponent m₁ e₁ m₂ e₂ ≤ targetExponent (m₁ * 2 ^ e₁ / (m₂ * 2 ^ e₂)) := by
  have dividend : (0 : ℚ) < m₁ := by exact_mod_cast pos₁
  have divisor : (0 : ℚ) < m₂ := by exact_mod_cast pos₂
  -- the quotient of the leading bits is at most one place above the leading bit of the quotient
  have leading : (2 : ℚ) ^ ((m₁.log2 + e₁) - (m₂.log2 + 1 + e₂) : ℤ) ≤
      m₁ * 2 ^ e₁ / (m₂ * 2 ^ e₂) := by
    have low : (2 : ℚ) ^ m₁.log2 ≤ m₁ := by exact_mod_cast Nat.log2_self_le pos₁.ne'
    have high : (m₂ : ℚ) ≤ 2 ^ (m₂.log2 + 1) := by exact_mod_cast Nat.lt_log2_self.le
    rw [zpow_sub₀ two_ne_zero, zpow_add₀ two_ne_zero, zpow_add₀ two_ne_zero, zpow_natCast,
      ← Nat.cast_succ, zpow_natCast]
    gcongr
  have log := le_log leading
  unfold quotientExponent targetExponent
  rw [targetExponent_binary64, Float.Model.totalExponent, Float.Model.totalExponent]
  omega

end Quotient

/-- **The quotient of two finite doubles,** if it does not lie below all doubles, is rounded to the
nearest double, or is infinite if that is too large. -/
theorem unpack_div_finite {x y : Float} {s₁ s₂ : Sign} {m₁ m₂ : Nat} {e₁ e₂ : Int} {pos₁ : 0 < m₁}
    {pos₂ : 0 < m₂} (hx : x.toModel.unpack = .finite s₁ m₁ e₁ pos₁)
    (hy : y.toModel.unpack = .finite s₂ m₂ e₂ pos₂)
    (least : 2 ^ (-1074 : ℤ) ≤ (m₁ * 2 ^ e₁ / (m₂ * 2 ^ e₂) : ℚ)) :
    ∃ (n : ℕ) (k : ℤ), Canonical n k ∧ (n : ℚ) * 2 ^ k = nearest (m₁ * 2 ^ e₁ / (m₂ * 2 ^ e₂)) ∧
      (x / y).toModel.unpack = if k ≤ 971 then signedOf (s₁ / s₂) n k else .infinity (s₁ / s₂) := by
  have eq := shifted_div_eq e₁ e₂ pos₁ pos₂
  have le := quotientExponent_le e₁ e₂ pos₁ pos₂
  generalize hq : (m₁ * 2 ^ e₁ / (m₂ * 2 ^ e₂) : ℚ) = q at *
  have above : 0 < q := lt_of_lt_of_le (zpow_pos two_pos _) least
  -- the quotient of the significands has a leading bit
  have one_le : 1 ≤ q / 2 ^ quotientExponent m₁ e₁ m₂ e₂ := by
    rw [one_le_div (zpow_pos two_pos _)]
    refine le_trans (zpow_le_zpow_right₀ one_le_two le) ?_
    rcases le_total (Int.log 2 q - 52) (-1074) with h | h
    · rwa [targetExponent, max_eq_right h]
    · rw [targetExponent, max_eq_left h]
      exact le_trans (zpow_le_zpow_right₀ one_le_two (Int.sub_le_self _ (by decide)))
        (Int.zpow_log_le_self (by decide) above)
  have some_ : 0 < (m₁ <<< quotientShift m₁ e₁ m₂ e₂) / m₂ := by
    rw [eq, one_le_div (by exact_mod_cast pos₂)] at one_le
    exact Nat.div_pos (by exact_mod_cast one_le) pos₂
  have floor : ⌊q / 2 ^ quotientExponent m₁ e₁ m₂ e₂⌋ =
      ((m₁ <<< quotientShift m₁ e₁ m₂ e₂ / m₂ : ℕ) : ℤ) := by
    rw [eq, Rat.floor_natCast_div_natCast]
    rfl
  obtain ⟨n, k, canonical, value, rounded⟩ :=
    roundWithAccuracy_eq (s₁ / s₂) some_ above (eq ▸ standsFor_fraction pos₂) floor le
  refine ⟨n, k, canonical, value, ?_⟩
  rw [unpack_div, hx, hy, ← unpack_pack_signedOf canonical, ← rounded, div_finite]

/-! ### The range of the doubles -/

/-- The exponent is one of a double exactly if the number is below all that are too large. -/
theorem Canonical.le_iff {n : Nat} {k : Int} (c : Canonical n k) :
    k ≤ 971 ↔ (n : ℚ) * 2 ^ k < 2 ^ (1024 : ℤ) := by
  have unit : (0 : ℚ) < 2 ^ k := zpow_pos two_pos _
  constructor
  · intro le
    have short : (n : ℚ) < 2 ^ (53 : ℤ) := by exact_mod_cast c.lt
    calc (n : ℚ) * 2 ^ k < 2 ^ (53 : ℤ) * 2 ^ k := by gcongr
      _ ≤ 2 ^ (53 : ℤ) * 2 ^ (971 : ℤ) := by gcongr; exact one_le_two
      _ = 2 ^ (1024 : ℤ) := by rw [← zpow_add₀ two_ne_zero]; rfl
  · intro lt
    by_contra above
    have long : 2 ^ 52 ≤ n := by
      by_contra short
      have := c.exponent_eq (not_le.1 short)
      omega
    refine absurd lt (not_lt.2 ?_)
    calc (2 : ℚ) ^ (1024 : ℤ) = 2 ^ (52 : ℤ) * 2 ^ (972 : ℤ) := by rw [← zpow_add₀ two_ne_zero]; rfl
      _ ≤ 2 ^ (52 : ℤ) * 2 ^ k := by gcongr; exacts [one_le_two, by omega]
      _ ≤ n * 2 ^ k := by gcongr; exact_mod_cast long

/-- A positive double is below all numbers that are too large. -/
theorem IsPositive.toRat_lt {x : Float} (h : IsPositive x) : toRat x < 2 ^ (1024 : ℤ) := by
  obtain ⟨m, e, pos, hx⟩ := h
  obtain ⟨canonical, le⟩ := canonical_of_unpack hx
  rw [toRat_of_unpack hx]
  exact canonical.le_iff.1 le

/-- No positive double is below the least one. -/
theorem IsPositive.le_toRat {x : Float} (h : IsPositive x) : 2 ^ (-1074 : ℤ) ≤ toRat x := by
  obtain ⟨m, e, pos, hx⟩ := h
  have least := (canonical_of_unpack hx).1.le_exponent
  have some_ : (1 : ℚ) ≤ m := by exact_mod_cast pos
  rw [toRat_of_unpack hx]
  calc (2 : ℚ) ^ (-1074 : ℤ) ≤ 2 ^ e := zpow_le_zpow_right₀ one_le_two least
    _ ≤ m * 2 ^ e := le_mul_of_one_le_left (zpow_pos two_pos _).le some_

/-- Between a quarter of the least normal double and the next double there is none. -/
theorem IsPositive.le_toRat_of_lt {x : Float} (h : IsPositive x) (lt : 2 ^ (-1024 : ℤ) < toRat x) :
    (2 ^ 50 + 1) * 2 ^ (-1074 : ℤ) ≤ toRat x := by
  obtain ⟨m, e, pos, hx⟩ := h
  have canonical := (canonical_of_unpack hx).1
  have least := canonical.le_exponent
  rw [toRat_of_unpack hx] at lt ⊢
  by_cases short : m < 2 ^ 52
  · obtain rfl := canonical.exponent_eq short
    have more : 2 ^ 50 < m := by
      have parts : (2 : ℚ) ^ (-1024 : ℤ) = 2 ^ 50 * 2 ^ (-1074 : ℤ) := by
        rw [← zpow_natCast, ← zpow_add₀ two_ne_zero]
        rfl
      rw [parts, mul_lt_mul_iff_left₀ (zpow_pos two_pos _)] at lt
      exact_mod_cast lt
    gcongr
    exact_mod_cast more
  · have long : (2 ^ 50 + 1 : ℚ) ≤ m := by
      have : 2 ^ 50 + 1 ≤ m := by omega
      exact_mod_cast this
    gcongr
    exact one_le_two

/-! ### Reciprocals -/

theorem unpack_one : ∃ pos, (1.0 : Float).toModel.unpack = .finite .positive (2 ^ 52) (-52) pos :=
  ⟨Nat.two_pow_pos 52, rfl⟩

section Reciprocal

variable {r : Float} (h : IsPositive r)
include h

/-- **The reciprocal of a positive double** is the nearest double to the exact one, or infinite if
that is too large. In no case it is zero. -/
theorem unpack_reciprocal : ∃ (n : ℕ) (k : ℤ) (pos : 0 < n), Canonical n k ∧
    (n : ℚ) * 2 ^ k = nearest (1 / toRat r) ∧
      (1.0 / r).toModel.unpack =
        if k ≤ 971 then .finite .positive n k pos else .infinity .positive := by
  have above := h.toRat_pos
  have below := h.toRat_lt
  obtain ⟨m, e, pos, hr⟩ := h
  obtain ⟨one, h1⟩ := unpack_one
  have dividend : ((2 ^ 52 : ℕ) * 2 ^ (-52 : ℤ) : ℚ) = 1 := by norm_num
  rw [toRat_of_unpack hr] at *
  have more : (2 : ℚ) ^ (-1024 : ℤ) ≤ 1 / (m * 2 ^ e) := by
    rw [zpow_neg, ← one_div]
    exact one_div_le_one_div_of_le above below.le
  have least : (2 : ℚ) ^ (-1074 : ℤ) ≤ 1 / (m * 2 ^ e) :=
    le_trans (zpow_le_zpow_right₀ one_le_two (by decide)) more
  obtain ⟨n, k, canonical, value, eq⟩ := unpack_div_finite h1 hr (by rw [dividend]; exact least)
  rw [dividend] at value
  have some_ : 0 < n := by
    -- the leading bit is not rounded away
    have target : targetExponent (1 / (m * 2 ^ e)) ≤ Int.log 2 (1 / (m * 2 ^ e) : ℚ) := by
      have := le_log more
      unfold targetExponent
      omega
    have := zpow_le_nearest target (Int.zpow_log_le_self (by decide) (by positivity))
    have some_ : (0 : ℚ) < n * 2 ^ k := by
      rw [value]
      exact lt_of_lt_of_le (zpow_pos two_pos _) this
    exact_mod_cast pos_of_mul_pos_left some_ (zpow_pos two_pos k).le
  refine ⟨n, k, some_, canonical, value, ?_⟩
  rw [eq, signedOf, dif_neg some_.ne']
  rfl

/-- **A reciprocal is above zero.** -/
theorem reciprocal_pos : 1.0 / r > 0.0 := by
  obtain ⟨n, k, pos, -, -, eq⟩ := unpack_reciprocal h
  have above : UnpackedFloat.lt (.zero .positive) (1.0 / r).toModel.unpack = true := by
    rw [eq]
    split <;> rfl
  exact decide_eq_true above

/-- **A reciprocal is finite** if and only if the number is above `2 ^ (-1024)`. -/
theorem isFinite_reciprocal_iff : (1.0 / r).isFinite ↔ 2 ^ (-1024 : ℤ) < toRat r := by
  have above := h.toRat_pos
  obtain ⟨n, k, pos, canonical, value, eq⟩ := unpack_reciprocal h
  have finite : (1.0 / r).isFinite ↔ nearest (1 / toRat r) < 2 ^ (1024 : ℤ) := by
    rw [← value, ← canonical.le_iff]
    change (1.0 / r).toModel.unpack.isFinite ↔ _
    rw [eq]
    split
    · next le => exact iff_of_true rfl le
    · next large => exact iff_of_false Bool.false_ne_true large
  rw [finite]
  have positive : 0 < 1 / toRat r := one_div_pos.2 above
  constructor
  · intro small
    by_contra tiny
    -- the reciprocal is at least a power of two that is too large, and no rounding passes that
    have large : (2 : ℚ) ^ (1024 : ℤ) ≤ 1 / toRat r := by
      rw [le_one_div (zpow_pos two_pos _) above, one_div, ← zpow_neg]
      exact not_lt.1 tiny
    have limit : 1 / toRat r ≤ 2 ^ (1074 : ℤ) := by
      rw [one_div_le above (zpow_pos two_pos _), one_div, ← zpow_neg]
      exact h.le_toRat
    have target : targetExponent (1 / toRat r) ≤ 1024 := by
      have := log_le positive limit
      unfold targetExponent
      omega
    exact absurd small (not_lt.2 (zpow_le_nearest target large))
  · intro lt
    rcases le_total (1 / toRat r) (2 ^ (1023 : ℤ)) with small | large
    · calc nearest (1 / toRat r) ≤ 2 ^ (1023 : ℤ) := nearest_le_zpow positive (by decide) small
        _ < 2 ^ (1024 : ℤ) := zpow_lt_zpow_right₀ one_lt_two (by decide)
    -- next to the limit the distance to it is larger than a rounding
    · have normal : (2 : ℚ) ^ (-1022 : ℤ) ≤ 1 / toRat r :=
        le_trans (zpow_le_zpow_right₀ one_le_two (by decide)) large
      have bound : 1 / toRat r ≤ 2 ^ (1074 : ℤ) / (2 ^ 50 + 1) := by
        rw [div_le_div_iff₀ above (by norm_num), one_mul]
        have scale : (0 : ℚ) ≤ 2 ^ (1074 : ℤ) := (zpow_pos two_pos 1074).le
        have := mul_le_mul_of_nonneg_left (h.le_toRat_of_lt lt) scale
        rwa [mul_left_comm, ← zpow_add₀ two_ne_zero, add_neg_cancel, zpow_zero, mul_one] at this
      calc nearest (1 / toRat r) ≤ 1 / toRat r * (1 + 2 ^ (-53 : ℤ)) :=
          nearest_le_mul positive normal
        _ ≤ 2 ^ (1074 : ℤ) / (2 ^ 50 + 1) * (1 + 2 ^ (-53 : ℤ)) := by gcongr
        _ = 2 ^ (1024 : ℤ) * (2 ^ 50 * (1 + 2 ^ (-53 : ℤ)) / (2 ^ 50 + 1)) := by
          rw [show (1074 : ℤ) = 1024 + 50 by rfl, zpow_add₀ two_ne_zero]
          ring
        _ < 2 ^ (1024 : ℤ) := by
          refine mul_lt_of_lt_one_right (zpow_pos two_pos _) ?_
          norm_num

end Reciprocal

end Purse.Binary64
