import Mathlib.Algebra.Order.Field.Power
import Mathlib.Data.Int.Log
import Mathlib.Data.Rat.Floor
import Mathlib.Tactic.Linarith
import Mathlib.Tactic.NormNum
import Mathlib.Tactic.Positivity
import Mathlib.Tactic.Ring

/-!
# The nearest double

`Binary64.nearest` rounds a positive rational number to the nearest double, with a significand of 53
bits and no exponent below that of the subnormal doubles; a number half way between two doubles goes
to the even significand. There is no greatest exponent here, so a number that is too large for a
double is rounded all the same.

A rounding never crosses a power of two (`nearest_le_zpow`), and errs by at most half a unit in the
last place, which is a relative error of `2 ^ (-53)` as long as the number is not subnormal
(`nearest_le_mul`, `le_nearest_mul`).
-/

namespace Purse.Binary64

variable {q : ℚ}

/-! ### The nearest integer -/

/-- The nearest integer, a half going to the even one. -/
def nearestInt (q : ℚ) : ℤ :=
  if Int.fract q < 1 / 2 then ⌊q⌋ else if Int.fract q = 1 / 2 then ⌊q⌋ + ⌊q⌋ % 2 else ⌊q⌋ + 1

theorem floor_le_nearestInt (q : ℚ) : ⌊q⌋ ≤ nearestInt q := by
  have parity := Int.emod_nonneg ⌊q⌋ (by decide : (2 : ℤ) ≠ 0)
  unfold nearestInt
  split
  · exact le_refl _
  · split
    · exact le_add_of_nonneg_right parity
    · exact le_add_of_nonneg_right zero_le_one

theorem nearestInt_le_floor_add_one (q : ℚ) : nearestInt q ≤ ⌊q⌋ + 1 := by
  have parity := Int.emod_lt_of_pos ⌊q⌋ (by decide : (0 : ℤ) < 2)
  unfold nearestInt
  split
  · omega
  · split
    · omega
    · exact le_refl _

/-- The error is at most one half. -/
theorem abs_nearestInt_sub_le (q : ℚ) : |(nearestInt q : ℚ) - q| ≤ 1 / 2 := by
  have parts := Int.floor_add_fract q
  have low := Int.fract_nonneg q
  have high := Int.fract_lt_one q
  have parity := Int.emod_two_eq_zero_or_one ⌊q⌋
  rw [abs_le]
  unfold nearestInt
  split
  · constructor <;> linarith
  · next above =>
    split
    · next half =>
      -- on a half both neighbours are equally near
      rcases parity with h | h <;> rw [h] <;> push_cast <;> constructor <;> linarith
    · push_cast
      constructor <;> linarith

/-- A rounding does not pass an integer. -/
theorem nearestInt_le {n : ℤ} (h : q ≤ n) : nearestInt q ≤ n := by
  rcases h.lt_or_eq with h | rfl
  · exact (nearestInt_le_floor_add_one q).trans (Int.add_one_le_iff.2 (Int.floor_lt.2 h))
  · simp [nearestInt]

theorem le_nearestInt {n : ℤ} (h : (n : ℚ) ≤ q) : n ≤ nearestInt q :=
  (Int.le_floor.2 h).trans (floor_le_nearestInt q)

/-! ### The nearest double -/

/-- The exponent of the doubles next to a number: its leading bit is the 53rd, unless it is
subnormal. -/
def targetExponent (q : ℚ) : ℤ := max (Int.log 2 q - 52) (-1074)

/-- **The nearest double** to a positive number, if doubles had no greatest exponent. -/
def nearest (q : ℚ) : ℚ := nearestInt (q / 2 ^ targetExponent q) * 2 ^ targetExponent q

/-- The unit in the last place. -/
theorem unit_pos (q : ℚ) : (0 : ℚ) < 2 ^ targetExponent q := zpow_pos two_pos _

theorem abs_nearest_sub_le (q : ℚ) : |nearest q - q| ≤ 2 ^ (targetExponent q - 1) := by
  have unit := unit_pos q
  have scaled : nearest q - q = (nearestInt (q / 2 ^ targetExponent q) - q / 2 ^ targetExponent q) *
      2 ^ targetExponent q := by
    rw [nearest, sub_mul, div_mul_cancel₀ _ unit.ne']
  calc |nearest q - q|
      = |(nearestInt (q / 2 ^ targetExponent q) : ℚ) - q / 2 ^ targetExponent q| *
        2 ^ targetExponent q := by
        rw [scaled, abs_mul, abs_of_pos unit]
    _ ≤ 1 / 2 * 2 ^ targetExponent q := by gcongr; exact abs_nearestInt_sub_le _
    _ = 2 ^ (targetExponent q - 1) := by rw [zpow_sub_one₀ (by norm_num)]; ring

/-- In units of the last place a power of two is an integer. -/
theorem zpow_div_unit {k : ℤ} (hk : targetExponent q ≤ k) :
    (2 : ℚ) ^ k / 2 ^ targetExponent q = ((2 ^ (k - targetExponent q).toNat : ℤ) : ℚ) := by
  rw [← zpow_sub₀ (by norm_num), Int.cast_pow, Int.cast_ofNat, ← zpow_natCast,
    Int.toNat_of_nonneg (by omega)]

theorem log_le {k : ℤ} (hq : 0 < q) (h : q ≤ 2 ^ k) : Int.log 2 q ≤ k := by
  have hlog : Int.log 2 q ≤ Int.log 2 ((2 : ℚ) ^ k) := Int.log_mono_right hq h
  rwa [show (2 : ℚ) ^ k = ((2 : ℕ) : ℚ) ^ k by norm_num, Int.log_zpow (by decide)] at hlog

theorem le_log {k : ℤ} (h : 2 ^ k ≤ q) : k ≤ Int.log 2 q := by
  have hlog : Int.log 2 ((2 : ℚ) ^ k) ≤ Int.log 2 q := Int.log_mono_right (zpow_pos two_pos _) h
  rwa [show (2 : ℚ) ^ k = ((2 : ℕ) : ℚ) ^ k by norm_num, Int.log_zpow (by decide)] at hlog

theorem targetExponent_le {k : ℤ} (hq : 0 < q) (hk : -1074 ≤ k) (h : q ≤ 2 ^ k) :
    targetExponent q ≤ k := by
  have hlog := log_le hq h
  unfold targetExponent
  omega

/-- **A rounding does not pass a power of two** on the way up. -/
theorem nearest_le_zpow {k : ℤ} (hq : 0 < q) (hk : -1074 ≤ k) (h : q ≤ 2 ^ k) :
    nearest q ≤ 2 ^ k := by
  -- in units of the last place the power is an integer, and no rounding passes an integer
  have whole := zpow_div_unit (targetExponent_le hq hk h)
  have bound : nearestInt (q / 2 ^ targetExponent q) ≤ 2 ^ (k - targetExponent q).toNat := by
    refine nearestInt_le ?_
    rw [← whole]
    gcongr
  calc nearest q ≤ ((2 ^ (k - targetExponent q).toNat : ℤ) : ℚ) * 2 ^ targetExponent q := by
        unfold nearest
        gcongr
    _ = 2 ^ k := by rw [← whole, div_mul_cancel₀ _ (unit_pos q).ne']

theorem zpow_lt_of_lt_nearest {k : ℤ} (hq : 0 < q) (hk : -1074 ≤ k) (h : 2 ^ k < nearest q) :
    2 ^ k < q := by
  by_contra le
  exact absurd (nearest_le_zpow hq hk (not_lt.mp le)) (not_le.mpr h)

/-- A rounding does not pass a power of two on the way down. -/
theorem zpow_le_nearest {k : ℤ} (hk : targetExponent q ≤ k) (h : 2 ^ k ≤ q) :
    2 ^ k ≤ nearest q := by
  have whole := zpow_div_unit hk
  have bound : 2 ^ (k - targetExponent q).toNat ≤ nearestInt (q / 2 ^ targetExponent q) := by
    refine le_nearestInt ?_
    rw [← whole]
    gcongr
  calc (2 : ℚ) ^ k = ((2 ^ (k - targetExponent q).toNat : ℤ) : ℚ) * 2 ^ targetExponent q := by
        rw [← whole, div_mul_cancel₀ _ (unit_pos q).ne']
    _ ≤ nearest q := by
        unfold nearest
        gcongr

/-- A number that is not subnormal is far above its unit in the last place. -/
theorem half_unit_le (normal : 2 ^ (-1022 : ℤ) ≤ q) :
    (2 : ℚ) ^ (targetExponent q - 1) ≤ 2 ^ Int.log 2 q * 2 ^ (-53 : ℤ) := by
  have least := le_log normal
  rw [← zpow_add₀ (by norm_num)]
  refine zpow_le_zpow_right₀ one_le_two ?_
  unfold targetExponent
  omega

/-- **A rounding adds at most one part in `2 ^ 53`.** -/
theorem nearest_le_mul (hq : 0 < q) (normal : 2 ^ (-1022 : ℤ) ≤ q) :
    nearest q ≤ q * (1 + 2 ^ (-53 : ℤ)) := by
  have error := (abs_le.1 (abs_nearest_sub_le q)).2
  have small := half_unit_le normal
  have leading : (2 : ℚ) ^ Int.log 2 q ≤ q := Int.zpow_log_le_self (by decide) hq
  have scaled : (2 : ℚ) ^ Int.log 2 q * 2 ^ (-53 : ℤ) ≤ q * 2 ^ (-53 : ℤ) := by gcongr
  linarith

/-- **A rounding takes away at most one part in `2 ^ 53`.** -/
theorem le_nearest_mul (hq : 0 < q) (normal : 2 ^ (-1022 : ℤ) ≤ q) :
    q ≤ nearest q * (1 + 2 ^ (-53 : ℤ)) := by
  have error := (abs_le.1 (abs_nearest_sub_le q)).1
  have small := half_unit_le normal
  -- the error is measured by the leading power of two, which the rounding does not pass
  have leading : (2 : ℚ) ^ Int.log 2 q ≤ nearest q := by
    have least := le_log normal
    exact zpow_le_nearest (by unfold targetExponent; omega) (Int.zpow_log_le_self (by decide) hq)
  have scaled : (2 : ℚ) ^ Int.log 2 q * 2 ^ (-53 : ℤ) ≤ nearest q * 2 ^ (-53 : ℤ) := by gcongr
  linarith

end Purse.Binary64
