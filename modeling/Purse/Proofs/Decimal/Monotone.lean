import Purse.Proofs.Decimal.Order
import Purse.Proofs.Decimal.Product

/-!
# Rounding keeps the order

A larger number is never rounded to a smaller double (`nearest_mono`): numbers with one exponent are
rounded on one grid, and between numbers with different exponents lies a power of two, which no
rounding passes. Doubles themselves are compared as the numbers that they stand for
(`le_iff_toRat_le`), although the comparison looks at exponents and significands only: the
significand of the larger exponent has its leading bit.
-/

namespace Purse.Binary64

open Float.Model Float.Model.UnpackedFloat

/-! ### The nearest double -/

section Rational

variable {p q : ℚ}

theorem nearestInt_mono (h : p ≤ q) : nearestInt p ≤ nearestInt q := by
  rcases (Int.floor_mono h).lt_or_eq with less | same
  · calc nearestInt p ≤ ⌊p⌋ + 1 := nearestInt_le_floor_add_one p
      _ ≤ ⌊q⌋ := less
      _ ≤ nearestInt q := floor_le_nearestInt q
  · -- with one integer part the fractions decide
    have fracts : Int.fract p ≤ Int.fract q := by
      rw [Int.fract, Int.fract, same]
      exact sub_le_sub_right h _
    rcases lt_or_ge (Int.fract p) (1 / 2) with down | up
    · calc nearestInt p = ⌊q⌋ := by rw [nearestInt, if_pos down, same]
        _ ≤ nearestInt q := floor_le_nearestInt q
    · rcases up.lt_or_eq with above | half
      · have above' : 1 / 2 < Int.fract q := above.trans_le fracts
        rw [nearestInt, nearestInt, if_neg (not_lt.2 above.le), if_neg above.ne',
          if_neg (not_lt.2 above'.le), if_neg above'.ne', same]
      -- on a half the parity decides, which is that of the same integer part
      · rcases (half ▸ fracts : (1 / 2 : ℚ) ≤ Int.fract q).lt_or_eq with above' | half'
        · have parity := Int.emod_lt_of_pos ⌊q⌋ (by decide : (0 : ℤ) < 2)
          rw [nearestInt, nearestInt, if_neg (not_lt.2 half.le), if_pos half.symm,
            if_neg (not_lt.2 above'.le), if_neg above'.ne', same]
          omega
        · rw [nearestInt, nearestInt, ← half, ← half', same]

theorem targetExponent_mono (pos : 0 < p) (h : p ≤ q) : targetExponent p ≤ targetExponent q := by
  have log : Int.log 2 p ≤ Int.log 2 q := Int.log_mono_right pos h
  unfold targetExponent
  omega

/-- **The nearest double of a larger number is no smaller.** -/
theorem nearest_mono (pos : 0 < p) (h : p ≤ q) : nearest p ≤ nearest q := by
  rcases (targetExponent_mono pos h).lt_or_eq with less | same
  · -- the leading bit of the larger number lies above the smaller one
    have between : p ≤ 2 ^ Int.log 2 q := by
      have below : Int.log 2 p + 1 ≤ Int.log 2 q := by
        unfold targetExponent at less
        omega
      calc p ≤ 2 ^ (Int.log 2 p + 1) := (Int.lt_zpow_succ_log_self (by decide) p).le
        _ ≤ 2 ^ Int.log 2 q := zpow_le_zpow_right₀ one_le_two below
    have normal : -1074 ≤ Int.log 2 q ∧ targetExponent q ≤ Int.log 2 q := by
      unfold targetExponent at less ⊢
      omega
    calc nearest p ≤ 2 ^ Int.log 2 q := nearest_le_zpow pos normal.1 between
      _ ≤ nearest q := zpow_le_nearest normal.2 (Int.zpow_log_le_self (by decide) (pos.trans_le h))
  · have scaled : p / 2 ^ targetExponent q ≤ q / 2 ^ targetExponent q :=
      div_le_div_of_nonneg_right h (unit_pos q).le
    unfold nearest
    rw [same]
    exact mul_le_mul_of_nonneg_right (by exact_mod_cast nearestInt_mono scaled) (unit_pos q).le

/-- What is not below the least double is not rounded to zero. -/
theorem nearest_pos (h : 2 ^ (-1074 : ℤ) ≤ q) : 0 < nearest q := by
  have least : (0 : ℚ) < 2 ^ (-1074 : ℤ) := zpow_pos two_pos _
  have unit : targetExponent (2 ^ (-1074 : ℤ)) ≤ -1074 := targetExponent_le least le_rfl le_rfl
  calc 0 < 2 ^ (-1074 : ℤ) := least
    _ ≤ nearest (2 ^ (-1074 : ℤ)) := zpow_le_nearest unit le_rfl
    _ ≤ nearest q := nearest_mono least h

end Rational

/-! ### The order of the doubles -/

variable {x y : Float} {m n : Nat} {e k : Int}

/-- Of two significands with different exponents, the one with the larger exponent is long. -/
theorem Canonical.lt_of_exponent_lt (c : Canonical m e) (d : Canonical n k) (less : e < k) :
    (m : ℚ) * 2 ^ e < n * 2 ^ k := by
  have long : 2 ^ 52 ≤ n := by
    by_contra short
    have := d.exponent_eq (not_le.1 short)
    have := c.le_exponent
    omega
  have short : (m : ℚ) < 2 ^ 53 := by exact_mod_cast c.lt
  calc (m : ℚ) * 2 ^ e < 2 ^ 53 * 2 ^ e := by gcongr
    _ = 2 ^ 52 * 2 ^ (e + 1) := by rw [zpow_add_one₀ two_ne_zero]; ring
    _ ≤ n * 2 ^ k := by
      gcongr
      · exact_mod_cast long
      · exact one_le_two
      · exact less

theorem le_iff_lexical {pos : 0 < m} {pos' : 0 < n}
    (hx : x.toModel.unpack = .finite .positive m e pos)
    (hy : y.toModel.unpack = .finite .positive n k pos') :
    x ≤ y ↔ ((compare e k).then (compare m n)).isLE := by
  have atMost : x ≤ y ↔ ((x.toModel.unpack.compare y.toModel.unpack).any Ordering.isLE) = true :=
    decide_eq_true_iff
  rw [atMost, hx, hy]
  rfl

/-- **Doubles above zero compare as what they stand for.** -/
theorem le_iff_toRat_le (hx : IsPositive x) (hy : IsPositive y) : x ≤ y ↔ toRat x ≤ toRat y := by
  obtain ⟨m, e, pos, hx⟩ := hx
  obtain ⟨n, k, pos', hy⟩ := hy
  have c := (canonical_of_unpack hx).1
  have d := (canonical_of_unpack hy).1
  rw [le_iff_lexical hx hy, toRat_of_unpack hx, toRat_of_unpack hy]
  rcases lt_trichotomy e k with less | rfl | more
  · rw [Int.compare_eq_lt.2 less]
    exact iff_of_true rfl (c.lt_of_exponent_lt d less).le
  · rw [Int.compare_eq_eq.2 rfl, mul_le_mul_iff_left₀ (zpow_pos two_pos e), Nat.cast_le]
    exact Nat.isLE_compare
  · rw [Int.compare_eq_gt.2 more]
    exact iff_of_false Bool.false_ne_true (not_le.2 (d.lt_of_exponent_lt c more))

/-- What lies between two finite doubles above zero is one of these, too. -/
theorem IsPositive.of_between {z : Float} (hx : IsPositive x) (hy : IsPositive y) (low : x ≤ z)
    (high : z ≤ y) : IsPositive z := by
  obtain ⟨m, e, pos, hx⟩ := hx
  obtain ⟨n, k, pos', hy⟩ := hy
  have low : ((x.toModel.unpack.compare z.toModel.unpack).any Ordering.isLE) = true :=
    decide_eq_true_iff.1 low
  have high : ((z.toModel.unpack.compare y.toModel.unpack).any Ordering.isLE) = true :=
    decide_eq_true_iff.1 high
  rw [hx] at low
  rw [hy] at high
  cases hz : z.toModel.unpack with
  | finite s =>
    cases s with
    | positive => exact ⟨_, _, _, hz⟩
    | negative =>
      rw [hz] at low
      cases low
  | zero s =>
    rw [hz] at low
    cases low
  -- what is infinite lies above all that is finite, or below it
  | infinity s =>
    rw [hz] at low high
    cases s with
    | positive => cases high
    | negative => cases low
  | notANumber =>
    rw [hz] at low
    cases low

end Purse.Binary64
