import Purse.Proofs.Decimal.Monotone

/-!
# Cutting off

A double is cut off toward zero by clearing its digits behind the point. What is left is a double
again (`canonical_wholeDigits`), so nothing is rounded: it stands for the integer part
(`IsPositive.toRat_trunc`), and comparing it with a double or turning it into an integer is exact.
-/

namespace Purse.Binary64

open Float.Model.UnpackedFloat

variable {x : Float} {m : Nat} {e : Int}

/-! ### The integer part -/

theorem wholePart_eq_floor (m : Nat) (e : Int) : (wholePart m e : ℤ) = ⌊(m : ℚ) * 2 ^ e⌋ := by
  cases e with
  | ofNat k =>
    have whole : (m : ℚ) * 2 ^ (Int.ofNat k) = ((m * 2 ^ k : ℕ) : ℚ) := by
      rw [Int.ofNat_eq_natCast, zpow_natCast]
      push_cast
      rfl
    rw [whole, Int.floor_natCast]
    rfl
  | negSucc k =>
    have parts : (m : ℚ) * 2 ^ (Int.negSucc k) = (m : ℚ) / ((2 ^ (k + 1) : ℕ) : ℚ) := by
      rw [zpow_negSucc, div_eq_mul_inv]
      push_cast
      rfl
    rw [parts, Rat.floor_natCast_div_natCast]
    rfl

/-- What is positive and within the bounds is kept as it is, but for what is behind the point. -/
theorem IsPositive.clampToInt_eq {least greatest : Int} (h : IsPositive x) (low : least ≤ 0)
    (high : ⌊toRat x⌋ ≤ greatest) : (ofFloat x).clampToInt least greatest = ⌊toRat x⌋ := by
  have nonneg := Int.floor_nonneg.2 h.toRat_pos.le
  obtain ⟨m, e, pos, hx⟩ := h
  rw [toRat_of_unpack hx, ← wholePart_eq_floor] at high nonneg ⊢
  rw [ofFloat_of_unpack hx, clampToInt, signed, if_neg Bool.false_ne_true, min_eq_right high]
  exact max_eq_right (low.trans nonneg)

/-! ### The double that is left -/

/-- What is left stands for the integer part. -/
theorem wholeDigits_mul (m : Nat) (e : Int) : (wholeDigits m e : ℚ) * 2 ^ e = wholePart m e := by
  cases e with
  | ofNat k =>
    rw [wholeDigits, wholePart, Nat.pow_eq, Int.ofNat_eq_natCast, zpow_natCast]
    push_cast
    rfl
  | negSucc k =>
    have unit : (0 : ℚ) < 2 ^ (k + 1) := pow_pos two_pos _
    rw [wholeDigits, wholePart, Nat.pow_eq, zpow_negSucc]
    push_cast
    exact mul_inv_cancel_right₀ unit.ne' _

/-- Nothing is left exactly if there is nothing before the point. -/
theorem wholeDigits_eq_zero_iff (m : Nat) (e : Int) : wholeDigits m e = 0 ↔ wholePart m e = 0 := by
  have unit : (2 : ℚ) ^ e ≠ 0 := (zpow_pos two_pos e).ne'
  have same := wholeDigits_mul m e
  constructor
  · intro none_
    rw [none_, Nat.cast_zero, zero_mul] at same
    exact_mod_cast same.symm
  · intro none_
    rw [none_, Nat.cast_zero] at same
    exact_mod_cast (mul_eq_zero.1 same).resolve_right unit

theorem wholeDigits_le (m : Nat) (e : Int) : wholeDigits m e ≤ m := by
  cases e with
  | ofNat => exact Nat.le_refl m
  | negSucc k => exact Nat.div_mul_le_self m _

/-- **What is left of the digits of a double has the form of a double,** if anything is left. -/
theorem canonical_wholeDigits (c : Canonical m e) (some_ : wholeDigits m e ≠ 0) :
    Canonical (wholeDigits m e) e where
  lt := (wholeDigits_le m e).trans_lt c.lt
  le_exponent := c.le_exponent
  -- digits behind the point are cleared, but the exponent stays, so a double of full length must keep
  -- its length
  exponent_eq short := by
    by_contra other
    have long : 2 ^ 52 ≤ m := Nat.not_lt.1 fun short => other (c.exponent_eq short)
    refine absurd short (Nat.not_lt.2 ?_)
    cases e with
    | ofNat => exact long
    | negSucc k =>
      -- at least the leading digit stands before the point, and it is not cleared
      have less : k + 1 ≤ 52 := by
        by_contra more
        refine some_ ?_
        have below : m < 2 ^ (k + 1) :=
          c.lt.trans_le (Nat.pow_le_pow_right two_pos (by omega))
        rw [wholeDigits, Nat.pow_eq, Nat.div_eq_of_lt below, Nat.zero_mul]
      calc 2 ^ 52 = 2 ^ 52 / 2 ^ (k + 1) * 2 ^ (k + 1) :=
            (Nat.div_mul_cancel (Nat.pow_dvd_pow 2 less)).symm
        _ ≤ m / 2 ^ (k + 1) * 2 ^ (k + 1) := Nat.mul_le_mul_right _ (Nat.div_le_div_right long)

theorem unpack_trunc {pos : 0 < m} (hx : x.toModel.unpack = .finite .positive m e pos) :
    (trunc x).toModel.unpack = signedOf .positive (wholeDigits m e) e := by
  obtain ⟨canonical, le⟩ := canonical_of_unpack hx
  have packed : (trunc x).toModel.unpack = Float.Model.UnpackedFloat.unpack .binary64
      (pack .binary64 (signedOf .positive (wholeDigits m e) e)) := by
    rw [trunc, hx]
    rfl
  rw [packed]
  by_cases some_ : wholeDigits m e = 0
  · rw [some_]
    exact unpack_pack_zero .positive
  · rw [unpack_pack_signedOf (canonical_wholeDigits canonical some_), if_pos le]

/-- **A positive double that is at least one** is cut off to its integer part. -/
theorem IsPositive.toRat_trunc (h : IsPositive x) (one_le : 1 ≤ ⌊toRat x⌋) :
    IsPositive (trunc x) ∧ toRat (trunc x) = ⌊toRat x⌋ := by
  obtain ⟨m, e, pos, hx⟩ := h
  have left := unpack_trunc hx
  rw [toRat_of_unpack hx, ← wholePart_eq_floor] at one_le ⊢
  have some_ : wholeDigits m e ≠ 0 := by
    intro none_
    have := (wholeDigits_eq_zero_iff m e).1 none_
    omega
  rw [signedOf, dif_neg some_] at left
  exact ⟨⟨_, _, _, left⟩, by rw [toRat_of_unpack left, wholeDigits_mul]; rfl⟩

/-- A positive double below one is cut off to zero. -/
theorem IsPositive.unpack_trunc_of_lt (h : IsPositive x) (lt : ⌊toRat x⌋ < 1) :
    (trunc x).toModel.unpack = .zero .positive := by
  obtain ⟨m, e, pos, hx⟩ := h
  rw [toRat_of_unpack hx, ← wholePart_eq_floor] at lt
  have none_ : wholeDigits m e = 0 := (wholeDigits_eq_zero_iff m e).2 (by omega)
  rw [unpack_trunc hx, none_]
  rfl

theorem trunc_of_zero {s : Sign} (h : x.toModel.unpack = .zero s) : trunc x = x := by
  rw [trunc, h]

theorem trunc_of_infinity {s : Sign} (h : x.toModel.unpack = .infinity s) : trunc x = x := by
  rw [trunc, h]

/-! ### Comparing what is left -/

variable {y : Float}

theorem lt_of_unpack_zero {s : Sign} (hx : x.toModel.unpack = .zero s) (hy : IsPositive y) :
    x < y := by
  obtain ⟨m, e, pos, hy⟩ := hy
  have less : x < y ↔ (x.toModel.unpack.compare y.toModel.unpack == some .lt) = true :=
    decide_eq_true_iff
  rw [less, hx, hy]
  rfl

theorem le_of_unpack_infinity (hx : x.toModel.unpack = .infinity .positive) (hy : IsPositive y) :
    y ≤ x := by
  obtain ⟨m, e, pos, hy⟩ := hy
  have atMost : y ≤ x ↔ ((y.toModel.unpack.compare x.toModel.unpack).any Ordering.isLE) = true :=
    decide_eq_true_iff
  rw [atMost, hx, hy]
  rfl

theorem isPositive_one : IsPositive 1.0 := isPositive_iff.2 (by decide)

theorem toRat_one : toRat 1.0 = 1 := by
  have h : ofFloat 1.0 = .finite false 4503599627370496 (-52) := by decide
  rw [toRat, h, value, signed]
  norm_num

/-- **What is left is at least another double** exactly if the integer part is. -/
theorem IsPositive.le_trunc_iff (hx : IsPositive x) (hy : IsPositive y) (one_le : 1 ≤ ⌊toRat x⌋) :
    y ≤ trunc x ↔ toRat y ≤ ⌊toRat x⌋ := by
  obtain ⟨positive, whole⟩ := hx.toRat_trunc one_le
  rw [le_iff_toRat_le hy positive, whole]

/-- Less than one is left of what is less than one, and of nothing else. -/
theorem IsPositive.trunc_lt_one_iff (hx : IsPositive x) : trunc x < 1.0 ↔ ⌊toRat x⌋ < 1 := by
  by_cases one_le : 1 ≤ ⌊toRat x⌋
  · -- both sides are finite, so `<` is the negation of `≤`
    have left := (isPositive_iff.1 (hx.toRat_trunc one_le).1).2
    have real := (isPositive_iff.1 isPositive_one).2
    rw [← not_iff_not, not_lt_iff_le left real, hx.le_trunc_iff isPositive_one one_le, toRat_one,
      not_lt]
    exact_mod_cast Iff.rfl
  · have lt := not_le.1 one_le
    exact iff_of_true (lt_of_unpack_zero (hx.unpack_trunc_of_lt lt) isPositive_one) lt

end Purse.Binary64
