import Mathlib.Tactic.Push
import Purse.Decimal.Binary64
import Purse.Proofs.Decimal.Nearest

/-!
# Rounding on significands

Products of doubles are computed on their significands: the exact significand is shifted to the
right until it has the length of a double's, with two bits that remember what was shifted out, and
rounded by these. `StandsFor` says what the two bits remember. A shift by one place keeps it
(`StandsFor.shiftRightOne`), and what it says is enough to round (`StandsFor.nearestInt_eq`), so the
result is the nearest double of `Binary64.nearest`: this is `roundWithAccuracy_eq`, for any number
that the significand stands for, exactly or not.
-/

namespace Purse.Binary64

open Float.Model Float.Model.UnpackedFloat

/-! ### The bits that were shifted out -/

/-- **The extended significand stands for the number:** the significand is its integer part, the
round bit says whether the fraction reaches one half, and the sticky bit whether anything is left
beyond that. -/
def StandsFor (em : ExtendedMantissa) (y : ℚ) : Prop :=
  ∃ rest : ℚ, 0 ≤ rest ∧ rest < 1 / 2 ∧ (em.stickyBit = true ↔ 0 < rest) ∧
    y = em.mantissa + (if em.roundBit then 1 / 2 else 0) + rest

variable {em : ExtendedMantissa} {y : ℚ}

theorem standsFor_exact (m : Nat) : StandsFor (.ofMantissaAndAccuracy m .exact) m :=
  ⟨0, le_refl _, by norm_num, by simp [ExtendedMantissa.ofMantissaAndAccuracy],
    by simp [ExtendedMantissa.ofMantissaAndAccuracy]⟩

/-- The bit that is shifted out becomes the round bit, and the two old bits what is left beyond
it. -/
theorem StandsFor.shiftRightOne (h : StandsFor em y) : StandsFor em.shiftRightOne (y / 2) := by
  obtain ⟨rest, low, high, sticky, rfl⟩ := h
  have split : (em.mantissa : ℚ) = 2 * (em.mantissa / 2 : ℕ) + (em.mantissa % 2 : ℕ) := by
    exact_mod_cast (Nat.div_add_mod em.mantissa 2).symm
  -- half of what was beyond the round bit, and a quarter for the round bit itself
  refine ⟨(if em.roundBit then 1 / 4 else 0) + rest / 2, ?_, ?_, ?_, ?_⟩
  · split_ifs <;> linarith
  · split_ifs <;> linarith
  · cases hr : em.roundBit with
    | true => simp [ExtendedMantissa.shiftRightOne, hr]; linarith
    | false => simp [ExtendedMantissa.shiftRightOne, hr, sticky]
  -- the last bit of the significand is the new round bit
  · rcases Nat.mod_two_eq_zero_or_one em.mantissa with even | odd
    · rw [even] at split
      simp only [ExtendedMantissa.shiftRightOne, even, split]
      split_ifs <;> simp_all <;> ring
    · rw [odd] at split
      simp only [ExtendedMantissa.shiftRightOne, odd, split]
      split_ifs <;> simp_all <;> ring

theorem StandsFor.shiftRight (h : StandsFor em y) (k : Nat) : StandsFor (em >>> k) (y / 2 ^ k) := by
  induction k with
  | zero =>
    change StandsFor em _
    simpa using h
  | succ k ih =>
    have next := ih.shiftRightOne
    rwa [div_div, ← pow_succ] at next

/-- **What the bits remember is enough to round.** -/
theorem StandsFor.nearestInt_eq (h : StandsFor em y) : (em.roundedMantissa : ℤ) = nearestInt y := by
  obtain ⟨rest, low, high, sticky, rfl⟩ := h
  obtain ⟨m, r, st⟩ := em
  have floor (f : ℚ) (h0 : 0 ≤ f) (h1 : f < 1) :
      ⌊(m : ℚ) + f⌋ = m ∧ Int.fract ((m : ℚ) + f) = f := by
    have hf : ⌊(m : ℚ) + f⌋ = m :=
      Int.floor_eq_iff.2 ⟨by push_cast; linarith, by push_cast; linarith⟩
    exact ⟨hf, by rw [Int.fract, hf]; push_cast; ring⟩
  -- the fraction is below one half without the round bit, and at least one half with it
  cases r with
  | false =>
    obtain ⟨whole, part⟩ := floor rest low (by linarith)
    have hy : (m : ℚ) + (if false = true then 1 / 2 else 0) + rest = m + rest := by simp
    rw [hy, nearestInt, whole, part, if_pos high]
    cases st <;> rfl
  | true =>
    obtain ⟨whole, part⟩ := floor (1 / 2 + rest) (by linarith) (by linarith)
    have hy : (m : ℚ) + (if true = true then 1 / 2 else 0) + rest =
        m + (1 / 2 + rest) := by simp; ring
    rw [hy, nearestInt, whole, part, if_neg (by linarith)]
    cases st with
    | false =>
      -- exactly one half goes to the even neighbour
      have none_ : rest = 0 := le_antisymm (by simpa using sticky) low
      rw [if_pos (by rw [none_, add_zero])]
      rfl
    | true =>
      have some_ : 0 < rest := by simpa using sticky
      rw [if_neg (by linarith)]
      rfl

/-! ### Rounding a significand -/

/-- **A significand and exponent as a double has them:** 53 bits, fewer only if the exponent is the
least. -/
structure Canonical (m : Nat) (e : Int) : Prop where
  lt : m < 2 ^ 53
  le_exponent : -1074 ≤ e
  exponent_eq : m < 2 ^ 52 → e = -1074

theorem targetExponent_binary64 (n : Int) :
    Format.binary64.targetExponent n = max (n - 53) (-1074) := rfl

theorem shiftToTargetExponent_eq (m : Nat) (e : Int) (a : Accuracy) :
    shiftToTargetExponent .binary64 m e a =
      (ExtendedMantissa.ofMantissaAndAccuracy m a >>>
      (Format.binary64.targetExponent (totalExponent m e) - e).toNat,
        e + (Format.binary64.targetExponent (totalExponent m e) - e).toNat) := rfl

/-- A significand that a double can have is not shifted. -/
theorem shiftToTargetExponent_of_lt {m : Nat} {e : Int} (lt : m < 2 ^ 53) (le : -1074 ≤ e) :
    shiftToTargetExponent .binary64 m e .exact = (⟨m, false, false⟩, e) := by
  have short : m.log2 ≤ 52 := by
    rcases Nat.eq_zero_or_pos m with rfl | pos
    · decide
    · exact Nat.lt_succ_iff.1 ((Nat.log2_lt pos.ne').2 lt)
  have stays : (Format.binary64.targetExponent (totalExponent m e) - e).toNat = 0 := by
    rw [targetExponent_binary64, totalExponent]
    omega
  rw [shiftToTargetExponent_eq, stays, Nat.cast_zero, add_zero]
  rfl

/-- A significand that was rounded up to the next power of two is shifted by one. -/
theorem shiftToTargetExponent_pow {e : Int} (le : -1074 ≤ e) :
    shiftToTargetExponent .binary64 (2 ^ 53) e .exact = (⟨2 ^ 52, false, false⟩, e + 1) := by
  have moves : (Format.binary64.targetExponent (totalExponent (2 ^ 53) e) - e).toNat = 1 := by
    rw [targetExponent_binary64, totalExponent, Nat.log2_two_pow]
    omega
  rw [shiftToTargetExponent_eq, moves]
  rfl

/-- The leading bit of a number is that of its integer part, shifted. -/
theorem log_eq {x : ℚ} {m : Nat} {e : Int} (pos : 0 < m) (hx : 0 < x)
    (floor : ⌊x / 2 ^ e⌋ = (m : ℤ)) :
    Int.log 2 x = m.log2 + e := by
  have unit : (0 : ℚ) < 2 ^ e := zpow_pos two_pos _
  obtain ⟨low, high⟩ := Int.floor_eq_iff.1 floor
  rw [le_div_iff₀ unit] at low
  rw [div_lt_iff₀ unit] at high
  have least : (2 : ℚ) ^ ((m.log2 : ℤ) + e) ≤ x := by
    refine le_trans ?_ low
    rw [zpow_add₀ (by norm_num), zpow_natCast]
    gcongr
    exact_mod_cast Nat.log2_self_le pos.ne'
  have most : x < (2 : ℚ) ^ ((m.log2 : ℤ) + e + 1) := by
    refine lt_of_lt_of_le high ?_
    rw [add_right_comm, zpow_add₀ (by norm_num),
      show (m.log2 : ℤ) + 1 = ((m.log2 + 1 : ℕ) : ℤ) by push_cast; rfl,
      zpow_natCast]
    gcongr
    exact_mod_cast Nat.succ_le_of_lt Nat.lt_log2_self
  refine le_antisymm (Int.lt_add_one_iff.1 ?_) ?_
  · exact (Int.lt_zpow_iff_log_lt (by decide) hx).1 (by exact_mod_cast most)
  · exact (Int.zpow_le_iff_le_log (by decide) hx).1 (by exact_mod_cast least)

/-- **The rounded significand** is that of the nearest double, before a carry is shifted out. -/
theorem first_rounding {x : ℚ} {m : Nat} {e : Int} {a : Accuracy} (pos : 0 < m) (hx : 0 < x)
    (stands : StandsFor (.ofMantissaAndAccuracy m a) (x / 2 ^ e)) (floor : ⌊x / 2 ^ e⌋ = (m : ℤ))
    (le : e ≤ targetExponent x) :
    ((shiftToTargetExponent .binary64 m e a).1.roundedMantissa : ℤ) =
      nearestInt (x / 2 ^ targetExponent x) ∧
      (shiftToTargetExponent .binary64 m e a).2 = targetExponent x := by
  -- the length of the significand tells where the leading bit of the number is
  have target : Format.binary64.targetExponent (totalExponent m e) = targetExponent x := by
    rw [targetExponent_binary64, totalExponent, targetExponent, log_eq pos hx floor]
    omega
  have amount : ((targetExponent x - e).toNat : ℤ) = targetExponent x - e :=
    Int.toNat_of_nonneg (by omega)
  rw [shiftToTargetExponent_eq, target]
  refine ⟨?_, by simp only; omega⟩
  have shifted := (stands.shiftRight (targetExponent x - e).toNat).nearestInt_eq
  rw [div_div, ← zpow_natCast, ← zpow_add₀ (by norm_num), amount, add_sub_cancel] at shifted
  exact shifted

/-- The rounded significand has 53 bits or is the next power of two, and has fewer only if the
exponent is the least. -/
theorem first_rounding_bounds {x : ℚ} (hx : 0 < x) :
    nearestInt (x / 2 ^ targetExponent x) ≤ 2 ^ 53 ∧
      (-1074 < targetExponent x → 2 ^ 52 ≤ nearestInt (x / 2 ^ targetExponent x)) := by
  have unit := unit_pos x
  constructor
  · refine nearestInt_le ?_
    rw [div_le_iff₀ unit]
    calc x ≤ 2 ^ (Int.log 2 x + 1) := (Int.lt_zpow_succ_log_self (by decide) x).le
      _ ≤ 2 ^ (53 + targetExponent x) := by
        refine zpow_le_zpow_right₀ one_le_two ?_
        unfold targetExponent
        omega
      _ = ((2 ^ 53 : ℤ) : ℚ) * 2 ^ targetExponent x := by rw [zpow_add₀ (by norm_num)]; norm_num
  · intro above
    refine le_nearestInt ?_
    rw [le_div_iff₀ unit]
    calc ((2 ^ 52 : ℤ) : ℚ) * 2 ^ targetExponent x = 2 ^ (52 + targetExponent x) := by
          rw [zpow_add₀ (by norm_num)]; norm_num
      _ = 2 ^ Int.log 2 x := by
        congr 1
        unfold targetExponent at above ⊢
        omega
      _ ≤ x := Int.zpow_log_le_self (by decide) hx

/-- Rounding shifts, rounds, and shifts once more. -/
theorem roundWithAccuracy_eq_signedOf (s : Sign) (m : Nat) (e : Int) (a : Accuracy) :
    roundWithAccuracy .binary64 s m e a =
      let first := shiftToTargetExponent .binary64 m e a
      let second := shiftToTargetExponent .binary64 first.1.roundedMantissa first.2 .exact
      signedOf s second.1.mantissa second.2 := rfl

/-- **Rounding gives the nearest double,** in the form that doubles have. -/
theorem roundWithAccuracy_eq {x : ℚ} {m : Nat} {e : Int} {a : Accuracy} (s : Sign) (pos : 0 < m)
    (hx : 0 < x) (stands : StandsFor (.ofMantissaAndAccuracy m a) (x / 2 ^ e))
    (floor : ⌊x / 2 ^ e⌋ = (m : ℤ)) (le : e ≤ targetExponent x) :
    ∃ n k, Canonical n k ∧ (n : ℚ) * 2 ^ k = nearest x ∧
    roundWithAccuracy .binary64 s m e a = signedOf s n k := by
  obtain ⟨value, exponent⟩ := first_rounding pos hx stands floor le
  obtain ⟨most, least⟩ := first_rounding_bounds hx
  have low : -1074 ≤ targetExponent x := le_max_right _ _
  generalize hfirst : shiftToTargetExponent .binary64 m e a = first at value exponent
  obtain ⟨em, k⟩ := first
  simp only at value exponent
  subst exponent
  generalize hn : em.roundedMantissa = n at value
  have result : (n : ℚ) * 2 ^ targetExponent x = nearest x := by
    rw [nearest, ← value]
    push_cast
    rfl
  rw [← value] at most least
  rw [roundWithAccuracy_eq_signedOf, hfirst]
  simp only [hn]
  rcases (show n ≤ 2 ^ 53 by exact_mod_cast most).lt_or_eq with small | rfl
  · refine ⟨n, targetExponent x, ⟨small, low, fun short => ?_⟩, result, ?_⟩
    · by_contra above
      have := least (by omega)
      omega
    · rw [shiftToTargetExponent_of_lt small low]
  · -- the carry: half the significand, and one more in the exponent
    refine ⟨2 ^ 52, targetExponent x + 1, ⟨by norm_num, by omega, by norm_num⟩, ?_, ?_⟩
    · rw [← result, zpow_add_one₀ (by norm_num)]
      push_cast
      ring
    · rw [shiftToTargetExponent_pow low]

end Purse.Binary64
