import Mathlib
import Purse.Decimal.Binary64
import Purse.Proofs.Decimal.Rounding

/-!
# Products of doubles

A double is read as a rational number by `Binary64.toRat`. `toRat_mul` says what the product of two
positive doubles is: the nearest double to the exact product, as long as it is finite. It rests on
three things: multiplication rounds the product of the significands (`roundWithAccuracy_eq`), what
is packed into 64 bits is unpacked again as it was (`unpack_pack_finite`), and whatever is unpacked
has the form of a double (`canonical_of_unpack`).
-/

namespace Purse.Binary64

open Float.Model (Format UnpackedFloat)
open Float.Model.UnpackedFloat

/-! ### Packing -/

/-- The leading bit of a significand is left out when it is packed. -/
theorem toNat_one_append (m : BitVec 52) : (1#1 ++ m).toNat = 2 ^ 52 + m.toNat := by
  rw [BitVec.toNat_append, ← Nat.shiftLeft_add_eq_or_of_lt m.isLt, Nat.shiftLeft_eq]
  rfl

/-- A zero is unpacked as it was packed. -/
theorem unpack_pack_zero (s : Sign) :
    UnpackedFloat.unpack .binary64 (pack .binary64 (.zero s)) = .zero s := by
  cases s <;> rfl

theorem unpack_pack_notANumber :
    UnpackedFloat.unpack .binary64 (pack .binary64 .notANumber) = .notANumber := rfl

theorem unpack_pack_infinity (s : Sign) :
    UnpackedFloat.unpack .binary64 (pack .binary64 (.infinity s)) = .infinity s := by
  cases s <;> rfl

/-- Finite numbers are equal if their parts are. -/
theorem finite_congr {s s' : Sign} {m n : Nat} {e k : Int} (pos : 0 < m) (signs : s = s')
    (significands : m = n) (exponents : e = k) :
    UnpackedFloat.finite s m e pos = .finite s' n k (significands ▸ pos) := by
  subst signs significands exponents
  rfl

theorem unpack_normal (s : Sign) {biased : Nat} (low : 0 < biased) (high : biased < 2047)
    (m : BitVec 52) :
    UnpackedFloat.unpack .binary64 (packComponents .binary64 s (BitVec.ofNat 11 biased) m) =
      .finite s (2 ^ 52 + m.toNat) (biased - 1075) (Nat.add_pos_left (Nat.two_pow_pos 52) _) := by
  have value : (BitVec.ofNat 11 biased).toNat = biased := by
    rw [BitVec.toNat_ofNat, Nat.mod_eq_of_lt (by omega)]
  -- the exponent field has neither of the values that are set apart
  have some_ : BitVec.ofNat 11 biased ≠ 0#11 := by
    intro h
    have := congrArg BitVec.toNat h
    simp at this
    omega
  have finite : BitVec.ofNat 11 biased ≠ -1#11 := by
    intro h
    have := congrArg BitVec.toNat h
    simp at this
    omega
  unfold UnpackedFloat.unpack
  dsimp only
  rw [if_neg (by rw [unpackExponent_packComponents]; exact finite),
    if_neg (by rw [unpackExponent_packComponents]; exact some_)]
  refine finite_congr _ ?_ ?_ ?_
  · rw [unpackSign_packComponents, Sign.ofBitVec_toBitVec]
  · rw [unpackMantissa_packComponents, toNat_one_append]
  · rw [unpackExponent_packComponents, value]
    rfl

theorem unpack_subnormal (s : Sign) {m : BitVec 52} (pos : 0 < m.toNat) :
    UnpackedFloat.unpack .binary64 (packComponents .binary64 s 0#11 m) =
      .finite s m.toNat (-1074) pos := by
  have some_ : m ≠ 0#52 := by
    rintro rfl
    exact absurd pos (by decide)
  unfold UnpackedFloat.unpack
  dsimp only
  rw [if_neg (by rw [unpackExponent_packComponents]; decide), if_pos unpackExponent_packComponents,
    dif_neg (by rw [unpackMantissa_packComponents]; exact some_)]
  refine finite_congr _ ?_ ?_ ?_
  · rw [unpackSign_packComponents, Sign.ofBitVec_toBitVec]
  · rw [unpackMantissa_packComponents]
  · rw [unpackExponent_packComponents]
    rfl

theorem pack_finite (s : Sign) (m : Nat) (e : Int) (pos : 0 < m) :
    pack .binary64 (.finite s m e pos) =
    if 2 ^ 11 ≤ (e + 1023 + 52).toNat + 1 then packedInfinity .binary64 s
    else if m.log2 + 1 = 53 then
      packComponents .binary64 s (BitVec.ofNat 11 (e + 1023 + 52).toNat) (BitVec.ofNat 52 m)
    else packComponents .binary64 s 0#11 (BitVec.ofNat 52 m) := rfl

/-- **A finite number is unpacked as it was packed,** if its exponent is that of a double. -/
theorem unpack_pack_finite {m : Nat} {e : Int} (c : Canonical m e) (pos : 0 < m) (le : e ≤ 971)
    (s : Sign) :
    UnpackedFloat.unpack .binary64 (pack .binary64 (.finite s m e pos)) = .finite s m e pos := by
  have least := c.le_exponent
  have fits : ¬ 2 ^ 11 ≤ (e + 1023 + 52).toNat + 1 := by omega
  -- a significand of full length is packed without its leading bit, a shorter one with the exponent
  -- field at zero
  by_cases normal : m.log2 + 1 = 53
  · have leading : 2 ^ 52 ≤ m := by
      have := Nat.log2_self_le pos.ne'
      rwa [show m.log2 = 52 by omega] at this
    rw [pack_finite, if_neg fits, if_pos normal, unpack_normal s (by omega) (by omega)]
    have rest : 2 ^ 52 + (BitVec.ofNat 52 m).toNat = m := by
      have := c.lt
      rw [BitVec.toNat_ofNat]
      omega
    exact finite_congr _ rfl rest (by omega)
  · have short : m < 2 ^ 52 := by
      have := (Nat.log2_lt pos.ne').2 c.lt
      exact (Nat.log2_lt pos.ne').1 (by omega)
    obtain rfl := c.exponent_eq short
    have rest : (BitVec.ofNat 52 m).toNat = m := by rw [BitVec.toNat_ofNat, Nat.mod_eq_of_lt short]
    rw [pack_finite, if_neg fits, if_neg normal, unpack_subnormal s (by rw [rest]; exact pos)]
    exact finite_congr _ rfl rest rfl

/-- A number that is too large is packed as infinite. -/
theorem unpack_pack_large {m : Nat} {e : Int} (pos : 0 < m) (large : 971 < e) (s : Sign) :
    UnpackedFloat.unpack .binary64 (pack .binary64 (.finite s m e pos)) = .infinity s := by
  rw [pack_finite, if_pos (by omega)]
  exact unpack_pack_infinity s

/-- **Whatever is unpacked has the form of a double.** -/
theorem canonical_of_unpack {b : BitVec Format.binary64.numBits} {s : Sign} {m : Nat} {e : Int}
    {pos : 0 < m} (h : UnpackedFloat.unpack .binary64 b = .finite s m e pos) :
    Canonical m e ∧ e ≤ 971 := by
  have exponent : (unpackExponent b).toNat < 2 ^ 11 := (unpackExponent b).isLt
  have significand : (unpackMantissa b).toNat < 2 ^ 52 := (unpackMantissa b).isLt
  unfold UnpackedFloat.unpack at h
  dsimp only at h
  split at h
  · split at h <;> cases h
  · next finite =>
    have below : (unpackExponent b).toNat ≠ 2047 := fun h => finite (BitVec.eq_of_toNat_eq h)
    split at h
    · next least =>
      split at h
      · cases h
      · -- the least exponent, with a significand that is as short as it may be
        obtain ⟨-, rfl, rfl⟩ := UnpackedFloat.finite.inj h
        have value : (((unpackExponent b).toNat : Int) - (1023 + 52) + 1) = -1074 := by
          rw [least]
          rfl
        refine ⟨⟨by omega, value.ge, fun _ => value⟩, ?_⟩
        change _ - (1023 + 52) + 1 ≤ (971 : Int)
        omega
    · next some_ =>
      obtain ⟨-, rfl, rfl⟩ := UnpackedFloat.finite.inj h
      have above : (unpackExponent b).toNat ≠ 0 := fun h => some_ (BitVec.eq_of_toNat_eq h)
      have leading := toNat_one_append (unpackMantissa b)
      refine ⟨⟨?_, ?_, fun short => ?_⟩, ?_⟩
      · exact lt_of_eq_of_lt leading (by omega)
      · change -1074 ≤ ((unpackExponent b).toNat : Int) - (1023 + 52)
        omega
      · exact absurd (lt_of_eq_of_lt leading.symm short) (by omega)
      · change ((unpackExponent b).toNat : Int) - (1023 + 52) ≤ 971
        omega

/-! ### Doubles as rational numbers -/

/-- The rational number that a finite double stands for. -/
def value : Binary64 → ℚ
  | finite negative significand exponent => signed negative significand * 2 ^ exponent
  | _ => 0

/-- The rational number that a double stands for, if it is finite. -/
def toRat (x : Float) : ℚ := (ofFloat x).value

/-- A finite double above zero, by its significand and exponent. -/
def IsPositive (x : Float) : Prop := ∃ m e pos, x.toModel.unpack = .finite .positive m e pos

theorem isPositive_iff {x : Float} : IsPositive x ↔ x > 0.0 ∧ x.isFinite := by
  have above : x > 0.0 ↔ UnpackedFloat.lt (.zero .positive) x.toModel.unpack = true :=
    decide_eq_true_iff
  have finite : x.isFinite = x.toModel.unpack.isFinite := rfl
  rw [above, finite]
  constructor
  · rintro ⟨m, e, pos, h⟩
    rw [h]
    exact ⟨rfl, rfl⟩
  · rintro ⟨larger, real⟩
    cases h : x.toModel.unpack with
    | finite s m e pos =>
      rw [h] at larger
      cases s with
      | positive => exact ⟨m, e, pos, h⟩
      | negative => cases larger
    | zero s =>
      rw [h] at larger
      cases larger
    | infinity | notANumber =>
      rw [h] at real
      cases real

theorem ofFloat_of_unpack {x : Float} {m : Nat} {e : Int} {pos : 0 < m}
    (h : x.toModel.unpack = .finite .positive m e pos) : ofFloat x = .finite false m e := by
  rw [ofFloat, h]
  rfl

theorem toRat_of_unpack {x : Float} {m : Nat} {e : Int} {pos : 0 < m}
    (h : x.toModel.unpack = .finite .positive m e pos) : toRat x = m * 2 ^ e := by
  rw [toRat, ofFloat_of_unpack h, value, signed]
  simp

theorem toRat_of_unpack_zero {x : Float} {s : Sign} (h : x.toModel.unpack = .zero s) :
    toRat x = 0 := by
  rw [toRat, ofFloat, h, value, signed]
  simp

theorem IsPositive.toRat_pos {x : Float} (h : IsPositive x) : 0 < toRat x := by
  obtain ⟨m, e, pos, h⟩ := h
  rw [toRat_of_unpack h]
  positivity

/-! ### Multiplication -/

theorem unpack_mul (x y : Float) : (x * y).toModel.unpack = UnpackedFloat.unpack .binary64
    (pack .binary64 (UnpackedFloat.mul .binary64 x.toModel.unpack y.toModel.unpack)) := rfl

theorem unpack_pack_signedOf {n : Nat} {k : Int} (c : Canonical n k) (s : Sign) :
    UnpackedFloat.unpack .binary64 (pack .binary64 (signedOf s n k)) =
      if k ≤ 971 then signedOf s n k else .infinity s := by
  unfold signedOf
  split
  · next none_ =>
    have least : k = -1074 := c.exponent_eq (by rw [none_]; positivity)
    rw [if_pos (by omega)]
    exact unpack_pack_zero s
  · next some_ =>
    split
    · next le => exact unpack_pack_finite c (Nat.pos_of_ne_zero some_) le s
    · next large => exact unpack_pack_large (Nat.pos_of_ne_zero some_) (by omega) s

/-- The exact product has no bits below those of a double to which it is rounded. -/
theorem add_le_targetExponent {m₁ m₂ : Nat} {e₁ e₂ : Int} (c₁ : Canonical m₁ e₁)
    (c₂ : Canonical m₂ e₂) (pos₁ : 0 < m₁) (pos₂ : 0 < m₂) {x : ℚ}
    (hlog : Int.log 2 x = (m₁ * m₂).log2 + (e₁ + e₂)) :
    e₁ + e₂ ≤ targetExponent x := by
  unfold targetExponent
  rw [hlog]
  -- both are subnormal, or one of them is long enough
  by_cases short : m₁ < 2 ^ 52 ∧ m₂ < 2 ^ 52
  · have h₁ := c₁.exponent_eq short.1
    have h₂ := c₂.exponent_eq short.2
    omega
  · have long : 2 ^ 52 ≤ m₁ * m₂ := by
      rcases not_and_or.1 short with h | h
      · exact (not_lt.1 h).trans (Nat.le_mul_of_pos_right m₁ pos₂)
      · exact (not_lt.1 h).trans (Nat.le_mul_of_pos_left m₂ pos₁)
    have : 52 ≤ (m₁ * m₂).log2 := (Nat.le_log2 (Nat.mul_pos pos₁ pos₂).ne').2 long
    omega

/-- **The product of two finite doubles** is rounded to the nearest double, or is infinite if that
is too large. -/
theorem unpack_mul_finite {x y : Float} {s₁ s₂ : Sign} {m₁ m₂ : Nat} {e₁ e₂ : Int} {pos₁ : 0 < m₁}
    {pos₂ : 0 < m₂} (hx : x.toModel.unpack = .finite s₁ m₁ e₁ pos₁)
    (hy : y.toModel.unpack = .finite s₂ m₂ e₂ pos₂) :
    ∃ (n : ℕ) (k : ℤ), (n : ℚ) * 2 ^ k = nearest (m₁ * 2 ^ e₁ * (m₂ * 2 ^ e₂)) ∧
      (x * y).toModel.unpack = if k ≤ 971 then signedOf (s₁ * s₂) n k else .infinity (s₁ * s₂) := by
  have pos : 0 < m₁ * m₂ := Nat.mul_pos pos₁ pos₂
  have product : (m₁ * 2 ^ e₁ * (m₂ * 2 ^ e₂) : ℚ) = (m₁ * m₂ : ℕ) * 2 ^ (e₁ + e₂) := by
    rw [zpow_add₀ (by norm_num)]
    push_cast
    ring
  have whole : ((m₁ * m₂ : ℕ) * 2 ^ (e₁ + e₂) : ℚ) / 2 ^ (e₁ + e₂) = (m₁ * m₂ : ℕ) :=
    mul_div_cancel_right₀ _ (zpow_pos two_pos _).ne'
  have above : (0 : ℚ) < (m₁ * m₂ : ℕ) * 2 ^ (e₁ + e₂) := by positivity
  have floor : ⌊((m₁ * m₂ : ℕ) * 2 ^ (e₁ + e₂) : ℚ) / 2 ^ (e₁ + e₂)⌋ = ((m₁ * m₂ : ℕ) : ℤ) := by
    rw [whole, Int.floor_natCast]
  have le := add_le_targetExponent (canonical_of_unpack hx).1 (canonical_of_unpack hy).1 pos₁ pos₂
    (log_eq pos above floor)
  obtain ⟨n, k, canonical, value, rounded⟩ :=
    roundWithAccuracy_eq (s₁ * s₂) pos above (whole ▸ standsFor_exact _) floor le
  refine ⟨n, k, by rw [value, product], ?_⟩
  rw [unpack_mul, hx, hy, ← unpack_pack_signedOf canonical, ← rounded]
  rfl

/-- The product of two finite doubles above zero is rounded to the nearest double or is infinite. -/
theorem IsPositive.unpack_mul {x y : Float} (hx : IsPositive x) (hy : IsPositive y) :
    ∃ (n : ℕ) (k : ℤ), (n : ℚ) * 2 ^ k = nearest (toRat x * toRat y) ∧
      (x * y).toModel.unpack = if k ≤ 971 then signedOf .positive n k else .infinity .positive := by
  obtain ⟨m₁, e₁, pos₁, hx⟩ := hx
  obtain ⟨m₂, e₂, pos₂, hy⟩ := hy
  rw [toRat_of_unpack hx, toRat_of_unpack hy]
  exact unpack_mul_finite hx hy

/-- Such a product is zero, or finite and above zero, or infinite. -/
theorem IsPositive.mul_cases {x y : Float} (hx : IsPositive x) (hy : IsPositive y) :
    (x * y).toModel.unpack = .zero .positive ∨ IsPositive (x * y) ∨
      (x * y).toModel.unpack = .infinity .positive := by
  obtain ⟨n, k, -, eq⟩ := hx.unpack_mul hy
  split at eq
  · unfold signedOf at eq
    split at eq
    · exact .inl eq
    · exact .inr (.inl ⟨n, k, _, eq⟩)
  · exact .inr (.inr eq)

/-- **A positive product of a positive double** is the nearest double to the exact product, and the
other factor is positive, too. -/
theorem toRat_mul {x y : Float} (hx : IsPositive x) (h : IsPositive (x * y)) :
    IsPositive y ∧ toRat (x * y) = nearest (toRat x * toRat y) := by
  obtain ⟨m₁, e₁, pos₁, hx⟩ := hx
  obtain ⟨n, k, pos, h⟩ := h
  -- a factor that is zero or not finite gives a product that is so, too
  cases hy : y.toModel.unpack with
  | notANumber =>
    rw [unpack_mul, hx, hy] at h
    cases unpack_pack_notANumber.symm.trans h
  | infinity s =>
    rw [unpack_mul, hx, hy] at h
    cases (unpack_pack_infinity _).symm.trans h
  | zero s =>
    rw [unpack_mul, hx, hy] at h
    cases (unpack_pack_zero _).symm.trans h
  | finite s m₂ e₂ pos₂ =>
    obtain ⟨n', k', value, eq⟩ := unpack_mul_finite hx hy
    rw [h] at eq
    split at eq
    · unfold signedOf at eq
      split at eq
      · cases eq
      · obtain ⟨sign, rfl, rfl⟩ := UnpackedFloat.finite.inj eq
        cases s with
        | negative => cases sign
        | positive =>
          refine ⟨⟨m₂, e₂, pos₂, hy⟩, ?_⟩
          rw [toRat_of_unpack h, toRat_of_unpack hx, toRat_of_unpack hy, value]
    · cases eq

end Purse.Binary64
