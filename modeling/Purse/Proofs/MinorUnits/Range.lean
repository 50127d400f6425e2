import Purse.Proofs.Decimal.Quotient
import Purse.Proofs.MinorUnits

/-!
# Which amounts are accepted

An amount is accepted if it is a finite double above zero and if its product by a hundred, rounded
to the nearest double and cut off, is at least one and below `2 ^ 63`. Nothing else decides: the
product is never rounded to zero, and where it is too large for a double it is too large for a count
as well, so `MinorUnits.ofAmount?_eq_some_iff_accepted` speaks of exact numbers only. Rounding, cutting
off and comparing all keep the order, and so does the crossing (`MinorUnits.scaled_mono`), whose
accepted amounts are therefore all that lie between two of them (`MinorUnits.Accepted.of_between`).
-/

namespace Purse

namespace Binary64

variable {x y : Float}

/-- **A finite product is the nearest double to the exact one.** -/
theorem toRat_mul_of_isFinite (hx : IsPositive x) (hy : IsPositive y) (finite : (x * y).isFinite) :
    toRat (x * y) = nearest (toRat x * toRat y) := by
  obtain ⟨n, k, value, eq⟩ := hx.unpack_mul hy
  have real : (x * y).toModel.unpack.isFinite := finite
  rw [← value]
  split at eq
  · unfold signedOf at eq
    split at eq
    · next none_ => rw [toRat_of_unpack_zero eq, none_, Nat.cast_zero, zero_mul]
    · exact toRat_of_unpack eq
  · rw [eq] at real
    cases real

/-- **A product that is not rounded to zero and is not too large** is finite and above zero. -/
theorem IsPositive.mul (hx : IsPositive x) (hy : IsPositive y)
    (low : 0 < nearest (toRat x * toRat y)) (high : nearest (toRat x * toRat y) < 2 ^ (971 : ℤ)) :
    IsPositive (x * y) := by
  obtain ⟨n, k, value, eq⟩ := hx.unpack_mul hy
  rw [← value] at low high
  have some_ : 0 < n := by
    have : (0 : ℚ) < n := pos_of_mul_pos_left low (zpow_pos two_pos k).le
    exact_mod_cast this
  have fits : k ≤ 971 := by
    by_contra large
    refine absurd high (not_lt.2 ?_)
    calc (2 : ℚ) ^ (971 : ℤ) ≤ 2 ^ k := zpow_le_zpow_right₀ one_le_two (by omega)
      _ ≤ n * 2 ^ k := le_mul_of_one_le_left (zpow_pos two_pos k).le (by exact_mod_cast some_)
  rw [if_pos fits, signedOf, dif_neg some_.ne'] at eq
  exact ⟨n, k, some_, eq⟩

/-- A finite product that is not rounded to zero is above zero. -/
theorem IsPositive.mul_of_isFinite (hx : IsPositive x) (hy : IsPositive y)
    (low : 0 < nearest (toRat x * toRat y)) (finite : (x * y).isFinite) : IsPositive (x * y) := by
  rcases hx.mul_cases hy with zero | product | infinite
  · have nothing := toRat_mul_of_isFinite hx hy finite
    rw [toRat_of_unpack_zero zero] at nothing
    exact absurd nothing low.ne
  · exact product
  · have real : (x * y).toModel.unpack.isFinite := finite
    rw [infinite] at real
    cases real

end Binary64

namespace MinorUnits

open Binary64

variable {amount a b x : Float} {u v : MinorUnits}

/-- The exact product of an amount by a hundred, rounded to the nearest double and cut off. -/
def scaled (amount : Float) : ℤ := ⌊nearest (toRat amount * 100)⌋

/-- **What is accepted as an amount.** -/
structure Accepted (amount : Float) : Prop where
  positive : amount > 0.0
  finite : amount.isFinite
  one_le : 1 ≤ scaled amount
  lt : scaled amount < 2 ^ 63

theorem Accepted.isPositive (h : Accepted amount) : IsPositive amount :=
  Binary64.isPositive_iff.2 ⟨h.positive, h.finite⟩

/-- The product of an accepted amount is a finite double above zero, and what is cut off it is
computed from that double. -/
theorem Accepted.product (h : Accepted amount) :
    IsPositive (amount * 100.0) ∧ ⌊toRat (amount * 100.0)⌋ = scaled amount := by
  have least : (1 : ℚ) ≤ nearest (toRat amount * toRat 100.0) := by
    rw [toRat_hundred]
    exact_mod_cast Int.le_floor.1 h.one_le
  have most : nearest (toRat amount * toRat 100.0) < 2 ^ (971 : ℤ) := by
    rw [toRat_hundred]
    calc nearest (toRat amount * 100) < ((2 ^ 63 : ℤ) : ℚ) := Int.floor_lt.1 h.lt
      _ = 2 ^ (63 : ℤ) := by norm_num
      _ ≤ 2 ^ (971 : ℤ) := zpow_le_zpow_right₀ one_le_two (by decide)
  have positive := h.isPositive.mul isPositive_hundred (zero_lt_one.trans_le least) most
  refine ⟨positive, ?_⟩
  rw [scaled, (toRat_mul h.isPositive positive).2, toRat_hundred]

/-- **An amount comes to a count exactly if it is accepted,** and to no other than its scaled one. -/
theorem ofAmount?_eq_some_iff_accepted :
    ofAmount? amount = some u ↔ Accepted amount ∧ u.units = scaled amount := by
  rw [ofAmount?_eq_some_iff]
  constructor
  · rintro ⟨pos, product, one_le, floor⟩
    have exact_ : u.units = scaled amount := by
      rw [floor, scaled, (toRat_mul pos product).2, toRat_hundred]
    have upper := u.upper
    obtain ⟨above, finite⟩ := Binary64.isPositive_iff.1 pos
    exact ⟨⟨above, finite, exact_ ▸ one_le, by omega⟩, exact_⟩
  · rintro ⟨accepted, exact_⟩
    obtain ⟨product, floor⟩ := accepted.product
    exact ⟨accepted.isPositive, product, exact_ ▸ accepted.one_le, by rw [floor, exact_]⟩

/-- **The limits may be compared as doubles,** before anything is cut off: one, and the greatest count
as a double. -/
theorem limits_iff (pos : IsPositive amount) (finite : (amount * 100.0).isFinite) :
    (1.0 ≤ amount * 100.0 ↔ 1 ≤ scaled amount) ∧
      (amount * 100.0 < 9223372036854775807.0 ↔ scaled amount < 2 ^ 63) := by
  have exact_ : toRat (amount * 100.0) = nearest (toRat amount * 100) := by
    rw [toRat_mul_of_isFinite pos isPositive_hundred finite, toRat_hundred]
  have least : (2 : ℚ) ^ (-1074 : ℤ) ≤ toRat amount * 100 :=
    pos.le_toRat.trans (le_mul_of_one_le_right pos.toRat_pos.le (by norm_num))
  have product : IsPositive (amount * 100.0) := by
    refine pos.mul_of_isFinite isPositive_hundred ?_ finite
    rw [toRat_hundred]
    exact nearest_pos least
  have real := (Binary64.isPositive_iff.1 isPositive_greatest).2
  constructor
  · rw [le_iff_toRat_le isPositive_one product, toRat_one, exact_, scaled, Int.le_floor,
      Int.cast_one]
  · have atLeast : 9223372036854775807.0 ≤ amount * 100.0 ↔
        (2 : ℚ) ^ 63 ≤ nearest (toRat amount * 100) := by
      rw [le_iff_toRat_le isPositive_greatest product, toRat_greatest, exact_]
    rw [← not_iff_not, not_lt_iff_le finite real, atLeast, scaled, Int.floor_lt, not_lt]
    norm_num

/-- An accepted amount comes to a count. -/
theorem Accepted.exists_ofAmount? (h : Accepted amount) : ∃ u, ofAmount? amount = some u := by
  have low := h.one_le
  have high := h.lt
  exact ⟨⟨scaled amount, by omega, by omega⟩, ofAmount?_eq_some_iff_accepted.2 ⟨h, rfl⟩⟩

/-- A larger amount has no smaller product. -/
theorem scaled_mono (pos : IsPositive a) (pos' : IsPositive b) (le : a ≤ b) :
    scaled a ≤ scaled b := by
  have exact_ : toRat a * 100 ≤ toRat b * 100 := by
    have := (le_iff_toRat_le pos pos').1 le
    gcongr
  exact Int.floor_mono (nearest_mono (mul_pos pos.toRat_pos (by norm_num)) exact_)

/-- **What lies between two accepted amounts is accepted.** -/
theorem Accepted.of_between (ha : Accepted a) (hb : Accepted b) (low : a ≤ x) (high : x ≤ b) :
    Accepted x := by
  have pos := ha.isPositive.of_between hb.isPositive low high
  obtain ⟨above, finite⟩ := Binary64.isPositive_iff.1 pos
  exact {
    positive := above
    finite
    one_le := ha.one_le.trans (scaled_mono ha.isPositive pos low)
    lt := (scaled_mono pos hb.isPositive high).trans_lt hb.lt }

end MinorUnits

end Purse
