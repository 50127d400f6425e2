import Purse.Text.Digits
import Purse.Decimal.Binary64

/-!
# Minor units

Balances and amounts are whole counts of minor units, a hundred to the unit of a currency, and fit a
signed 64-bit word; the bound is part of the type. A decimal amount of a caller crosses into this
domain exactly once, through `MinorUnits.ofAmount?`, which multiplies by a hundred and cuts off
toward zero.
-/

namespace Purse

/-- A count of minor units that fits a signed 64-bit word. -/
structure MinorUnits where
  units : Int
  lower : -9223372036854775808 ≤ units
  upper : units ≤ 9223372036854775807
deriving DecidableEq

namespace MinorUnits

instance : Repr MinorUnits := ⟨fun u p => reprPrec u.units p⟩

/-- Equal counts are equal. -/
@[ext] theorem ext {a b : MinorUnits} (h : a.units = b.units) : a = b := by
  cases a; cases b; simp_all

/-- Nothing at all. -/
def zero : MinorUnits := ⟨0, by decide, by decide⟩

instance : Inhabited MinorUnits := ⟨zero⟩

@[simp] theorem units_zero : zero.units = 0 := rfl

/-- Minor units in one unit of a currency. -/
def perMajor : Int := 100

/-- The greatest count. -/
def greatest : Int := 9223372036854775807

/-- A count that fits. -/
def ofInt? (n : Int) : Option MinorUnits :=
  if h : -9223372036854775808 ≤ n ∧ n ≤ greatest then some ⟨n, h.1, h.2⟩ else none

theorem ofInt?_eq_some_iff {n : Int} {u : MinorUnits} : ofInt? n = some u ↔ u.units = n := by
  unfold ofInt?
  split
  · simp only [Option.some.injEq]
    constructor
    · rintro rfl; rfl
    · rintro rfl; rfl
  · rename_i h
    simp only [reduceCtorEq, false_iff]
    rintro rfl
    exact h ⟨u.lower, u.upper⟩

/-- How many counts there are. -/
def modulus : Nat := 18446744073709551616

/-- The count that differs from `n` by a multiple of the number of counts. -/
def ofLowBits (n : Int) : MinorUnits :=
  ⟨n.bmod modulus,
    by have := @Int.le_bmod n modulus (by decide); simp only [modulus] at this ⊢; omega,
    by have := @Int.bmod_lt n modulus (by decide); simp only [modulus] at this ⊢; omega⟩

@[simp] theorem units_ofLowBits (n : Int) : (ofLowBits n).units = n.bmod modulus := rfl

/-- Whole units of a currency, in minor units. -/
def ofMajor (n : Int) : MinorUnits := ofLowBits (n * perMajor)

/-- The count in units of the currency, for display and events only. -/
def major (u : MinorUnits) : Float :=
  Float.ofInt u.units / 100.0

/-- Whether there is anything at all. -/
def isPositive (u : MinorUnits) : Bool := 0 < u.units

@[simp] theorem isPositive_iff (u : MinorUnits) : u.isPositive = true ↔ 0 < u.units := by
  simp [isPositive]

/-- The sum, if it fits. -/
def add? (a b : MinorUnits) : Option MinorUnits :=
  ofInt? (a.units + b.units)

/-- The difference, unless `b` is the greater. -/
def sub? (a b : MinorUnits) : Option MinorUnits :=
  if a.units < b.units then none else some (ofLowBits (a.units - b.units))

theorem add?_eq_some_iff {a b c : MinorUnits} : a.add? b = some c ↔ c.units = a.units + b.units :=
  ofInt?_eq_some_iff

theorem add?_eq_none_iff {a b : MinorUnits} :
    a.add? b = none ↔ a.units + b.units < -9223372036854775808 ∨ greatest < a.units + b.units := by
  unfold add? ofInt?
  split
  · simp only [reduceCtorEq, false_iff]; omega
  · simp only [true_iff]; omega

/-- A positive subtrahend leaves the exact difference. -/
theorem sub?_eq_some_iff {a b c : MinorUnits} (hb : 0 ≤ b.units) :
    a.sub? b = some c ↔ b.units ≤ a.units ∧ c.units = a.units - b.units := by
  have hl := a.lower
  have hu := a.upper
  have hbu := b.upper
  unfold sub?
  split
  · simp only [reduceCtorEq, false_iff]; omega
  · have hm : (a.units - b.units).bmod modulus = a.units - b.units :=
      Int.bmod_eq_of_le (by simp only [modulus]; omega) (by simp only [modulus]; omega)
    constructor
    · intro h
      have := congrArg units (Option.some.inj h)
      rw [units_ofLowBits, hm] at this
      omega
    · rintro ⟨-, h⟩
      congr 1
      ext
      rw [units_ofLowBits, hm, h]

theorem sub?_eq_none_iff {a b : MinorUnits} : a.sub? b = none ↔ a.units < b.units := by
  unfold sub?
  split <;> simp_all

/-- The characters of a count: a sign if it is negative, the whole units, a point, two digits. -/
def chars (u : MinorUnits) : List Char :=
  let n := u.units.natAbs
  (if u.units < 0 then ['-'] else []) ++ Text.decimal (n / 100) ++ '.' :: Text.padded 2 (n % 100)

/-- The displayed text of a count. -/
def text (u : MinorUnits) : String := String.ofList u.chars

/-- A double as a count: cut off toward zero, with the bound in place of what is beyond it. -/
def clamp (x : Float) : MinorUnits :=
  have bounds := Binary64.clampToInt_bounds (by decide : (-9223372036854775808 : Int) ≤ 0)
    (by decide : (0 : Int) ≤ greatest) (Binary64.ofFloat x)
  ⟨(Binary64.ofFloat x).clampToInt (-9223372036854775808) greatest, bounds.1, bounds.2⟩

/-- **The crossing from decimal amounts.** An amount counts if it is finite and above zero, and if
its product by a hundred, cut off toward zero, is at least one minor unit and below the greatest
count, written as a double. -/
def ofAmount? (amount : Float) : Option MinorUnits :=
  if !(amount > 0.0) || !amount.isFinite then none
  else
    let scaled := Binary64.trunc (amount * 100.0)
    if scaled < 1.0 || scaled ≥ 9223372036854775807.0 then none else some (clamp scaled)

/-- The amount times the rate, as one rounded product, crossed like any other amount. -/
def ofConverted? (amount rate : Float) : Option MinorUnits :=
  ofAmount? (amount * rate)

end MinorUnits

end Purse
