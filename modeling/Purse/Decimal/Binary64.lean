/-!
# Doubles as dyadic numbers

`Binary64.ofFloat` reads a double as what it stands for: a sign, a natural significand and a power
of two, or one of the values that are not finite. Decisions of this library that depend on the exact
value of a double are made on this form, in integer arithmetic, and never on a second rounded
operation. `Binary64.trunc` cuts off the digits behind the point and rounds nothing: what is left is
a double.
-/

namespace Purse

/-- What a double stands for. A finite one is `significand · 2 ^ exponent`, negated if `negative`;
zero has significand `0` and keeps its sign. -/
inductive Binary64 where
  | nan
  | infinite (negative : Bool)
  | finite (negative : Bool) (significand : Nat) (exponent : Int)
deriving DecidableEq, Repr

namespace Binary64

/-- The value of a double. -/
def ofFloat (x : Float) : Binary64 :=
  match x.toModel.unpack with
  | .notANumber => .nan
  | .infinity sign => .infinite (sign == .negative)
  | .zero sign => .finite (sign == .negative) 0 0
  | .finite sign significand exponent _ => .finite (sign == .negative) significand exponent

/-- The integer part of `significand · 2 ^ exponent`. -/
def wholePart (significand : Nat) : (exponent : Int) → Nat
  | .ofNat e => significand * Nat.pow 2 e
  | .negSucc e => significand / Nat.pow 2 (e + 1)

/-- The integer nearest to `significand · 2 ^ exponent`, a half going up. -/
def nearestWhole (significand : Nat) : (exponent : Int) → Nat
  | .ofNat e => significand * Nat.pow 2 e
  | .negSucc e => (significand + Nat.pow 2 e) / Nat.pow 2 (e + 1)

/-- An integer of a given magnitude and sign. -/
def signed (negative : Bool) (magnitude : Nat) : Int :=
  if negative then -(magnitude : Int) else magnitude

/-- A finite value cut off to an integer toward zero and kept between two bounds. What is infinite
gives a bound, and what is no number gives zero. -/
def clampToInt (least greatest : Int) : Binary64 → Int
  | .nan => 0
  | .infinite negative => if negative then least else greatest
  | .finite negative significand exponent =>
    max least (min greatest (signed negative (wholePart significand exponent)))

theorem clampToInt_bounds {least greatest : Int} (low : least ≤ 0) (high : 0 ≤ greatest)
    (x : Binary64) : least ≤ x.clampToInt least greatest ∧ x.clampToInt least greatest ≤ greatest := by
  unfold clampToInt
  split
  · exact ⟨low, high⟩
  · split <;> omega
  · omega

/-- The natural number nearest to a value, a half going up, and kept between `0` and `limit`: what
lies below zero and what is no number gives `0`, what lies above `limit` gives `limit`. -/
def clampToNat (limit : Nat) : Binary64 → Nat
  | .nan => 0
  | .infinite negative => if negative then 0 else limit
  | .finite negative significand exponent =>
    if negative then 0 else min limit (nearestWhole significand exponent)

/-! ### Cutting off -/

/-- A finite number with a sign, or a zero. -/
def signedOf (s : Float.Model.UnpackedFloat.Sign) (m : Nat) (e : Int) : Float.Model.UnpackedFloat :=
  if h : m = 0 then .zero s else .finite s m e (Nat.pos_of_ne_zero h)

/-- The significand of `significand · 2 ^ exponent` with all digits behind the point cleared. -/
def wholeDigits (significand : Nat) : (exponent : Int) → Nat
  | .ofNat _ => significand
  | .negSucc e => significand / Nat.pow 2 (e + 1) * Nat.pow 2 (e + 1)

/-- **A double cut off toward zero,** as a double. One that is not finite stays as it is. -/
def trunc (x : Float) : Float :=
  match x.toModel.unpack with
  | .finite sign significand exponent _ =>
    .ofModel (.pack (signedOf sign (wholeDigits significand exponent) exponent))
  | _ => x

end Binary64

end Purse
