import Purse.Text.Digits

/-!
# The shortest decimal of a double

A positive double `m · 2 ^ q` is the nearest double to a whole interval of reals. Among the decimals
in that interval the shortest ones are those with the fewest digits, and `Decimal.shortest` takes
the nearest of them. All comparisons are made in natural numbers, on quantities scaled free of
negative powers.

The grid of spacing `10 ^ u` has a point in the interval exactly if one of the two grid points next
to the value lies in it, so it is enough to test these two for every spacing, coarsest first.
-/

namespace Purse

/-- The decimal `significand · 10 ^ exponent`. -/
structure Decimal where
  significand : Nat
  exponent : Int
deriving DecidableEq, Repr

namespace Decimal

/-- Which of two equally near decimals is taken. -/
inductive Tie where
  /-- The larger one. -/
  | up
  /-- The one whose last digit is even. -/
  | even
deriving DecidableEq, Repr

/-- The comparison of `a · 10 ^ u` with `b · 2 ^ q`. -/
def compareScaled (a : Nat) (u : Int) (b : Nat) (q : Int) : Ordering :=
  compare (a * Nat.pow 10 u.toNat * Nat.pow 2 (-q).toNat) (b * Nat.pow 2 q.toNat * Nat.pow 10 (-u).toNat)

/-- The exponent of the doubles nearest to zero. -/
def leastExponent : Int := -1074

/-- Whether `d · 10 ^ u` rounds to the double `m · 2 ^ q`. The interval reaches half a spacing to
either side, less below a power of two; its ends belong to it if `m` is even. Both ends are counted
in quarters of a spacing. -/
def roundsTo (m : Nat) (q : Int) (d : Nat) (u : Int) : Bool :=
  let below := if m = Nat.pow 2 52 ∧ leastExponent < q then 1 else 2
  let low := compareScaled d u (4 * m - below) (q - 2)
  let high := compareScaled d u (4 * m + 2) (q - 2)
  match low, high with
  | .gt, .lt => true
  | .eq, _ | _, .eq => m % 2 == 0
  | _, _ => false

/-- The greatest `n` with `n · 10 ^ u ≤ m · 2 ^ q`. -/
def gridFloor (m : Nat) (q : Int) (u : Int) : Nat :=
  m * Nat.pow 2 q.toNat * Nat.pow 10 (-u).toNat / (Nat.pow 10 u.toNat * Nat.pow 2 (-q).toNat)

/-- The `p` with `10 ^ p ≤ m · 2 ^ q < 10 ^ (p + 1)`, for a positive double. -/
def leadingExponent (m : Nat) (q : Int) : Int :=
  ((Text.decimal (gridFloor m q (-330))).length : Int) - 331

/-- The point of the grid of spacing `10 ^ u` next to `m · 2 ^ q` that rounds to it, if there is
one: of two, the nearer. -/
def onGrid? (tie : Tie) (m : Nat) (q : Int) (u : Int) : Option Decimal :=
  let low := gridFloor m q u
  match roundsTo m q low u, roundsTo m q (low + 1) u with
  | false, false => none
  | true, false => some ⟨low, u⟩
  | false, true => some ⟨low + 1, u⟩
  | true, true =>
    match compareScaled (2 * low + 1) u (2 * m) q with
    | .lt => some ⟨low + 1, u⟩
    | .gt => some ⟨low, u⟩
    | .eq =>
      match tie with
      | .up => some ⟨low + 1, u⟩
      | .even => if low % 2 = 0 then some ⟨low, u⟩ else some ⟨low + 1, u⟩

/-- A decimal less the trailing zeros of its significand, at most `fuel` of them. -/
def dropZeros : (fuel : Nat) → Decimal → Decimal
  | 0, d => d
  | fuel + 1, d =>
    if d.significand ≠ 0 ∧ d.significand % 10 = 0 then
      dropZeros fuel ⟨d.significand / 10, d.exponent + 1⟩
    else d

/-- **The shortest decimal** that rounds to the positive double `m · 2 ^ q`, and the nearest to it
of those. Seventeen digits always suffice. -/
def shortest (tie : Tie) (m : Nat) (q : Int) : Decimal :=
  let p := leadingExponent m q
  let found := (List.range 17).findSome? fun (i : Nat) => onGrid? tie m q (p - i)
  dropZeros 17 (found.getD ⟨gridFloor m q (p - 16), p - 16⟩)

end Decimal

end Purse
