import Purse.Decimal.Binary64

/-!
# The order of doubles

Doubles are not ordered linearly: what is not a number compares with nothing. Among numbers the
order is linear, so that "not less" is "at least" (`not_lt_iff_le`).
-/

namespace Purse.Binary64

open Float.Model Float.Model.UnpackedFloat

/-- Comparing the other way round gives the opposite. -/
theorem compare_swap (a b : UnpackedFloat) :
    b.compare a = (a.compare b).map Ordering.swap := by
  have lexical (m n : Nat) (e k : Int) : (compare k e).then (compare n m) =
      ((compare e k).then (compare m n)).swap := by
    rw [Ordering.swap_then, Int.compare_swap, Nat.compare_swap]
  cases a with
  | finite s m e =>
    cases b with
    | finite s' n k =>
      cases s <;> cases s'
      · exact congrArg (fun o : Ordering => some o.swap) (lexical m n e k)
      · rfl
      · rfl
      · exact congrArg some (lexical m n e k)
    | infinity s' | zero s' => cases s <;> cases s' <;> rfl
    | notANumber => cases s <;> rfl
  | infinity s | zero s =>
    cases b with
    | finite s' | infinity s' | zero s' => cases s <;> cases s' <;> rfl
    | notANumber => cases s <;> rfl
  | notANumber => cases b <;> rfl

/-- Numbers compare with each other. -/
theorem isSome_compare {a b : UnpackedFloat} (ha : a.isFinite) (hb : b.isFinite) :
    (a.compare b).isSome := by
  cases a with
  | finite s =>
    cases b with
    | finite s' | zero s' => cases s <;> cases s' <;> rfl
    | infinity | notANumber => cases hb
  | zero s =>
    cases b with
    | finite s' | zero s' => cases s <;> cases s' <;> rfl
    | infinity | notANumber => cases hb
  | infinity | notANumber => cases ha

/-- **A number that is not less than another is at least as large.** -/
theorem not_lt_iff_le {x y : Float} (hx : x.isFinite) (hy : y.isFinite) : ¬ x < y ↔ y ≤ x := by
  have less : x < y ↔ (x.toModel.unpack.compare y.toModel.unpack == some .lt) = true :=
    decide_eq_true_iff
  have atLeast : y ≤ x ↔
      ((y.toModel.unpack.compare x.toModel.unpack).any Ordering.isLE) = true :=
    decide_eq_true_iff
  obtain ⟨o, ho⟩ := Option.isSome_iff_exists.1
    (isSome_compare (a := x.toModel.unpack) (b := y.toModel.unpack) hx hy)
  rw [less, atLeast, compare_swap x.toModel.unpack, ho]
  cases o <;> decide

end Purse.Binary64
