import Purse.Decimal.Layout
import Purse.Proofs.Decimal.Product
import Purse.Proofs.Decimal.Numeral

/-!
# Written doubles

The shortest decimal of a double that is not zero has a significand that is not zero either: no
double but zero is what zero rounds to, and on the grid of seventeen digits the largest point below
the double is not zero (`Decimal.shortest_pos`). So its digits begin with one that is not zero, and
the numeral of any finite double has the form that documents allow (`FloatLayout.wellFormed_numeral?`).
-/

namespace Purse

namespace Decimal

variable {m : Nat} {q u : Int} {tie : Tie} {d : Decimal}

/-! ### The shortest decimal is not zero -/

theorem compareScaled_zero {b : Nat} (pos : 0 < b) : compareScaled 0 u b q = .lt := by
  rw [compareScaled, Nat.zero_mul, Nat.zero_mul, Nat.compare_eq_lt]
  exact Nat.mul_pos (Nat.mul_pos pos (Nat.pow_pos two_pos)) (Nat.pow_pos (by decide))

/-- Zero rounds to no other double. -/
theorem roundsTo_zero (pos : 0 < m) : roundsTo m q 0 u = false := by
  have below (b : Nat) (le : b ≤ 2) : compareScaled 0 u (4 * m - b) (q - 2) = .lt :=
    compareScaled_zero (by omega)
  have above : compareScaled 0 u (4 * m + 2) (q - 2) = .lt := compareScaled_zero (by omega)
  rw [roundsTo, below _ (by split <;> omega), above]

theorem onGrid?_pos (pos : 0 < m) (h : onGrid? tie m q u = some d) : 0 < d.significand := by
  have low_pos (rounds : roundsTo m q (gridFloor m q u) u = true) : 0 < gridFloor m q u := by
    refine Nat.pos_of_ne_zero fun zero => ?_
    rw [zero, roundsTo_zero pos] at rounds
    cases rounds
  unfold onGrid? at h
  dsimp only at h
  generalize gridFloor m q u = low at *
  split at h
  · cases h
  · next rounds _ =>
    cases h
    exact low_pos rounds
  · cases h
    exact Nat.succ_pos low
  · next rounds _ =>
    split at h
    · cases h
      exact Nat.succ_pos low
    · cases h
      exact low_pos rounds
    · split at h
      · cases h
        exact Nat.succ_pos low
      · split at h
        · cases h
          exact low_pos rounds
        · cases h
          exact Nat.succ_pos low

theorem dropZeros_pos (pos : 0 < d.significand) (fuel : Nat) :
    0 < (dropZeros fuel d).significand := by
  induction fuel generalizing d with
  | zero => exact pos
  | succ fuel ih =>
    rw [dropZeros]
    split
    · next zero => exact ih (show 0 < d.significand / 10 by omega)
    · exact pos

/-- A grid reaches below a double if its spacing is not greater than the double. -/
theorem gridFloor_pos_iff :
    0 < gridFloor m q u ↔
      10 ^ u.toNat * 2 ^ (-q).toNat ≤ m * 2 ^ q.toNat * 10 ^ (-u).toNat := by
  refine Nat.div_pos_iff.trans (and_iff_right ?_)
  exact Nat.mul_pos (Nat.pow_pos (by decide)) (Nat.pow_pos two_pos)

theorem pow_length_decimal_le {n : Nat} (pos : 0 < n) : 10 ^ ((Text.decimal n).length - 1) ≤ n := by
  rcases Nat.eq_zero_or_pos ((Text.decimal n).length - 1) with one | more
  · rw [one]
    exact pos
  · -- one digit less is too short
    refine Nat.le_of_not_lt fun less => ?_
    have short := (Nat.length_toDigits_le_iff (by decide) more).2 less
    exact absurd short (by rw [Text.decimal] at *; omega)

theorem two_pow_le_ten_pow {n k l : Nat} (le : n ≤ 23 * k) (le' : 7 * k ≤ l) : 2 ^ n ≤ 10 ^ l :=
  calc 2 ^ n
      ≤ 2 ^ (23 * k) := Nat.pow_le_pow_right two_pos le
    _ = (2 ^ 23) ^ k := Nat.pow_mul 2 23 k
    _ ≤ (10 ^ 7) ^ k := Nat.pow_le_pow_left (by decide) k
    _ = 10 ^ (7 * k) := (Nat.pow_mul 10 7 k).symm
    _ ≤ 10 ^ l := Nat.pow_le_pow_right (by decide) le'

/-- The greatest point below a double, on a grid with places after the point. -/
theorem gridFloor_neg (l : Nat) :
    gridFloor m q (-(l : Int)) = m * 2 ^ q.toNat * 10 ^ l / 2 ^ (-q).toNat := by
  show m * 2 ^ q.toNat * 10 ^ (-(-(l : Int))).toNat / (10 ^ (-(l : Int)).toNat * 2 ^ (-q).toNat) = _
  rw [Int.toNat_neg_natCast, Int.neg_neg, Int.toNat_natCast, Nat.pow_zero, Nat.one_mul]

/-- With enough places it is not zero. -/
theorem gridFloor_neg_pos {k l : Nat} (pos : 0 < m) (le : (-q).toNat ≤ 23 * k) (le' : 7 * k ≤ l) :
    0 < gridFloor m q (-(l : Int)) := by
  rw [gridFloor_neg]
  refine Nat.div_pos ?_ (Nat.pow_pos two_pos)
  calc 2 ^ (-q).toNat
      ≤ 10 ^ l := two_pow_le_ten_pow le le'
    _ ≤ m * 2 ^ q.toNat * 10 ^ l :=
      Nat.le_mul_of_pos_left _ (Nat.mul_pos pos (Nat.pow_pos two_pos))

/-- The grid of the leading digit reaches below a double, and so does any that is finer. The leading
digit is found by counting digits on a grid that is fine enough. -/
theorem gridFloor_leading_pos {l : Nat} (fine : 0 < gridFloor m q (-(l : Int))) (places : Nat) :
    0 < gridFloor m q ((Text.decimal (gridFloor m q (-(l : Int)))).length - 1 - l - places) := by
  have some_ := List.length_pos_of_ne_nil (Text.decimal_ne_nil (gridFloor m q (-(l : Int))))
  have leading := pow_length_decimal_le fine
  have floor : gridFloor m q (-(l : Int)) * 2 ^ (-q).toNat ≤ m * 2 ^ q.toNat * 10 ^ l := by
    rw [gridFloor_neg]
    exact Nat.div_mul_le_self _ _
  rw [gridFloor_pos_iff]
  generalize gridFloor m q (-(l : Int)) = n at *
  generalize (Text.decimal n).length = count at *
  generalize m * 2 ^ q.toNat = a at *
  generalize 2 ^ (-q).toNat = b at *
  have shift : ((count : Int) - 1 - l - places).toNat + (l + places) =
      count - 1 + (-((count : Int) - 1 - l - places)).toNat := by omega
  generalize ((count : Int) - 1 - l - places).toNat = v at *
  generalize (-((count : Int) - 1 - l - places)).toNat = w at *
  -- times a power of ten, so that no exponent is negative
  refine Nat.le_of_mul_le_mul_right (c := 10 ^ (l + places)) ?_ (Nat.pow_pos (by decide))
  calc 10 ^ v * b * 10 ^ (l + places)
      = 10 ^ (count - 1) * b * 10 ^ w := by
        rw [Nat.mul_right_comm, ← Nat.pow_add, shift, Nat.pow_add, Nat.mul_right_comm]
    _ ≤ n * b * 10 ^ w := Nat.mul_le_mul_right _ (Nat.mul_le_mul_right _ leading)
    _ ≤ a * 10 ^ l * 10 ^ w := Nat.mul_le_mul_right _ floor
    _ ≤ a * 10 ^ (l + places) * 10 ^ w := by
        gcongr
        · decide
        · exact Nat.le_add_right l places
    _ = a * 10 ^ w * 10 ^ (l + places) := Nat.mul_right_comm _ _ _

/-- Seventeen digits from the leading one are enough to reach below a double. -/
theorem gridFloor_pos (pos : 0 < m) (le : -1074 ≤ q) :
    0 < gridFloor m q (leadingExponent m q - 16) := by
  have bits : (-q).toNat ≤ 23 * 47 := by omega
  have fine : 0 < gridFloor m q (-(330 : Nat)) := gridFloor_neg_pos pos bits (by decide)
  have reached := gridFloor_leading_pos fine 16
  rwa [Int.sub_sub (_ : Int) 1] at reached

theorem shortest_pos (pos : 0 < m) (le : -1074 ≤ q) : 0 < (shortest tie m q).significand := by
  rw [shortest]
  refine dropZeros_pos ?_ 17
  cases found : (List.range 17).findSome? fun i : Nat => onGrid? tie m q (leadingExponent m q - i) with
  | none => exact gridFloor_pos pos le
  | some d =>
    obtain ⟨i, -, h⟩ := List.exists_of_findSome?_eq_some found
    exact onGrid?_pos pos h

end Decimal

namespace FloatLayout

variable {layout : FloatLayout} {negative : Bool} {ds : List Char} {n : Numeral} {x : Float}

/-! ### The form of a written double -/

/-- A layout writes a whole number with some digits after the point, or without a point. -/
def IsProper (layout : FloatLayout) : Prop :=
  ∀ places ∈ layout.wholeFraction, places ≠ [] ∧ ∀ c ∈ places, c.isDigit

theorem isProper_document : document.IsProper := by
  rintro _ ⟨⟩
  exact ⟨by simp, by simp⟩

/-- Digits of which the first is not zero. -/
structure IsSignificant (ds : List Char) : Prop where
  ne_nil : ds ≠ []
  digits : ∀ c ∈ ds, c.isDigit
  leading : ds.head? ≠ some '0'

theorem IsSignificant.isWholeNumeral (h : IsSignificant ds) : Text.IsWholeNumeral ds :=
  ⟨h.ne_nil, h.digits, fun _ => h.leading⟩

theorem isSignificant_decimal {k : Nat} (pos : 0 < k) : IsSignificant (Text.decimal k) where
  ne_nil := Text.decimal_ne_nil k
  digits _ h := Text.isDigit_of_mem_decimal h
  leading := Text.head?_decimal_ne_zero pos

theorem isDigit_of_mem_zeros {c : Char} {count : Nat} (h : c ∈ List.replicate count '0') :
    c.isDigit := by
  rw [List.eq_of_mem_replicate h]
  decide

theorem IsSignificant.append_zeros (h : IsSignificant ds) (count : Nat) :
    IsSignificant (ds ++ List.replicate count '0') where
  ne_nil := List.append_ne_nil_of_left_ne_nil h.ne_nil _
  digits c mem := (List.mem_append.1 mem).elim (h.digits c) isDigit_of_mem_zeros
  leading := by
    rw [List.head?_append_of_ne_nil _ h.ne_nil]
    exact h.leading

theorem IsSignificant.take (h : IsSignificant ds) {count : Nat} (pos : 0 < count) :
    IsSignificant (ds.take count) where
  ne_nil := by
    rw [ne_eq, List.take_eq_nil_iff]
    exact not_or_intro pos.ne' h.ne_nil
  digits c mem := h.digits c (List.mem_of_mem_take mem)
  leading := by
    rw [List.head?_take, if_neg pos.ne']
    exact h.leading

/-- The digits after the first few, if there are any. -/
theorem IsSignificant.drop (h : IsSignificant ds) {count : Nat} (less : count < ds.length) :
    ds.drop count ≠ [] ∧ ∀ c ∈ ds.drop count, c.isDigit := by
  refine ⟨?_, fun c mem => h.digits c (List.mem_of_mem_drop mem)⟩
  rw [ne_eq, List.drop_eq_nil_iff]
  omega

theorem wellFormed_positionalNumeral (proper : layout.IsProper) (h : IsSignificant ds) (k : Int) :
    (layout.positionalNumeral negative ds k).WellFormed := by
  unfold positionalNumeral
  cases k with
  | ofNat zeros => exact ⟨(h.append_zeros zeros).isWholeNumeral, proper, nofun⟩
  | negSucc places =>
    have length := List.length_pos_of_ne_nil h.ne_nil
    dsimp only
    split
    -- the point stands between the digits, or in front of them all, after a zero
    · next whole =>
      refine ⟨(h.take whole).isWholeNumeral, ?_, nofun⟩
      rintro _ ⟨⟩
      exact h.drop (by omega)
    · refine ⟨⟨by simp, by simp, by simp⟩, ?_, nofun⟩
      rintro _ ⟨⟩
      exact ⟨List.append_ne_nil_of_right_ne_nil _ h.ne_nil,
        fun c mem => (List.mem_append.1 mem).elim isDigit_of_mem_zeros (h.digits c)⟩

theorem wellFormed_exponentNumeral (h : IsSignificant ds) (e : Int) :
    (exponentNumeral negative ds e).WellFormed := by
  refine ⟨(h.take one_pos).isWholeNumeral, ?_, ?_⟩
  · intro places mem
    rw [exponentNumeral] at mem
    dsimp only at mem
    split at mem
    · cases mem
    · next more =>
      cases mem
      exact h.drop (Nat.lt_of_not_le more)
  · rintro _ ⟨⟩
    exact ⟨Text.decimal_ne_nil e.natAbs, fun c => Text.isDigit_of_mem_decimal⟩

theorem wellFormed_decimalNumeral (proper : layout.IsProper) {d : Decimal}
    (pos : 0 < d.significand) : (layout.decimalNumeral negative d).WellFormed := by
  have h := isSignificant_decimal pos
  rw [decimalNumeral]
  split
  · exact wellFormed_positionalNumeral proper h _
  · exact wellFormed_exponentNumeral h _

/-- The exponent of a finite double is bounded from below. -/
theorem exponent_of_ofFloat {m : Nat} {e : Int} (some_ : m ≠ 0)
    (h : Binary64.ofFloat x = .finite negative m e) : -1074 ≤ e := by
  unfold Binary64.ofFloat at h
  split at h
  · cases h
  · cases h
  · cases h
    exact absurd rfl some_
  · next unpacked =>
    cases h
    exact (Binary64.canonical_of_unpack unpacked).1.le_exponent

/-- **A finite double is written as a numeral that documents allow.** -/
theorem wellFormed_numeral? (proper : layout.IsProper) (h : layout.numeral? x = some n) :
    n.WellFormed := by
  unfold numeral? at h
  split at h
  · cases h
  · cases h
  · next finite =>
    split at h
    · cases h
      exact ⟨⟨by simp, by simp, by simp⟩, proper, nofun⟩
    · next some_ =>
      cases h
      exact wellFormed_decimalNumeral proper
        (Decimal.shortest_pos (Nat.pos_of_ne_zero some_) (exponent_of_ofFloat some_ finite))

end FloatLayout

end Purse
