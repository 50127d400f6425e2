import Purse.Uuid

/-!
# Identifiers are read as they were written

The written form of an identifier is one of the spellings that are read: it begins with a digit, so
it is neither braced nor a name, and its length tells it from plain digits. Without the hyphens it
is the digits again (`Uuid.ofText?_text`).
-/

namespace Purse.Uuid

/-- Groups of digits with hyphens between them are read as the digits in a row. -/
theorem ofHyphenated?_groups {a b c d e : List Char} (ha : a.length = 8) (hb : b.length = 4)
    (hc : c.length = 4) (hd : d.length = 4) (he : e.length = 12) :
    ofHyphenated? (a ++ '-' :: b ++ '-' :: c ++ '-' :: d ++ '-' :: e) =
      ofSimple? (a ++ b ++ c ++ d ++ e) := by
  -- the hyphens stand where they have to
  have hyphens : ((a ++ '-' :: b ++ '-' :: c ++ '-' :: d ++ '-' :: e).length = 36 &&
      (a ++ '-' :: b ++ '-' :: c ++ '-' :: d ++ '-' :: e)[8]? == some '-' &&
      (a ++ '-' :: b ++ '-' :: c ++ '-' :: d ++ '-' :: e)[13]? == some '-' &&
      (a ++ '-' :: b ++ '-' :: c ++ '-' :: d ++ '-' :: e)[18]? == some '-' &&
      (a ++ '-' :: b ++ '-' :: c ++ '-' :: d ++ '-' :: e)[23]? == some '-') = true := by
    simp [ha, hb, hc, hd, he]
  -- and the pieces between them are the groups
  rw [ofHyphenated?, if_pos hyphens]
  congr 1
  simp (disch := omega) [ha, hb, hc, hd, List.drop_append, List.drop_eq_nil_of_le]

/-- Digits in a row, in five groups. -/
theorem groups_eq (ds : List Char) :
    ds.take 8 ++ (ds.drop 8).take 4 ++ (ds.drop 12).take 4 ++ (ds.drop 16).take 4 ++ ds.drop 20 =
      ds := by
  have split (i n : Nat) : (ds.drop i).take n ++ ds.drop (i + n) = ds.drop i := by
    rw [← List.drop_drop, List.take_append_drop]
  rw [List.append_assoc, split 16 4, List.append_assoc, split 12 4, List.append_assoc, split 8 4,
    List.take_append_drop]

/-- The digits of an identifier are read back one by one. -/
theorem ofSimple?_digits (u : Uuid) : ofSimple? (u.digits.map Text.hexDigit) = some u := by
  have values : (u.digits.map Text.hexDigit).mapM Text.hexValue? = some u.digits := by
    rw [List.mapM_map]
    induction u.digits with
    | nil => rfl
    | cons d ds ih =>
      rw [List.mapM_cons, ih, Function.comp_apply, Text.hexValue?_hexDigit]
      rfl
  rw [ofSimple?, values]
  exact dif_pos u.length_digits

/-- A text that is no name, not in braces and not as short as plain digits is hyphenated. -/
theorem ofChars?_cons {c : Char} {cs : List Char} (brace : c ≠ '\x7b') (letter : c ≠ 'u')
    (long : (c :: cs).length ≠ 32) : ofChars? (c :: cs) = ofHyphenated? (c :: cs) := by
  have bare : braced? (c :: cs) = none := by
    unfold braced?
    split
    · next eq =>
      cases eq
      exact absurd rfl brace
    · rfl
  have nameless : Text.after? ['u', 'r', 'n', ':', 'u', 'u', 'i', 'd', ':'] (c :: cs) = none := by
    rw [Text.after?, if_neg (Ne.symm letter)]
  simp only [ofChars?, bare, nameless, if_neg long]

/-- **An identifier is read as it was written.** -/
theorem ofText?_text (u : Uuid) : ofText? u.text = some u := by
  have length : (u.digits.map Text.hexDigit).length = 32 := by
    rw [List.length_map, u.length_digits]
  have digit : ∀ c ∈ u.digits.map Text.hexDigit, c ≠ '\x7b' ∧ c ≠ 'u' := by
    intro c hc
    obtain ⟨d, -, rfl⟩ := List.mem_map.1 hc
    clear hc
    revert d
    decide
  have back := ofSimple?_digits u
  rw [ofText?, text, String.toList_ofList, chars]
  generalize u.digits.map Text.hexDigit = ds at *
  have read := ofHyphenated?_groups (a := ds.take 8) (b := (ds.drop 8).take 4)
    (c := (ds.drop 12).take 4) (d := (ds.drop 16).take 4) (e := ds.drop 20)
    (by simp [length]) (by simp [length]) (by simp [length]) (by simp [length]) (by simp [length])
  rw [groups_eq, back] at read
  have long : (ds.take 8 ++ '-' :: (ds.drop 8).take 4 ++ '-' :: (ds.drop 12).take 4 ++
    '-' :: (ds.drop 16).take 4 ++ '-' :: ds.drop 20).length ≠ 32 := by simp [length]
  cases ds with
  | nil => cases length
  | cons c cs =>
    -- the written form begins with the first digit, which neither a brace nor a name begins with
    obtain ⟨brace, letter⟩ := digit c List.mem_cons_self
    exact (ofChars?_cons brace letter long).trans read

end Purse.Uuid
