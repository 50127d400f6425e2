import Purse.Json.Reader

/-!
# Texts in quotes

A text in quotes is read back as it was, whatever characters it has. Each character is written as
itself, as a short escape or by its number, and each of these is read as the number of that
character (`Json.codePoints?_escapeChar`), so that a text becomes the numbers of its characters
(`Json.codePoints?_append`). No number of a character is half a surrogate pair, so the numbers are
the characters again (`Json.joinSurrogates?_map`).
-/

namespace Purse.Json

variable {c : Char} {s rest : List Char}

/-! ### Escapes -/

/-- A control character is written by four digits, which are read as its number. -/
theorem hexPadded_control : ∀ n < 0x20, ∃ a b c d, Text.hexPadded 4 n = [a, b, c, d] ∧
    hex4? a b c d = some n := by
  intro n hn
  have digits : ∀ n : Fin 0x20, Text.hexPadded 4 n =
      ['0', '0', Nat.digitChar (n / 16), Nat.digitChar (n % 16)] ∧
      hex4? '0' '0' (Nat.digitChar (n / 16)) (Nat.digitChar (n % 16)) = some n.val := by decide
  exact ⟨_, _, _, _, digits ⟨n, hn⟩⟩

/-- A character that needs no escape stands for itself. -/
theorem codePoints?_plain (quote : c ≠ '"') (backslash : c ≠ '\\') (printed : ¬ c.toNat < 0x20) :
    codePoints? (c :: rest) = (codePoints? rest).map fun r => (c.toNat :: r.1, r.2) := by
  rw [codePoints?.eq_def]
  split
  · next eq => cases eq
  · next eq =>
    cases eq
    exact absurd rfl quote
  · next eq =>
    cases eq
    exact absurd rfl backslash
  · next eq =>
    cases eq
    exact absurd rfl backslash
  · next eq =>
    cases eq
    rw [if_neg (by simp [printed, backslash])]

/-- An escape of one character. -/
theorem codePoints?_short {e : Char} (escapes : shortEscape? e = some c) :
    codePoints? ('\\' :: e :: rest) = (codePoints? rest).map fun r => (c.toNat :: r.1, r.2) := by
  rw [codePoints?.eq_def]
  split
  · next eq => cases eq
  · next eq => cases eq
  · next eq =>
    cases eq
    cases escapes
  · next eq =>
    cases eq
    rw [escapes]
    cases codePoints? rest <;> rfl
  · next third eq =>
    cases eq
    exact (third e rest rfl rfl).elim

/-- **However a character is written, it is read as its number.** -/
theorem codePoints?_escapeChar (c : Char) (rest : List Char) :
    codePoints? (escapeChar c ++ rest) =
      (codePoints? rest).map fun r => (c.toNat :: r.1, r.2) := by
  unfold escapeChar
  -- the characters that have a short escape
  iterate 7
    split
    · next h =>
      subst h
      exact codePoints?_short rfl
  split
  -- any other control character is written by its number
  · next control =>
    obtain ⟨x, y, z, w, digits, value⟩ := hexPadded_control c.toNat control
    rw [digits, List.cons_append, List.cons_append]
    simp only [List.cons_append, List.nil_append, codePoints?, value]
    cases codePoints? rest <;> rfl
  · next quote backslash _ _ _ _ _ printed => exact codePoints?_plain quote backslash printed

/-- The numbers of a text are read up to its closing quote. -/
theorem codePoints?_append (s rest : List Char) :
    codePoints? (s.flatMap escapeChar ++ '"' :: rest) = some (s.map Char.toNat, rest) := by
  induction s with
  | nil => rfl
  | cons c s ih =>
    rw [List.flatMap_cons, List.append_assoc, codePoints?_escapeChar, ih]
    rfl

/-! ### Surrogates -/

/-- No character has the number of half a surrogate pair. -/
theorem not_isSurrogate (c : Char) :
    isHighSurrogate c.toNat = false ∧ isLowSurrogate c.toNat = false := by
  have valid : c.toNat < 0xD800 ∨ 0xDFFF < c.toNat ∧ c.toNat < 0x110000 := c.valid
  simp only [isHighSurrogate, isLowSurrogate, Bool.and_eq_false_iff, decide_eq_false_iff_not]
  omega

theorem joinSurrogates?_map (s : List Char) : joinSurrogates? (s.map Char.toNat) = some s := by
  induction s with
  | nil => rfl
  | cons c s ih =>
    obtain ⟨high, low⟩ := not_isSurrogate c
    cases s with
    | nil => simp [joinSurrogates?, high, low]
    | cons d s =>
      rw [List.map_cons, List.map_cons, joinSurrogates?, high, low, ← List.map_cons, ih]
      simp

/-- **A text in quotes is read back as it was.** -/
theorem textBody?_append (s : String) (rest : List Char) :
    textBody? (s.toList.flatMap escapeChar ++ '"' :: rest) = some (some s, rest) := by
  rw [textBody?, codePoints?_append, Option.map_some]
  dsimp only
  rw [joinSurrogates?_map, Option.map_some, String.ofList_toList]

end Purse.Json
