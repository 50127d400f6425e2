import Mathlib.Data.List.TakeWhile
import Purse.Proofs.Text.Digits
import Purse.Proofs.Timestamp.Calendar
import Purse.Timestamp.Text

/-!
# Timestamps are read as they were written

A written timestamp has its numbers in fixed widths, so each is read back with what follows it left
over: the year of four digits, the other parts of two, and three, six or nine digits of a fraction
that are brought back to nanoseconds. From the parts the instant is counted again, by the days to
its date and the seconds of the day (`Timestamp.ofText?_text`).
-/

namespace Purse.Timestamp

variable {n width : Nat} {ds rest : List Char} {c : Char} {t : Timestamp}

/-! ### Parts of a written timestamp -/

/-- What is read by a step that succeeds is handed on. -/
theorem bind_of_eq_some {α β : Type} {x : Option α} {a : α} {f : α → Option β} (h : x = some a) :
    (x >>= f) = f a := by
  rw [h]
  rfl

theorem isBlank_of_isDigit (digit : c.isDigit) : Text.isBlank c = false := by
  simp only [Char.isDigit, Bool.and_eq_true, decide_eq_true_eq] at digit
  have low : 48 ≤ c.toNat := digit.1
  have high : c.toNat ≤ 57 := digit.2
  simp only [Text.isBlank, Bool.or_eq_false_iff, Bool.and_eq_false_iff, beq_eq_false_iff_ne,
    decide_eq_false_iff_not]
  omega

theorem dropBlanks_cons (plain : Text.isBlank c = false) :
    Text.dropBlanks (c :: rest) = c :: rest := by
  rw [Text.dropBlanks, List.dropWhile_cons_of_neg (by simp [plain])]

/-- Digits have no blanks before them. -/
theorem dropBlanks_append (some_ : ds ≠ []) (digits : ∀ c ∈ ds, c.isDigit) :
    Text.dropBlanks (ds ++ rest) = ds ++ rest := by
  cases ds with
  | nil => exact absurd rfl some_
  | cons c cs => exact dropBlanks_cons (isBlank_of_isDigit (digits c List.mem_cons_self))

/-- A number that fills its width is read whatever follows. -/
theorem number?_padded (pos : 0 < width) (h : n < 10 ^ width) :
    number? width (Text.padded width n ++ rest) = some (n, rest) := by
  have length := Text.length_padded pos h
  have digits : ∀ c ∈ Text.padded width n, c.isDigit := fun _ => Text.isDigit_of_mem_padded
  have value := Text.natOfDigits_padded width n
  generalize Text.padded width n = ds at *
  have some_ : ds ≠ [] := by
    rintro rfl
    exact absurd length pos.ne
  have taken : ((ds ++ rest).take width).takeWhile Char.isDigit = ds := by
    rw [← length, List.take_left, List.takeWhile_eq_self_iff]
    exact digits
  rw [number?, dropBlanks_append some_ digits, taken, ← value]
  cases ds with
  | nil => exact absurd rfl some_
  | cons d ds =>
    show some (Text.natOfDigits (d :: ds), (d :: ds ++ rest).drop (d :: ds).length) = _
    rw [List.drop_left]

/-- A part of two digits. -/
theorem number?_two (h : n < 100) : number? 2 (Text.padded 2 n ++ rest) = some (n, rest) :=
  number?_padded (by decide) h

theorem separator?_cons (plain : Text.isBlank c = false) : separator? c (c :: rest) = some rest := by
  rw [separator?, dropBlanks_cons plain]
  exact Text.after?_append [c] rest

theorem year?_yearChars {year : Int} (low : 0 ≤ year) (high : year ≤ 9999) :
    year? (yearChars year ++ rest) = some (year, rest) := by
  have fits : year.toNat < 10 ^ 4 := by omega
  have digits : ∀ c ∈ Text.padded 4 year.toNat, c.isDigit := fun _ => Text.isDigit_of_mem_padded
  have length := Text.length_padded (by decide) fits
  have read : number? 4 (Text.padded 4 year.toNat ++ rest) = some (year.toNat, rest) :=
    number?_padded (by decide) fits
  rw [yearChars, if_pos ⟨low, high⟩]
  generalize Text.padded 4 year.toNat = ds at *
  have some_ : ds ≠ [] := by
    rintro rfl
    cases length
  rw [year?, dropBlanks_append some_ digits]
  -- a year of four digits begins with a digit, so it has no sign
  cases ds with
  | nil => exact absurd rfl some_
  | cons d ds =>
    have digit := digits d List.mem_cons_self
    dsimp only [List.cons_append] at read ⊢
    split
    · next eq =>
      cases eq
      exact absurd digit (by decide)
    · next eq =>
      cases eq
      exact absurd digit (by decide)
    · rw [read, Option.map_some, Int.toNat_of_nonneg low]

/-- **A fraction is read back to the nanosecond,** whether it has none, three, six or nine
digits. -/
theorem fraction?_fractionChars {nanos : Nat} (h : nanos < 1000000000) :
    fraction? (fractionChars nanos ++ 'Z' :: rest) = some (nanos, 'Z' :: rest) := by
  -- a fraction of so many digits stands for that many places of a second
  have places {width n : Nat} (pos : 0 < width) (le : width ≤ 9) (fits : n < 10 ^ width) :
      fraction? ('.' :: Text.padded width n ++ 'Z' :: rest) =
        some (n * 10 ^ (9 - width), 'Z' :: rest) := by
    have length := Text.length_padded pos fits
    have some_ : Text.padded width n ≠ [] := by
      intro none_
      rw [none_] at length
      exact absurd length pos.ne
    have run : Text.digits1? (Text.padded width n ++ 'Z' :: rest) =
        some (Text.padded width n, 'Z' :: rest) :=
      Text.digits1?_append some_ (fun _ => Text.isDigit_of_mem_padded) (Text.endsDigits_cons.2 rfl)
    have all : (Text.padded width n).take 9 = Text.padded width n :=
      List.take_of_length_le (by omega)
    rw [List.cons_append, fraction?, run, Option.map_some]
    dsimp only
    rw [all, Text.natOfDigits_padded, length]
    rfl
  unfold fractionChars
  split
  · next none_ =>
    rw [none_]
    rfl
  · split
    · next three =>
      rw [places (by decide) (by decide) (by omega)]
      congr 2
      omega
    · split
      · next six =>
        rw [places (by decide) (by decide) (by omega)]
        congr 2
        omega
      · rw [places (by decide) (by decide) h, Nat.sub_self, Nat.pow_zero, Nat.mul_one]

/-! ### The instant -/

/-- The year in which an instant lies, in universal time. -/
def year (t : Timestamp) : Int := (Date.ofDays (t.seconds / 86400)).year

/-- An instant of the years 0000 to 9999, not inside a leap second. -/
structure IsPlain (t : Timestamp) : Prop where
  year_nonneg : 0 ≤ t.year
  year_le : t.year ≤ 9999
  no_leap : t.inLeapSecond = false

theorem IsPlain.nanos_lt (h : t.IsPlain) : t.nanos < nanosPerSecond :=
  Nat.lt_of_not_le (of_decide_eq_false h.no_leap)

/-- The parts of an instant make it again. -/
theorem ofParts?_ofDays (h : t.IsPlain) :
    ofParts? (Date.ofDays (t.seconds / 86400)) ((t.seconds % 86400).toNat / 3600)
      ((t.seconds % 86400).toNat / 60 % 60) ((t.seconds % 86400).toNat % 60) t.nanos 0 = some t := by
  have small : t.nanos < 1000000000 := h.nanos_lt
  have kept : yearInRange (Date.ofDays (t.seconds / 86400)).year := by
    have low : 0 ≤ (Date.ofDays (t.seconds / 86400)).year := h.year_nonneg
    have high : (Date.ofDays (t.seconds / 86400)).year ≤ 9999 := h.year_le
    simp only [yearInRange, Bool.and_eq_true, decide_eq_true_eq]
    omega
  have valid := Date.isValid_ofDays (t.seconds / 86400)
  rw [ofParts?, dif_pos ⟨small, valid, kept, by omega, by omega, by omega, by decide⟩,
    Date.toDays_ofDays]
  dsimp only
  rw [if_neg (by omega)]
  -- days and seconds of the day are the seconds
  have whole : t.seconds / 86400 * 86400 + ((t.seconds % 86400).toNat / 3600 * 3600 +
      (t.seconds % 86400).toNat / 60 % 60 * 60 + min ((t.seconds % 86400).toNat % 60) 59 : Nat) -
        0 = t.seconds := by
    omega
  cases t
  congr

theorem twoDigits_bounds (d : Date) (valid : d.isValid) : d.month < 100 ∧ d.day < 100 := by
  simp only [Date.isValid, Bool.and_eq_true, decide_eq_true_eq] at valid
  have longest : Date.daysInMonth d.year d.month ≤ 31 := by
    unfold Date.daysInMonth
    split
    · split <;> decide
    all_goals decide
  omega

/-- **A timestamp is read as it was written.** -/
theorem ofText?_text (h : t.IsPlain) : ofText? t.text = some t := by
  have parts := ofParts?_ofDays h
  have low : 0 ≤ (Date.ofDays (t.seconds / 86400)).year := h.year_nonneg
  have high : (Date.ofDays (t.seconds / 86400)).year ≤ 9999 := h.year_le
  obtain ⟨month, day⟩ := twoDigits_bounds _ (Date.isValid_ofDays (t.seconds / 86400))
  have small : t.nanos < 1000000000 := h.nanos_lt
  have nanos : t.nanos % nanosPerSecond = t.nanos := Nat.mod_eq_of_lt small
  rw [ofText?, text, String.toList_ofList, chars, h.no_leap, nanos, if_neg Bool.false_ne_true,
    Nat.add_zero]
  generalize Date.ofDays (t.seconds / 86400) = date at *
  have second : (t.seconds % 86400).toNat < 86400 := by omega
  generalize (t.seconds % 86400).toNat = s at *
  obtain ⟨y, m, d⟩ := date
  dsimp only at *
  have hour : s / 3600 < 100 := by omega
  have minute : s / 60 % 60 < 100 := by omega
  have sec : s % 60 < 100 := by omega
  have dash (cs : List Char) : separator? '-' ('-' :: cs) = some cs := separator?_cons rfl
  have colon (cs : List Char) : separator? ':' (':' :: cs) = some cs := separator?_cons rfl
  have mark (cs : List Char) : dateEnd? ('T' :: cs) = some cs := rfl
  simp only [List.append_assoc, List.cons_append]
  rw [ofChars?]
  have zone : offset? (Text.dropBlanks ['Z']) = some (0, []) := rfl
  -- from the left to the right
  refine (bind_of_eq_some (year?_yearChars low high)).trans ?_
  refine (bind_of_eq_some (dash _)).trans ?_
  refine (bind_of_eq_some (number?_two month)).trans ?_
  refine (bind_of_eq_some (dash _)).trans ?_
  refine (bind_of_eq_some (number?_two day)).trans ?_
  refine (bind_of_eq_some (mark _)).trans ?_
  refine (bind_of_eq_some (number?_two hour)).trans ?_
  refine (bind_of_eq_some (colon _)).trans ?_
  refine (bind_of_eq_some (number?_two minute)).trans ?_
  refine (bind_of_eq_some (colon _)).trans ?_
  refine (bind_of_eq_some (number?_two sec)).trans ?_
  refine (bind_of_eq_some (fraction?_fractionChars small)).trans ?_
  refine (bind_of_eq_some zone).trans ?_
  exact parts

end Purse.Timestamp
