import Purse.Proofs.Decimal.Numeral
import Purse.Proofs.Json.Text

/-!
# Written values are read back

A value that is written without blanks is read as itself, in front of anything that cannot go on a
number. The reader takes a unit of fuel for each level, item and member, and each of these has a
character of its own in the text, so the length of the text is fuel enough (`Json.value?_compact`).
What can be read back are the values whose numerals have the form that documents allow and whose
texts have characters (`Json.Proper`).
-/

namespace Purse.Json

open Text (EndsDigits)

variable {c : Char} {cs rest : List Char} {n : Numeral} {fuel : Nat}
  {fraction : Option (List Char)} {exponent : Option (Bool × List Char)}

/-! ### Numbers -/

/-- What follows a value: nothing that a number could go on with. -/
def EndsValue (cs : List Char) : Prop :=
  ∀ c ∈ cs.head?, c.isDigit = false ∧ c ≠ '.' ∧ c ≠ 'e' ∧ c ≠ 'E'

theorem endsValue_nil : EndsValue [] := nofun

theorem endsValue_cons (h : c.isDigit = false ∧ c ≠ '.' ∧ c ≠ 'e' ∧ c ≠ 'E') :
    EndsValue (c :: cs) := by
  rintro _ ⟨⟩
  exact h

theorem EndsValue.endsDigits (stop : EndsValue rest) : EndsDigits rest :=
  fun c h => (stop c h).1

/-- An exponent ends the digits before it. -/
theorem EndsValue.endsDigits_exponent (stop : EndsValue rest) :
    EndsDigits (Numeral.exponentChars exponent ++ rest) := by
  cases exponent with
  | none => exact stop.endsDigits
  | some e => exact Text.endsDigits_cons.2 rfl

/-- So does a point. -/
theorem EndsValue.endsDigits_point (stop : EndsValue rest) : EndsDigits
    (Numeral.pointChars fraction ++ (Numeral.exponentChars exponent ++ rest)) := by
  cases fraction with
  | none => exact stop.endsDigits_exponent
  | some places => exact Text.endsDigits_cons.2 rfl

theorem exponent?_exponentChars (some_ : ∀ e ∈ exponent, e.2 ≠ [] ∧ ∀ c ∈ e.2, c.isDigit)
    (stop : EndsValue rest) :
    Numeral.exponent? (Numeral.exponentChars exponent ++ rest) = some (exponent, rest) := by
  cases exponent with
  | none => exact Numeral.exponent?_of_ne fun c h => (stop c h).2.2
  | some e =>
    obtain ⟨some_, digits⟩ := some_ e rfl
    exact Numeral.exponent?_append some_ digits stop.endsDigits

theorem fractionRun_pointChars (digits : ∀ places ∈ fraction, ∀ c ∈ places, c.isDigit)
    (stop : EndsValue rest) :
    Numeral.fractionRun (Numeral.pointChars fraction ++ (Numeral.exponentChars exponent ++ rest)) =
      (fraction, Numeral.exponentChars exponent ++ rest) := by
  cases fraction with
  | none =>
    refine Numeral.fractionRun_of_ne ?_
    cases exponent with
    | none => exact fun h => (stop '.' h).2.1 rfl
    | some e => exact fun h => absurd (Option.some.inj h) (by decide)
  | some places => exact Numeral.fractionRun_point (digits places rfl) stop.endsDigits_exponent

/-- **A numeral of the right form is read as it was written.** -/
theorem numeral?_chars (wf : n.WellFormed) (stop : EndsValue rest) :
    numeral? (n.chars ++ rest) = some (n, rest) := by
  obtain ⟨negative, whole, fraction, exponent⟩ := n
  obtain ⟨whole_, fraction_, exponent_⟩ := wf
  dsimp only at whole_ fraction_ exponent_
  -- each part is read in front of those that follow it
  have exponentRun := exponent?_exponentChars exponent_ stop
  have fractionRun : Numeral.fractionRun
      (Numeral.pointChars fraction ++ (Numeral.exponentChars exponent ++ rest)) =
        (fraction, Numeral.exponentChars exponent ++ rest) :=
    fractionRun_pointChars (fun places h => (fraction_ places h).2) stop
  have fractionStop : EndsDigits
      (Numeral.pointChars fraction ++ (Numeral.exponentChars exponent ++ rest)) :=
    stop.endsDigits_point
  have wholeRun := Text.digits1?_append whole_.ne_nil whole_.digits fractionStop
  have some_ : fraction ≠ some [] := by
    rintro rfl
    exact (fraction_ [] rfl).1 rfl
  rw [Numeral.chars_eq]
  dsimp only
  cases negative with
  | true => simpa [numeral?, wholeRun, fractionRun, exponentRun] using ⟨whole_.no_leading_zero, some_⟩
  | false =>
    -- without a sign the first character is a digit
    cases whole with
    | nil => exact absurd rfl whole_.ne_nil
    | cons d ds =>
      have digit := whole_.digits d List.mem_cons_self
      rw [List.cons_append] at wholeRun
      simp only [numeral?, Bool.false_eq_true, if_false, List.nil_append, List.append_assoc,
        List.cons_append]
      split
      · next minus =>
        cases minus
        exact absurd digit (by decide)
      · have zero : 0 < ds.length → d ≠ '0' := fun long eq =>
          whole_.no_leading_zero (Nat.succ_lt_succ long) (congrArg some eq)
        simpa [wholeRun, fractionRun, exponentRun] using ⟨zero, some_⟩

/-! ### Values -/

mutual

/-- A value that can be read back: its numerals have the right form, and each text, also the name of
a member, has characters. -/
def Proper : Json → Prop
  | null => True
  | bool _ => True
  | number n => n.WellFormed
  | text s => s.isSome
  | array items => ProperItems items
  | object members => ProperMembers members

/-- Items that can be read back. -/
def ProperItems : List Json → Prop
  | [] => True
  | v :: rest => Proper v ∧ ProperItems rest

/-- Members that can be read back. -/
def ProperMembers : List (Option String × Json) → Prop
  | [] => True
  | (k, v) :: rest => k.isSome ∧ Proper v ∧ ProperMembers rest

end

/-- A value begins with a character that is no space and does not end an array. -/
def StartsValue (cs : List Char) : Prop :=
  ∃ c cs', cs = c :: cs' ∧ isSpace c = false ∧ c ≠ ']'

theorem StartsValue.append (h : StartsValue cs) (rest : List Char) : StartsValue (cs ++ rest) := by
  obtain ⟨c, cs', rfl, first⟩ := h
  exact ⟨c, cs' ++ rest, rfl, first⟩

theorem dropSpaces_cons (first : isSpace c = false) : dropSpaces (c :: cs) = c :: cs := by
  rw [dropSpaces, List.dropWhile_cons_of_neg (by simp [first])]

/-- What a numeral begins with. -/
def startsNumeral (c : Char) : Bool := c == '-' || c.isDigit

theorem exists_chars_eq (wf : n.WellFormed) : ∃ c cs, n.chars = c :: cs ∧ startsNumeral c := by
  obtain ⟨negative, whole, fraction, exponent⟩ := n
  cases negative with
  | true => exact ⟨'-', _, rfl, rfl⟩
  | false =>
    cases whole with
    | nil => exact absurd rfl wf.whole.ne_nil
    | cons d ds =>
      have digit := wf.whole.digits d List.mem_cons_self
      exact ⟨d, _, rfl, by simp [startsNumeral, digit]⟩

/-- A character that does not begin a numeral is not the first one of a numeral. -/
theorem ne_of_startsNumeral {d : Char} (first : startsNumeral c) (other : startsNumeral d = false) :
    c ≠ d := by
  rintro rfl
  rw [other] at first
  cases first

theorem isSpace_of_startsNumeral (first : startsNumeral c) : isSpace c = false := by
  have other {d : Char} (h : startsNumeral d = false) : (c == d) = false :=
    beq_false_of_ne (ne_of_startsNumeral first h)
  rw [isSpace, other rfl, other rfl, other rfl, other rfl]
  rfl

theorem startsValue_compact {v : Json} (proper : v.Proper) : StartsValue v.compact := by
  cases v with
  | null => exact ⟨_, _, rfl, by decide⟩
  | bool b => cases b <;> exact ⟨_, _, rfl, by decide⟩
  | number n =>
    obtain ⟨c, cs, eq, first⟩ := exists_chars_eq (n := n) proper
    exact ⟨c, cs, eq, isSpace_of_startsNumeral first, ne_of_startsNumeral first (by decide)⟩
  | text s => exact ⟨_, _, rfl, by decide⟩
  | array items => exact ⟨_, _, rfl, by decide⟩
  | object members => exact ⟨_, _, rfl, by decide⟩

/-- What begins like a numeral is read as one. -/
theorem value?_numeral (first : startsNumeral c) :
    value? (fuel + 1) (c :: cs) = (numeral? (c :: cs)).map fun r => (number r.1, r.2) := by
  rw [value?, dropSpaces_cons (isSpace_of_startsNumeral first)]
  split
  case h_7 => rfl
  all_goals
    next eq =>
      cases eq
      cases first

/-- An array that is not empty is read as its items. -/
theorem value?_array (start : StartsValue cs) :
    value? (fuel + 1) ('[' :: cs) = (items? fuel cs).map fun r => (array r.1, r.2) := by
  obtain ⟨c, cs, rfl, space, bracket⟩ := start
  rw [value?, dropSpaces_cons rfl]
  split
  case h_5 rest eq =>
    cases eq
    rw [dropSpaces_cons space]
    split
    · next close =>
      cases close
      exact absurd rfl bracket
    · rfl
  case h_7 other _ => exact (other (c :: cs) rfl).elim
  all_goals
    next eq => cases eq

/-- An object that is not empty is read as its members. -/
theorem value?_object :
    value? (fuel + 1) ('\x7b' :: '"' :: cs) =
      (members? fuel ('"' :: cs)).map fun r => (object r.1, r.2) := rfl

/-! ### Values in a text -/

theorem endsValue_comma (cs : List Char) : EndsValue (',' :: cs) := endsValue_cons (by decide)

theorem endsValue_bracket (cs : List Char) : EndsValue (']' :: cs) := endsValue_cons (by decide)

theorem endsValue_brace (cs : List Char) : EndsValue ('\x7d' :: cs) := endsValue_cons (by decide)

theorem textChars_append (s : String) (rest : List Char) :
    textChars (some s) ++ rest = '"' :: (s.toList.flatMap escapeChar ++ '"' :: rest) := by
  simp [textChars, quoted]

theorem separated_cons_cons (between p q : List Char) (ps : List (List Char)) :
    separated between (p :: q :: ps) = p ++ between ++ separated between (q :: ps) := rfl

theorem compact_array_append (vs : List Json) (rest : List Char) :
    (array vs).compact ++ rest = '[' :: (separated [','] (compactItems vs) ++ ']' :: rest) := by
  simp [compact]

theorem compact_object_append (ms : List (Option String × Json)) (rest : List Char) :
    (object ms).compact ++ rest =
      '\x7b' :: (separated [','] (compactMembers ms) ++ '\x7d' :: rest) := by
  simp [compact]

/-- The first member of an object, and what the reader does with what is left. -/
theorem members?_cons (k : String) (cs : List Char) :
    members? (fuel + 1) (textChars (some k) ++ ':' :: cs) =
      match value? fuel cs with
      | none => none
      | some (v, rest) =>
        match dropSpaces rest with
        | ',' :: rest => (members? fuel rest).map fun (ms, rest) => ((some k, v) :: ms, rest)
        | '\x7d' :: rest => some ([(some k, v)], rest)
        | _ => none := by
  rw [textChars_append, members?, dropSpaces_cons rfl, Text.after?, if_pos rfl, Text.after?]
  dsimp only
  rw [textBody?_append]
  rfl

-- The induction is on the value. What is left of the fuel for a part is at least the length of its
-- text, because a bracket or a comma that stands before the part has taken up what was used.
mutual

/-- **A value is read as it was written,** with as much fuel as its text is long. -/
theorem value?_compact : ∀ (v : Json) (fuel : Nat) (rest : List Char), v.Proper →
    v.compact.length ≤ fuel → EndsValue rest → value? fuel (v.compact ++ rest) = some (v, rest)
  | v, 0, rest, proper, long, _ => by
    obtain ⟨c, cs, eq, -⟩ := startsValue_compact proper
    rw [eq] at long
    cases long
  | null, fuel + 1, rest, _, _, _ => rfl
  | bool true, fuel + 1, rest, _, _, _ => rfl
  | bool false, fuel + 1, rest, _, _, _ => rfl
  | number n, fuel + 1, rest, proper, _, stop => by
    have read : numeral? (n.chars ++ rest) = some (n, rest) := numeral?_chars proper stop
    obtain ⟨c, cs, eq, first⟩ := exists_chars_eq (n := n) proper
    rw [compact]
    rw [eq, List.cons_append] at read ⊢
    rw [value?_numeral first, read]
    rfl
  | text none, fuel + 1, rest, proper, _, _ => absurd proper Bool.false_ne_true
  | text (some s), fuel + 1, rest, _, _, _ => by
    rw [compact, textChars_append]
    show (textBody? _).map _ = _
    rw [textBody?_append]
    rfl
  | array [], fuel + 1, rest, _, _, _ => rfl
  | array (v :: vs), fuel + 1, rest, proper, long, _ => by
    have fits : (separated [','] (compactItems (v :: vs))).length + 1 ≤ fuel := by
      simp only [compact, List.length_cons, List.length_append] at long
      omega
    have read := items?_compact v vs fuel rest proper fits
    have start : StartsValue (separated [','] (compactItems (v :: vs))) := by
      have first := startsValue_compact proper.1
      cases vs with
      | nil => exact first
      | cons w ws => exact (first.append _).append _
    rw [compact_array_append, value?_array (start.append _), read]
    rfl
  | object [], fuel + 1, rest, _, _, _ => rfl
  | object ((k, v) :: ms), fuel + 1, rest, proper, long, _ => by
    have fits : (separated [','] (compactMembers ((k, v) :: ms))).length + 1 ≤ fuel := by
      simp only [compact, List.length_cons, List.length_append] at long
      omega
    have read := members?_compact k v ms fuel rest proper fits
    have start : ∃ cs, separated [','] (compactMembers ((k, v) :: ms)) = '"' :: cs := by
      cases ms <;> exact ⟨_, rfl⟩
    obtain ⟨cs, eq⟩ := start
    rw [compact_object_append]
    rw [eq, List.cons_append] at read ⊢
    rw [value?_object, read]
    rfl

/-- The items of an array are read as they were written. -/
theorem items?_compact : ∀ (v : Json) (vs : List Json) (fuel : Nat) (rest : List Char),
    ProperItems (v :: vs) → (separated [','] (compactItems (v :: vs))).length + 1 ≤ fuel →
      items? fuel (separated [','] (compactItems (v :: vs)) ++ ']' :: rest) = some (v :: vs, rest)
  | v, [], fuel + 1, rest, proper, long => by
    have fits : v.compact.length ≤ fuel := Nat.le_of_succ_le_succ long
    show items? (fuel + 1) (v.compact ++ ']' :: rest) = _
    rw [items?, value?_compact v fuel _ proper.1 fits (endsValue_bracket rest)]
    rfl
  | v, w :: ws, fuel + 1, rest, proper, long => by
    have fits : v.compact.length ≤ fuel ∧
        (separated [','] (compactItems (w :: ws))).length + 1 ≤ fuel := by
      simp only [compactItems, separated_cons_cons, List.length_append, List.length_singleton]
        at long ⊢
      omega
    have read := items?_compact w ws fuel rest proper.2 fits.2
    show items? (fuel + 1) (v.compact ++ [','] ++ separated [','] (compactItems (w :: ws)) ++
      ']' :: rest) = _
    rw [List.append_assoc, List.append_assoc, List.singleton_append, items?,
      value?_compact v fuel _ proper.1 fits.1 (endsValue_comma _)]
    show (items? fuel _).map _ = _
    rw [read]
    rfl

/-- The members of an object are read as they were written. -/
theorem members?_compact : ∀ (k : Option String) (v : Json) (ms : List (Option String × Json))
    (fuel : Nat) (rest : List Char), ProperMembers ((k, v) :: ms) →
      (separated [','] (compactMembers ((k, v) :: ms))).length + 1 ≤ fuel →
        members? fuel (separated [','] (compactMembers ((k, v) :: ms)) ++ '\x7d' :: rest) =
          some ((k, v) :: ms, rest)
  | none, _, _, _ + 1, _, proper, _ => absurd proper.1 Bool.false_ne_true
  | some k, v, [], fuel + 1, rest, proper, long => by
    have fits : v.compact.length ≤ fuel := by
      simp only [compactMembers, separated, List.length_append, List.length_cons] at long
      omega
    show members? (fuel + 1) (textChars (some k) ++ ':' :: v.compact ++ '\x7d' :: rest) = _
    rw [List.append_assoc, List.cons_append, members?_cons,
      value?_compact v fuel _ proper.2.1 fits (endsValue_brace rest)]
    rfl
  | some k, v, (l, w) :: ms, fuel + 1, rest, proper, long => by
    have fits : v.compact.length ≤ fuel ∧
        (separated [','] (compactMembers ((l, w) :: ms))).length + 1 ≤ fuel := by
      simp only [compactMembers, separated_cons_cons, List.length_append, List.length_cons,
        List.length_nil] at long ⊢
      omega
    have read := members?_compact l w ms fuel rest proper.2.2 fits.2
    show members? (fuel + 1) (textChars (some k) ++ ':' :: v.compact ++ [','] ++
      separated [','] (compactMembers ((l, w) :: ms)) ++ '\x7d' :: rest) = _
    rw [List.append_assoc, List.append_assoc, List.append_assoc, List.cons_append, members?_cons,
      List.singleton_append, value?_compact v fuel _ proper.2.1 fits.1 (endsValue_comma _)]
    show (members? fuel _).map _ = _
    rw [read]
    rfl

end

/-- **A proper value is read as it was written.** -/
theorem ofText?_compactText {v : Json} (proper : v.Proper) : ofText? v.compactText = some v := by
  have read := value?_compact v (v.compact.length + 1) [] proper (Nat.le_succ _) endsValue_nil
  rw [List.append_nil] at read
  rw [ofText?, compactText, String.toList_ofList, ofChars?, read]
  rfl

end Purse.Json
