import Purse.Proofs.Wallet.Mutation

/-!
# When a mutation is refused

A mutation debits, credits, or does the one and then the other. A debit has to be of something and
covered by the balance, a credit has to be of something and to leave a balance that fits, and an
exchange has to be of two currencies. A `Refusal` is one of these demands that is not met, and
`Refusal.inOrder` is the order in which they are looked at: a mutation is refused for the first that
applies, and applied if none does (`Refusal.change_cases`).

Balances are words, and so are sums and differences of them. The sum is looked at before it is used,
the difference is not. `Mutation.applyToBy` leaves open what the operations make of a number that is
no word; `Mutation.applyToBy_eq` says that no mutation of any wallet finds out.
-/

namespace Purse

/-! ### Words -/

section Words

variable {word : Int → MinorUnits}

namespace MinorUnits

/-- The sum, if it fits, as the word that `word` makes of it. -/
def addBy? (word : Int → MinorUnits) (a b : MinorUnits) : Option MinorUnits :=
  if -9223372036854775808 ≤ a.units + b.units ∧ a.units + b.units ≤ greatest then
    some (word (a.units + b.units))
  else none

/-- The difference, unless `b` is the greater, as the word that `word` makes of it. -/
def subBy? (word : Int → MinorUnits) (a b : MinorUnits) : Option MinorUnits :=
  if a.units < b.units then none else some (word (a.units - b.units))

variable {a b : MinorUnits}

/-- A sum is made into a word only if it is one. -/
theorem addBy?_eq (faithful : ∀ u, word u.units = u) : a.addBy? word b = a.add? b := by
  unfold addBy? add? ofInt?
  split
  · next fits =>
    exact congrArg some (faithful ⟨a.units + b.units, fits.1, fits.2⟩)
  · rfl

/-- A difference is made into a word only if it is one, provided that something is taken. -/
theorem subBy?_eq (faithful : ∀ u, word u.units = u) (positive : 0 < b.units) :
    a.subBy? word b = a.sub? b := by
  -- nothing can be taken from less than nothing, so what is left lies between nothing and what was
  -- there; without a positive amount the least count less a negative one would be no word
  cases difference : a.sub? b with
  | none => exact if_pos (sub?_eq_none_iff.1 difference)
  | some left =>
    obtain ⟨covered, units⟩ := (sub?_eq_some_iff (Int.le_of_lt positive)).1 difference
    rw [subBy?, if_neg (Int.not_lt.2 covered), ← units, faithful left]

end MinorUnits

namespace Wallet

variable {w : Wallet} {c : Currency} {amount : MinorUnits}

/-- The wallet credited, with sums as `word` makes them. -/
def creditBy (word : Int → MinorUnits) (w : Wallet) (c : Currency) (amount : MinorUnits) :
    Except WalletError Wallet :=
  if amount.isPositive then
    match (w.balance c).addBy? word amount with
    | some next => .ok (w.withBalance c next)
    | none => .error (.storage (.balanceOverflow c))
  else .error .invalidAmount

/-- The wallet debited, with differences as `word` makes them. -/
def debitBy (word : Int → MinorUnits) (w : Wallet) (c : Currency) (amount : MinorUnits) :
    Except WalletError Wallet :=
  if amount.isPositive then
    match (w.balance c).subBy? word amount with
    | some next => .ok (w.withBalance c next)
    | none => .error .insufficientFunds
  else .error .invalidAmount

theorem creditBy_eq (faithful : ∀ u, word u.units = u) :
    w.creditBy word c amount = w.credit c amount := by
  unfold creditBy
  rw [MinorUnits.addBy?_eq faithful]
  rfl

/-- The amount is looked at before the difference is computed. -/
theorem debitBy_eq (faithful : ∀ u, word u.units = u) :
    w.debitBy word c amount = w.debit c amount := by
  unfold debitBy
  split
  · next positive =>
    rw [MinorUnits.subBy?_eq faithful ((MinorUnits.isPositive_iff _).1 positive)]
    exact (if_pos positive).symm
  · next nothing => exact (if_neg nothing).symm

end Wallet

namespace Mutation

/-- The row with its balances changed, with sums and differences as `word` makes them. -/
def changeBy (word : Int → MinorUnits) (w : Wallet) : Mutation → Except WalletError Wallet
  | deposit currency amount => w.creditBy word currency amount
  | withdraw currency amount => w.debitBy word currency amount
  | exchange sold debit bought credit =>
    if sold = bought then .error .sameCurrency
    else
      match w.debitBy word sold debit with
      | .ok debited => debited.creditBy word bought credit
      | .error e => .error e

/-- The row to be written, with sums and differences as `word` makes them. -/
def applyToBy (word : Int → MinorUnits) (m : Mutation) (now : Timestamp) (w : Wallet) :
    Except WalletError Wallet :=
  match m.changeBy word w with
  | .ok next => .ok (next.stamped now)
  | .error e => .error e

/-- **No sum and no difference is ever computed that is no word.** Only words have to be made into
what they are for the same row to be written. -/
theorem applyToBy_eq (faithful : ∀ u, word u.units = u) (m : Mutation) (now : Timestamp)
    (w : Wallet) : m.applyToBy word now w = m.applyTo now w := by
  have changes : m.changeBy word w = m.change w := by
    cases m with
    | deposit currency amount => exact Wallet.creditBy_eq faithful
    | withdraw currency amount => exact Wallet.debitBy_eq faithful
    | exchange sold debit bought credit =>
      rw [changeBy, change, Wallet.debitBy_eq faithful]
      split
      · rfl
      · cases w.debit sold debit with
        | error e => rfl
        | ok debited => exact Wallet.creditBy_eq faithful
  unfold applyToBy
  rw [changes]
  rfl

end Mutation

end Words

/-! ### One leg -/

namespace Wallet

variable {w next : Wallet} {c : Currency} {amount : MinorUnits}

/-- Why an amount cannot be taken. -/
def debitError? (w : Wallet) (c : Currency) (amount : MinorUnits) : Option WalletError :=
  if 0 < amount.units then
    if (w.balance c).units < amount.units then some .insufficientFunds else none
  else some .invalidAmount

/-- Why an amount cannot be given. -/
def creditError? (w : Wallet) (c : Currency) (amount : MinorUnits) : Option WalletError :=
  if 0 < amount.units then
    if MinorUnits.greatest < (w.balance c).units + amount.units then
      some (.storage (.balanceOverflow c))
    else none
  else some .invalidAmount

theorem debitError?_eq_none_iff : w.debitError? c amount = none ↔
    0 < amount.units ∧ amount.units ≤ (w.balance c).units := by
  unfold debitError?
  by_cases positive : 0 < amount.units <;> simp [positive]

theorem creditError?_eq_none_iff : w.creditError? c amount = none ↔
    0 < amount.units ∧ (w.balance c).units + amount.units ≤ MinorUnits.greatest := by
  unfold creditError?
  by_cases positive : 0 < amount.units <;> simp [positive]

/-- **A debit comes out as its reasons say.** -/
theorem debit_cases (w : Wallet) (c : Currency) (amount : MinorUnits) :
    (∃ e, w.debitError? c amount = some e ∧ w.debit c amount = .error e) ∨
      w.debitError? c amount = none ∧ ∃ next, w.debit c amount = .ok next := by
  unfold debitError?
  by_cases positive : 0 < amount.units
  · rw [if_pos positive]
    by_cases short : (w.balance c).units < amount.units
    · exact .inl ⟨_, if_pos short, debit_eq_insufficientFunds_iff.2 ⟨positive, short⟩⟩
    · exact .inr ⟨if_neg short, exists_debit_eq_ok positive short⟩
  · exact .inl ⟨_, if_neg positive, debit_eq_invalidAmount positive⟩

/-- **A credit comes out as its reasons say.** -/
theorem credit_cases (w : Wallet) (c : Currency) (amount : MinorUnits) :
    (∃ e, w.creditError? c amount = some e ∧ w.credit c amount = .error e) ∨
      w.creditError? c amount = none ∧ ∃ next, w.credit c amount = .ok next := by
  unfold creditError?
  by_cases positive : 0 < amount.units
  · rw [if_pos positive]
    by_cases full : MinorUnits.greatest < (w.balance c).units + amount.units
    · exact .inl ⟨_, if_pos full, credit_eq_balanceOverflow positive full⟩
    · exact .inr ⟨if_neg full, exists_credit_eq_ok positive full⟩
  · exact .inl ⟨_, if_neg positive, credit_eq_invalidAmount positive⟩

end Wallet

/-! ### The reasons -/

namespace Mutation

/-- The currency that a mutation adds units to, and the units. -/
def credit? : Mutation → Option (Currency × MinorUnits)
  | deposit currency amount => some (currency, amount)
  | withdraw _ _ => none
  | exchange _ _ bought credit => some (bought, credit)

/-- What a wallet has to be like for a mutation to be applied to it. -/
def Allowed (w : Wallet) : Mutation → Prop
  | deposit currency amount =>
    0 < amount.units ∧ (w.balance currency).units + amount.units ≤ MinorUnits.greatest
  | withdraw currency amount => 0 < amount.units ∧ amount.units ≤ (w.balance currency).units
  | exchange sold debit bought credit =>
    sold ≠ bought ∧ (0 < debit.units ∧ debit.units ≤ (w.balance sold).units) ∧
      0 < credit.units ∧ (w.balance bought).units + credit.units ≤ MinorUnits.greatest

end Mutation

/-- **Why a mutation can be refused.** -/
inductive Refusal where
  /-- One currency is to be debited and credited. -/
  | same
  /-- Nothing is to be debited, or less. -/
  | debit
  /-- The balance is below what is to be debited. -/
  | funds
  /-- Nothing is to be credited, or less. -/
  | credit
  /-- The balance would be too large. -/
  | room
deriving DecidableEq

namespace Refusal

variable {m : Mutation} {w : Wallet}

/-- **When a refusal applies,** and with what error. -/
def error? (w : Wallet) (m : Mutation) : Refusal → Option WalletError
  | same => do
    let taken ← m.debit?
    let given ← m.credit?
    if taken.1 = given.1 then some .sameCurrency else none
  | debit => do
    let taken ← m.debit?
    if 0 < taken.2.units then none else some .invalidAmount
  | funds => do
    let taken ← m.debit?
    if (w.balance taken.1).units < taken.2.units then some .insufficientFunds else none
  | credit => do
    let given ← m.credit?
    if 0 < given.2.units then none else some .invalidAmount
  | room => do
    let given ← m.credit?
    if MinorUnits.greatest < (w.balance given.1).units + given.2.units then
      some (.storage (.balanceOverflow given.1))
    else none

/-- **The refusals in order.** -/
def inOrder : List Refusal := [same, debit, funds, credit, room]

/-- The first refusal that applies. -/
def first? (w : Wallet) (m : Mutation) : Option WalletError := inOrder.findSome? (error? w m)

variable {sold bought : Currency} {taken given amount : MinorUnits} {c : Currency}

theorem first?_eq (w : Wallet) (m : Mutation) :
    first? w m = (error? w m same).or ((error? w m debit).or ((error? w m funds).or
      ((error? w m credit).or (error? w m room)))) := by
  change ([same] ++ ([debit] ++ ([funds] ++ ([credit] ++ [room])))).findSome? _ = _
  simp only [List.findSome?_append, List.findSome?_singleton]

/-! A deposit and a withdrawal have one leg each. An exchange has two, of two currencies. -/

theorem first?_deposit : first? w (.deposit c amount) = w.creditError? c amount := by
  unfold Wallet.creditError?
  by_cases positive : 0 < amount.units <;>
    simp [first?_eq, error?, Mutation.debit?, Mutation.credit?, positive]

theorem first?_withdraw : first? w (.withdraw c amount) = w.debitError? c amount := by
  unfold Wallet.debitError?
  by_cases positive : 0 < amount.units <;>
    simp [first?_eq, error?, Mutation.debit?, Mutation.credit?, positive]

theorem first?_exchange : first? w (.exchange sold taken bought given) =
    if sold = bought then some .sameCurrency
    else (w.debitError? sold taken).or (w.creditError? bought given) := by
  unfold Wallet.debitError? Wallet.creditError?
  by_cases same : sold = bought
  · simp [first?_eq, error?, Mutation.debit?, Mutation.credit?, same]
  · by_cases takes : 0 < taken.units <;> by_cases gives : 0 < given.units <;>
      simp [first?_eq, error?, Mutation.debit?, Mutation.credit?, same, takes, gives]

/-- Nothing stands in the way of what the wallet allows. -/
theorem first?_eq_none_iff : first? w m = none ↔ m.Allowed w := by
  cases m with
  | deposit currency amount =>
    rw [first?_deposit, Wallet.creditError?_eq_none_iff, Mutation.Allowed]
  | withdraw currency amount =>
    rw [first?_withdraw, Wallet.debitError?_eq_none_iff, Mutation.Allowed]
  | exchange sold debit bought credit =>
    rw [first?_exchange, Mutation.Allowed, ← Wallet.debitError?_eq_none_iff,
      ← Wallet.creditError?_eq_none_iff]
    by_cases same : sold = bought <;> simp [same]

/-- **A mutation is refused for the first reason that applies,** and made if there is none. -/
theorem change_cases (w : Wallet) (m : Mutation) :
    (∃ e, first? w m = some e ∧ m.change w = .error e) ∨
      first? w m = none ∧ ∃ next, m.change w = .ok next := by
  cases m with
  | deposit currency amount =>
    rw [first?_deposit]
    exact w.credit_cases currency amount
  | withdraw currency amount =>
    rw [first?_withdraw]
    exact w.debit_cases currency amount
  | exchange sold debit bought credit =>
    rw [first?_exchange]
    by_cases same : sold = bought
    · exact .inl ⟨_, if_pos same, if_pos same⟩
    rw [if_neg same]
    obtain ⟨e, why, refused⟩ | ⟨covered, between, debited⟩ := w.debit_cases sold debit
    · refine .inl ⟨e, by rw [why, Option.some_or], ?_⟩
      rw [Mutation.change, if_neg same, refused]
    · rw [covered, Option.none_or, Mutation.change_exchange_of_debit same debited]
      -- the credit finds the balance as it was before the debit, which is of the other currency
      have untouched : between.creditError? bought credit = w.creditError? bought credit := by
        unfold Wallet.creditError?
        rw [Wallet.balance_of_debit debited same]
      rw [← untouched]
      exact between.credit_cases bought credit

end Refusal

/-! ### What is written -/

namespace Mutation

variable {m : Mutation} {w next : Wallet} {now : Timestamp} {c : Currency}
  {amount taken given : MinorUnits}

theorem credited_eq (h : m.credit? = some (c, amount)) : m.credited c = amount.units := by
  cases m <;> cases h <;> exact if_pos rfl

theorem credited_eq_zero (h : ∀ amount, m.credit? ≠ some (c, amount)) : m.credited c = 0 := by
  cases m with
  | deposit currency amount => exact if_neg fun same => h amount (by rw [credit?, same])
  | withdraw currency amount => rfl
  | exchange sold debit bought credit => exact if_neg fun same => h credit (by rw [credit?, same])

theorem debited_eq_zero (h : ∀ amount, m.debit? ≠ some (c, amount)) : m.debited c = 0 := by
  cases m with
  | deposit currency amount => rfl
  | withdraw currency amount => exact if_neg fun same => h amount (by rw [debit?, same])
  | exchange sold debit bought credit => exact if_neg fun same => h debit (by rw [debit?, same])

/-- A mutation that makes sense: what it takes and what it gives is something, and not of the same
currency. -/
structure Proper (m : Mutation) : Prop where
  taken_pos : ∀ {c amount}, m.debit? = some (c, amount) → 0 < amount.units
  given_pos : ∀ {c amount}, m.credit? = some (c, amount) → 0 < amount.units
  apart : ∀ {c taken given}, m.debit? = some (c, taken) → m.credit? ≠ some (c, given)

/-- **A wallet allows what makes sense,** if it covers what is taken and has room for what is
given. -/
theorem allowed_iff : m.Allowed w ↔ m.Proper ∧
    (∀ {c amount}, m.debit? = some (c, amount) → amount.units ≤ (w.balance c).units) ∧
    ∀ {c amount}, m.credit? = some (c, amount) →
      (w.balance c).units + amount.units ≤ MinorUnits.greatest := by
  constructor
  · intro allowed
    cases m with
    | deposit currency amount =>
      obtain ⟨positive, fits⟩ := allowed
      exact ⟨⟨by grind [debit?], by grind [credit?], by grind [debit?]⟩,
        by grind [debit?], by grind [credit?]⟩
    | withdraw currency amount =>
      obtain ⟨positive, covered⟩ := allowed
      exact ⟨⟨by grind [debit?], by grind [credit?], by grind [credit?]⟩,
        by grind [debit?], by grind [credit?]⟩
    | exchange sold debit bought credit =>
      obtain ⟨differ, ⟨takes, covered⟩, gives, fits⟩ := allowed
      exact ⟨⟨by grind [debit?], by grind [credit?], by grind [debit?, credit?]⟩,
        by grind [debit?], by grind [credit?]⟩
  · rintro ⟨proper, covered, fits⟩
    cases m with
    | deposit currency amount => exact ⟨proper.given_pos rfl, fits rfl⟩
    | withdraw currency amount => exact ⟨proper.taken_pos rfl, covered rfl⟩
    | exchange sold debit bought credit =>
      refine ⟨?_, ⟨proper.taken_pos rfl, covered rfl⟩, proper.given_pos rfl, fits rfl⟩
      rintro rfl
      exact proper.apart rfl rfl

/-- **The row that a mutation writes,** currency by currency. -/
structure Writes (m : Mutation) (now : Timestamp) (w next : Wallet) : Prop where
  id_eq : next.id = w.id
  user_eq : next.user = w.user
  updatedAt_eq : next.updatedAt = now
  /-- What is given is added. -/
  given : ∀ {c amount}, m.credit? = some (c, amount) →
    (next.balance c).units = (w.balance c).units + amount.units
  /-- What is taken is subtracted. -/
  taken : ∀ {c amount}, m.debit? = some (c, amount) →
    (next.balance c).units = (w.balance c).units - amount.units
  /-- No other balance is touched. -/
  kept : ∀ {c}, (∀ amount, m.credit? ≠ some (c, amount)) →
    (∀ amount, m.debit? ≠ some (c, amount)) → next.balance c = w.balance c
  /-- Nothing is taken that leaves less than nothing. -/
  covered : ∀ {c amount}, m.debit? = some (c, amount) → 0 ≤ (next.balance c).units
  /-- If no balance was below zero, none is. -/
  nonneg : (∀ c, 0 ≤ (w.balance c).units) → ∀ c, 0 ≤ (next.balance c).units

theorem Moves.writes (h : m.Moves w next) (stamp : next.updatedAt = now) (allowed : m.Allowed w) :
    m.Writes now w next := by
  obtain ⟨proper, covered, -⟩ := allowed_iff.1 allowed
  -- what is taken is not given as well, so a leg is all that happens to its currency
  have taken {c : Currency} {amount : MinorUnits} (takes : m.debit? = some (c, amount)) :
      (next.balance c).units = (w.balance c).units - amount.units := by
    have alone : m.credited c = 0 := credited_eq_zero fun _ => proper.apart takes
    rw [h.balance_eq, alone, debited_eq takes, Int.add_zero]
  exact
    { id_eq := h.id_eq
      user_eq := h.user_eq
      updatedAt_eq := stamp
      taken
      given := fun {c amount} gives => by
        have alone : m.debited c = 0 := debited_eq_zero fun _ takes => proper.apart takes gives
        rw [h.balance_eq, credited_eq gives, alone, Int.sub_zero]
      kept := fun notGiven notTaken => by
        ext
        rw [h.balance_eq, credited_eq_zero notGiven, debited_eq_zero notTaken, Int.add_zero,
          Int.sub_zero]
      covered := fun takes => by
        rw [taken takes]
        exact Int.sub_nonneg_of_le (covered takes)
      nonneg := h.balance_nonneg }

/-- A mutation is refused for its first reason, or a row is written. -/
theorem applyTo_cases (m : Mutation) (now : Timestamp) (w : Wallet) :
    (∃ e, Refusal.first? w m = some e ∧ m.applyTo now w = .error e) ∨
      Refusal.first? w m = none ∧ ∃ next, m.applyTo now w = .ok next := by
  unfold applyTo
  obtain ⟨e, why, refused⟩ | ⟨free, row, changed⟩ := Refusal.change_cases w m
  · exact .inl ⟨e, why, by rw [refused]⟩
  · exact .inr ⟨free, row.stamped now, by rw [changed]⟩

/-- **A mutation is applied exactly if the wallet allows it.** -/
theorem exists_applyTo_iff : (∃ next, m.applyTo now w = .ok next) ↔ m.Allowed w := by
  rw [← Refusal.first?_eq_none_iff]
  obtain ⟨e, why, refused⟩ | ⟨free, applied⟩ := m.applyTo_cases now w
  · simp [refused, why]
  · exact iff_of_true applied free

/-- **A mutation is refused for the first reason that applies.** -/
theorem applyTo_eq_error_iff {e : WalletError} :
    m.applyTo now w = .error e ↔ Refusal.first? w m = some e := by
  obtain ⟨e', why, refused⟩ | ⟨free, next, applied⟩ := m.applyTo_cases now w
  · rw [refused, why, Except.error.injEq, Option.some.injEq]
  · simp [applied, free]

/-- **What it means to apply a mutation.** -/
structure Meaning (m : Mutation) (now : Timestamp) (w : Wallet) : Prop where
  /-- No sum and no difference is computed that is no word. -/
  onWords : ∀ word : Int → MinorUnits, (∀ u, word u.units = u) →
    m.applyToBy word now w = m.applyTo now w
  /-- It is applied exactly if the wallet allows it. -/
  applied_iff : (∃ next, m.applyTo now w = .ok next) ↔ m.Allowed w
  /-- Otherwise it is refused for the first reason that applies. -/
  refused_iff : ∀ e, m.applyTo now w = .error e ↔ Refusal.first? w m = some e
  /-- If it is applied, the row is written with what is given added and what is taken subtracted. -/
  writes : ∀ next, m.applyTo now w = .ok next → m.Writes now w next

/-- **Every mutation means the same on every wallet,** be its balances above zero or below and its
amounts whatever fits a word. -/
theorem meaning (m : Mutation) (now : Timestamp) (w : Wallet) : m.Meaning now w where
  onWords _ faithful := applyToBy_eq faithful m now w
  applied_iff := exists_applyTo_iff
  refused_iff _ := applyTo_eq_error_iff
  writes next applied := by
    obtain ⟨moves, stamp⟩ := applyTo_spec applied
    exact moves.writes stamp (exists_applyTo_iff.1 ⟨next, applied⟩)

end Mutation

end Purse
