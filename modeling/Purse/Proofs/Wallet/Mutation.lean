import Purse.Wallet.Mutation

/-!
# What a mutation does to the balances

`Mutation.credited` and `Mutation.debited` say how many units a mutation adds to a currency and
takes from it. `Mutation.applyTo_spec` says that the row written is the row as it was with exactly
these units moved, whatever the balances are, and that a debit never exceeds the balance it is taken
from; `Mutation.Moves.balance_nonneg` follows. The refusal for lack of funds is described by
`Mutation.debit?`, the currency and the units that a mutation takes.

Wallets that differ in their timestamps only are the same account (`Wallet.SameAccount`), and
mutations do not tell them apart.
-/

namespace Purse

namespace Wallet

variable {w next : Wallet} {c : Currency} {amount : MinorUnits}

theorem credit_eq_ok (h : w.credit c amount = .ok next) :
    0 < amount.units ∧
      ∃ u, u.units = (w.balance c).units + amount.units ∧ next = w.withBalance c u := by
  unfold credit at h
  split at h
  · next positive =>
    split at h
    · next u hu =>
      cases h
      exact ⟨(MinorUnits.isPositive_iff _).1 positive, u, MinorUnits.add?_eq_some_iff.1 hu, rfl⟩
    · cases h
  · cases h

theorem debit_eq_ok (h : w.debit c amount = .ok next) :
    0 < amount.units ∧ amount.units ≤ (w.balance c).units ∧
      ∃ u, u.units = (w.balance c).units - amount.units ∧ next = w.withBalance c u := by
  unfold debit at h
  split at h
  · next positive =>
    have hp := (MinorUnits.isPositive_iff _).1 positive
    split at h
    · next u hu =>
      cases h
      have hs := (MinorUnits.sub?_eq_some_iff (Int.le_of_lt hp)).1 hu
      exact ⟨hp, hs.1, u, hs.2, rfl⟩
    · cases h
  · cases h

/-- A debit is refused for lack of funds exactly if it is one and the balance is below it. -/
theorem debit_eq_insufficientFunds_iff :
    w.debit c amount = .error .insufficientFunds ↔
      0 < amount.units ∧ (w.balance c).units < amount.units := by
  unfold debit
  rw [← MinorUnits.isPositive_iff, ← MinorUnits.sub?_eq_none_iff]
  split
  · next positive => split <;> simp_all
  · next positive => simp [positive]

/-- What is there can be taken. -/
theorem exists_debit_eq_ok (positive : 0 < amount.units)
    (covered : ¬ (w.balance c).units < amount.units) : ∃ next, w.debit c amount = .ok next := by
  unfold debit
  rw [if_pos ((MinorUnits.isPositive_iff _).2 positive)]
  cases taken : (w.balance c).sub? amount with
  | none => exact absurd (MinorUnits.sub?_eq_none_iff.1 taken) covered
  | some u => exact ⟨_, rfl⟩

/-- What is taken of one currency is not taken of another. -/
theorem balance_of_debit {d : Currency} (h : w.debit c amount = .ok next) (differ : c ≠ d) :
    next.balance d = w.balance d := by
  obtain ⟨-, -, u, -, rfl⟩ := debit_eq_ok h
  rw [balance_withBalance, if_neg differ]

/-- Only something can be taken. -/
theorem debit_eq_invalidAmount (nothing : ¬ 0 < amount.units) :
    w.debit c amount = .error .invalidAmount := by
  rw [debit, if_neg fun positive => nothing ((MinorUnits.isPositive_iff _).1 positive)]

/-- Only something can be given. -/
theorem credit_eq_invalidAmount (nothing : ¬ 0 < amount.units) :
    w.credit c amount = .error .invalidAmount := by
  rw [credit, if_neg fun positive => nothing ((MinorUnits.isPositive_iff _).1 positive)]

/-- What does not fit cannot be given. -/
theorem credit_eq_balanceOverflow (positive : 0 < amount.units)
    (full : MinorUnits.greatest < (w.balance c).units + amount.units) :
    w.credit c amount = .error (.storage (.balanceOverflow c)) := by
  rw [credit, if_pos ((MinorUnits.isPositive_iff _).2 positive),
    MinorUnits.add?_eq_none_iff.2 (.inr full)]

/-- What fits can be given. -/
theorem exists_credit_eq_ok (positive : 0 < amount.units)
    (fits : ¬ MinorUnits.greatest < (w.balance c).units + amount.units) :
    ∃ next, w.credit c amount = .ok next := by
  have lower := (w.balance c).lower
  cases sum : (w.balance c).add? amount with
  | none =>
    -- a sum can be too small only if something negative is added
    rcases MinorUnits.add?_eq_none_iff.1 sum with low | high
    · omega
    · exact absurd high fits
  | some u =>
    rw [credit, if_pos ((MinorUnits.isPositive_iff _).2 positive), sum]
    exact ⟨_, rfl⟩

theorem credit_ne_insufficientFunds : w.credit c amount ≠ .error .insufficientFunds := by
  unfold credit
  split
  · split <;> simp
  · simp

/-- A debit of something is refused for lack of funds only. -/
theorem debit_eq_error {e : WalletError} (positive : 0 < amount.units)
    (h : w.debit c amount = .error e) : e = .insufficientFunds := by
  unfold debit at h
  rw [if_pos ((MinorUnits.isPositive_iff _).2 positive)] at h
  split at h
  · cases h
  · cases h
    rfl

/-- A credit of something that fits is made. -/
theorem credit_ne_error {e : WalletError} (positive : 0 < amount.units)
    (fits : ((w.balance c).add? amount).isSome) : w.credit c amount ≠ .error e := by
  intro h
  unfold credit at h
  rw [if_pos ((MinorUnits.isPositive_iff _).2 positive)] at h
  split at h
  · cases h
  · next full =>
    rw [full] at fits
    cases fits

/-- A way to write a wallet anew that leaves its balances as they are. -/
structure Relabels (f : Wallet → Wallet) : Prop where
  balance : ∀ w c, (f w).balance c = w.balance c
  withBalance : ∀ w c u, (f w).withBalance c u = f (w.withBalance c u)

/-! What is credited and debited depends on the balances alone. -/

theorem Relabels.credit {f : Wallet → Wallet} (h : Relabels f) :
    (f w).credit c amount = (w.credit c amount).map f := by
  unfold Wallet.credit
  rw [h.balance]
  split
  · split
    · rw [h.withBalance]
      rfl
    · rfl
  · rfl

theorem Relabels.debit {f : Wallet → Wallet} (h : Relabels f) :
    (f w).debit c amount = (w.debit c amount).map f := by
  unfold Wallet.debit
  rw [h.balance]
  split
  · split
    · rw [h.withBalance]
      rfl
    · rfl
  · rfl

theorem relabels_stamped (t : Timestamp) : Relabels (·.stamped t) where
  balance _ _ := balance_stamped ..
  withBalance _ c _ := by cases c <;> rfl

end Wallet

namespace Mutation

/-- The units that a mutation adds to a currency. -/
def credited (c : Currency) : Mutation → Int
  | deposit currency amount => if currency = c then amount.units else 0
  | withdraw _ _ => 0
  | exchange _ _ bought credit => if bought = c then credit.units else 0

/-- The units that a mutation takes from a currency. -/
def debited (c : Currency) : Mutation → Int
  | deposit _ _ => 0
  | withdraw currency amount => if currency = c then amount.units else 0
  | exchange sold debit _ _ => if sold = c then debit.units else 0

/-- The currency that a mutation takes units from, and the units. -/
def debit? : Mutation → Option (Currency × MinorUnits)
  | deposit _ _ => none
  | withdraw currency amount => some (currency, amount)
  | exchange sold debit _ _ => some (sold, debit)

variable {m : Mutation} {w next : Wallet} {now : Timestamp}

theorem debited_eq {c : Currency} {amount : MinorUnits} (h : m.debit? = some (c, amount)) :
    m.debited c = amount.units := by
  cases m <;> cases h <;> exact if_pos rfl

/-- What holds of the row that a mutation writes. -/
structure Moves (m : Mutation) (w next : Wallet) : Prop where
  id_eq : next.id = w.id
  user_eq : next.user = w.user
  balance_eq : ∀ c, (next.balance c).units = (w.balance c).units + m.credited c - m.debited c
  /-- Nothing negative is credited. -/
  credited_nonneg : ∀ c, 0 ≤ m.credited c
  /-- What is taken from a currency was there, or nothing is taken. -/
  debited_le : ∀ c, m.debited c = 0 ∨ m.debited c ≤ (w.balance c).units

theorem change_moves (h : m.change w = .ok next) : m.Moves w next := by
  cases m with
  | deposit currency amount =>
    obtain ⟨positive, u, hu, rfl⟩ := Wallet.credit_eq_ok h
    refine ⟨by simp, by simp, fun c => ?_, fun c => ?_, fun c => .inl rfl⟩
    · by_cases hc : currency = c
      · subst hc
        simp [credited, debited, hu]
      · simp [credited, debited, hc]
    · by_cases hc : currency = c <;> simp [credited, hc, Int.le_of_lt positive]
  | withdraw currency amount =>
    obtain ⟨positive, le, u, hu, rfl⟩ := Wallet.debit_eq_ok h
    refine ⟨by simp, by simp, fun c => ?_, fun c => Int.le_refl _, fun c => ?_⟩
    · by_cases hc : currency = c
      · subst hc
        simp [credited, debited, hu]
      · simp [credited, debited, hc]
    · by_cases hc : currency = c
      · subst hc
        simp [debited, le]
      · simp [debited, hc]
  | exchange sold debit bought credit =>
    rw [change] at h
    split at h
    · cases h
    next differ =>
    split at h
    next between hd =>
      obtain ⟨-, le, u, hu, rfl⟩ := Wallet.debit_eq_ok hd
      obtain ⟨positive, v, hv, rfl⟩ := Wallet.credit_eq_ok h
      refine ⟨by simp, by simp, fun c => ?_, fun c => ?_, fun c => ?_⟩
      · -- the legs touch two different currencies, so neither sees the other
        have hv' : v.units = (w.balance bought).units + credit.units := by simpa [differ] using hv
        by_cases hb : bought = c
        · subst hb
          simp [credited, debited, hv', differ]
        · by_cases hs : sold = c
          · subst hs
            simp [credited, debited, hb, hu]
          · simp [credited, debited, hb, hs]
      · by_cases hb : bought = c <;> simp [credited, hb, Int.le_of_lt positive]
      · by_cases hs : sold = c
        · subst hs
          simp [debited, le]
        · simp [debited, hs]
    · cases h

/-- **The row that a mutation writes** has exactly the mutation's units moved, and the time of the
change. -/
theorem applyTo_spec (h : m.applyTo now w = .ok next) : m.Moves w next ∧ next.updatedAt = now := by
  unfold applyTo at h
  split at h
  · next changed hc =>
    cases h
    have moves := change_moves hc
    exact ⟨⟨moves.id_eq, moves.user_eq, fun c => by rw [Wallet.balance_stamped, moves.balance_eq],
      moves.credited_nonneg, moves.debited_le⟩, rfl⟩
  · cases h

/-- **No mutation overdraws:** balances that are not negative stay so. -/
theorem Moves.balance_nonneg (h : m.Moves w next) (before : ∀ c, 0 ≤ (w.balance c).units)
    (c : Currency) :
    0 ≤ (next.balance c).units := by
  have hb := before c
  have hc := h.credited_nonneg c
  rw [h.balance_eq]
  rcases h.debited_le c with hd | hd <;> omega

section Exchange

variable {sold bought : Currency} {debit credit : MinorUnits}

/-- An exchange whose debit is made comes out as its credit. -/
theorem change_exchange_of_debit {between : Wallet} (differ : sold ≠ bought)
    (debited : w.debit sold debit = .ok between) :
    (exchange sold debit bought credit).change w = between.credit bought credit := by
  rw [change, if_neg differ, debited]

/-- **How an exchange of one currency for another comes out:** it takes what there is and gives what
fits, or it is refused for the first of the two that fails. -/
theorem applyTo_exchange_of_short (differ : sold ≠ bought) (positive : 0 < debit.units)
    (short : (w.balance sold).units < debit.units) :
    (exchange sold debit bought credit).applyTo now w = .error .insufficientFunds := by
  have refused := Wallet.debit_eq_insufficientFunds_iff.2 ⟨positive, short⟩
  rw [applyTo, change, if_neg differ, refused]

theorem applyTo_exchange_of_full (differ : sold ≠ bought) (debits : 0 < debit.units)
    (credits : 0 < credit.units) (covered : ¬ (w.balance sold).units < debit.units)
    (full : MinorUnits.greatest < (w.balance bought).units + credit.units) :
    (exchange sold debit bought credit).applyTo now w =
      .error (.storage (.balanceOverflow bought)) := by
  obtain ⟨between, debited⟩ := Wallet.exists_debit_eq_ok debits covered
  rw [← Wallet.balance_of_debit debited differ] at full
  rw [applyTo, change_exchange_of_debit differ debited,
    Wallet.credit_eq_balanceOverflow credits full]

theorem exists_applyTo_exchange (differ : sold ≠ bought) (debits : 0 < debit.units)
    (credits : 0 < credit.units) (covered : ¬ (w.balance sold).units < debit.units)
    (fits : ¬ MinorUnits.greatest < (w.balance bought).units + credit.units) :
    ∃ next, (exchange sold debit bought credit).applyTo now w = .ok next := by
  obtain ⟨between, debited⟩ := Wallet.exists_debit_eq_ok debits covered
  rw [← Wallet.balance_of_debit debited differ] at fits
  obtain ⟨next, credited⟩ := Wallet.exists_credit_eq_ok credits fits
  rw [applyTo, change_exchange_of_debit differ debited, credited]
  exact ⟨_, rfl⟩

end Exchange

/-- **What a mutation changes depends on the balances alone.** -/
theorem change_relabel {f : Wallet → Wallet} (h : Wallet.Relabels f) :
    m.change (f w) = (m.change w).map f := by
  cases m with
  | deposit currency amount => exact h.credit
  | withdraw currency amount => exact h.debit
  | exchange sold debit bought credit =>
    rw [Mutation.change, Mutation.change, h.debit]
    split
    · rfl
    · cases w.debit sold debit with
      | error e => rfl
      | ok debited => exact h.credit

/-- A mutation writes what it changes, stamped. -/
theorem applyTo_eq : m.applyTo now w = (m.change w).map (·.stamped now) := by
  unfold applyTo
  cases m.change w <;> rfl

/-- The row that a mutation writes does not depend on when the row was written before, and on the
time of the change only as its stamp. -/
theorem applyTo_stamped (m : Mutation) (now later t : Timestamp) (w : Wallet) :
    m.applyTo later (w.stamped t) = (m.applyTo now w).map fun v => v.stamped later := by
  rw [applyTo_eq, applyTo_eq, change_relabel (Wallet.relabels_stamped t)]
  cases m.change w <;> rfl

/-- A mutation that is refused for lack of funds takes more than there is. -/
theorem applyTo_eq_insufficientFunds (h : m.applyTo now w = .error .insufficientFunds) :
    ∃ c amount, m.debit? = some (c, amount) ∧ (w.balance c).units < amount.units := by
  have hc : m.change w = .error .insufficientFunds := by
    unfold applyTo at h
    split at h
    · cases h
    · next hc =>
      cases h
      exact hc
  cases m with
  | deposit currency amount => exact absurd hc Wallet.credit_ne_insufficientFunds
  | withdraw currency amount =>
    exact ⟨currency, amount, rfl, (Wallet.debit_eq_insufficientFunds_iff.1 hc).2⟩
  | exchange sold debit bought credit =>
    rw [change] at hc
    split at hc
    · cases hc
    · split at hc
      · exact absurd hc Wallet.credit_ne_insufficientFunds
      · next hd =>
        cases hc
        exact ⟨sold, debit, rfl, (Wallet.debit_eq_insufficientFunds_iff.1 hd).2⟩

end Mutation

/-! ### The same account -/

/-- The same wallet with the same balances. Only the timestamps may differ. -/
structure Wallet.SameAccount (v w : Wallet) : Prop where
  id_eq : v.id = w.id
  user_eq : v.user = w.user
  balance_eq : ∀ c, v.balance c = w.balance c

namespace Wallet.SameAccount

variable {v w v' w' : Wallet}

theorem refl (w : Wallet) : w.SameAccount w := ⟨rfl, rfl, fun _ => rfl⟩

theorem trans (h : v.SameAccount w) (k : w.SameAccount v') : v.SameAccount v' :=
  ⟨h.id_eq.trans k.id_eq, h.user_eq.trans k.user_eq,
    fun c => (h.balance_eq c).trans (k.balance_eq c)⟩

theorem stamped (w : Wallet) (t : Timestamp) : w.SameAccount (w.stamped t) :=
  ⟨rfl, rfl, fun c => by simp⟩

theorem eq_stamped (h : v.SameAccount w) : w = v.stamped w.updatedAt := by
  obtain ⟨id, user, usd, rub, eur, updatedAt⟩ := v
  obtain ⟨id', user', usd', rub', eur', updatedAt'⟩ := w
  obtain rfl : id = id' := h.id_eq
  obtain rfl : user = user' := h.user_eq
  obtain rfl : usd = usd' := h.balance_eq .usd
  obtain rfl : rub = rub' := h.balance_eq .rub
  obtain rfl : eur = eur' := h.balance_eq .eur
  rfl

variable {m : Mutation} {now later : Timestamp}

/-- The same account is refused the same mutations for the same reasons. -/
theorem applyTo_error (h : v.SameAccount w) {e : WalletError} (fails : m.applyTo now v = .error e) :
    m.applyTo later w = .error e := by
  rw [h.eq_stamped, m.applyTo_stamped now, fails]
  rfl

/-- The same mutation turns the same account into the same account. -/
theorem applyTo_ok (h : v.SameAccount w) (later : Timestamp) (applied : m.applyTo now v = .ok v') :
    ∃ w', m.applyTo later w = .ok w' ∧ v'.SameAccount w' := by
  refine ⟨v'.stamped later, ?_, .stamped v' later⟩
  rw [h.eq_stamped, m.applyTo_stamped now, applied]
  rfl

end Wallet.SameAccount

end Purse
