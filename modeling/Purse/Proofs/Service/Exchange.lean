import Purse.Proofs.MinorUnits
import Purse.Proofs.Service.Linearization

/-!
# What an exchange is worth

The debit and the credit of an exchange are cut off separately: the debit is what the amount comes
to, the credit is what the amount times the rate comes to. The part of a minor unit that is not
debited is exchanged all the same, and at a high rate it is worth many units of the other currency.
`FairlyExchanged` is the bound that does hold: the credit is worth less than a unit more than the
debit together with what was cut off.

The bound is about the numbers that were committed, so it holds of every exchange that was answered,
in whatever state of the rows, the cache and the source it was carried out.
-/

namespace Purse

open Binary64

/-- **What an exchange of an amount may be worth.** -/
structure FairlyExchanged (amount rate : Float) (debit credit : MinorUnits) : Prop where
  /-- The rate is above nothing. -/
  rate_pos : 0 < toRat rate
  /-- What is debited and what is cut off are the amount in minor units, as one rounded product. -/
  uncut : debit.units + MinorUnits.cutOff amount = toRat (amount * 100.0)
  /-- Less than a minor unit is cut off. -/
  cutOff_bounds : 0 ≤ MinorUnits.cutOff amount ∧ MinorUnits.cutOff amount < 1
  /-- What is credited is worth no more than the two together, but for three roundings. -/
  credit_le : (credit.units : ℚ) ≤
    (debit.units + MinorUnits.cutOff amount) * toRat rate * (1 + 2 ^ (-53 : ℤ)) ^ 3
  /-- As long as three roundings are less than a unit, it is worth less than a unit more. -/
  credit_lt : (debit.units + MinorUnits.cutOff amount) * toRat rate ≤ 3 * 10 ^ 15 →
    (credit.units : ℚ) < (debit.units + MinorUnits.cutOff amount) * toRat rate + 1
  /-- If nothing is cut off, it is worth less than a unit more than what is debited. -/
  credit_lt_of_whole :
    toRat (amount * 100.0) = debit.units → debit.units * toRat rate ≤ 3 * 10 ^ 15 →
    (credit.units : ℚ) < debit.units * toRat rate + 1

theorem FairlyExchanged.of_legs {amount rate : Float} {debit credit : MinorUnits}
    (debited : MinorUnits.ofAmount? amount = some debit)
    (credited : MinorUnits.ofConverted? amount rate = some credit) :
    FairlyExchanged amount rate debit credit where
  rate_pos := (MinorUnits.converted_le (MinorUnits.ofAmount?_eq_some_iff.mp debited).1 credited).1
  uncut := MinorUnits.units_add_cutOff debited
  cutOff_bounds := ⟨MinorUnits.cutOff_nonneg amount, MinorUnits.cutOff_lt_one amount⟩
  credit_le := MinorUnits.credit_le debited credited
  credit_lt := MinorUnits.credit_lt debited credited
  credit_lt_of_whole := by
    intro whole limit
    have lt := MinorUnits.credit_lt debited credited
    rw [MinorUnits.units_add_cutOff debited, whole] at lt
    exact lt limit

namespace Service

variable {s t : State} {id : CallId} {user : Uuid} {sold bought : String} {amount rate : Float}
  {row : Wallet} {debit credit : MinorUnits}

/-- **An exchange that was answered** was committed with the numbers of the answer, and these keep
the bound, whatever the service held when it was asked. -/
theorem Reaches.fairlyExchanged (h : Reaches s t) (start : s.Unused)
    (asked : .arrived id (.exchange user sold bought amount) ∈ t.history)
    (hm : .ended id (.ok (.exchanged row rate debit credit)) ∈ t.history) :
    (∃ pair, t.commits id = [.committed id (.exchange pair debit credit rate) row]) ∧
      FairlyExchanged amount rate debit credit := by
  obtain ⟨us, run⟩ := h.exists_run
  obtain ⟨change, row', once, asks, -, eq, -⟩ := run.committed_once start asked rfl hm
  cases change with
  | deposit | withdraw => cases eq
  | exchange pair debit credit rate =>
    cases eq
    obtain ⟨order, parsed, rfl, converts⟩ := asks
    obtain ⟨user, sold, bought, amount, asks, units, -⟩ := Request.order?_eq_exchange parsed
    cases asks
    exact ⟨⟨pair, once⟩, .of_legs units converts⟩

/-! ### An exchange that gains -/

/-- Whether the call has ended as an exchange at the rate, with these units debited and credited. -/
def State.hasExchanged (s : State) (id : CallId) (rate : Binary64) (debit credit : Int) : Bool :=
  s.history.any fun o => match o with
    | .ended j (.ok (.exchanged _ r d c)) =>
      j = id && ofFloat r = rate && d.units = debit && c.units = credit
    | _ => false

theorem State.mem_of_hasExchanged {rate : Binary64} {debit credit : Int}
    (h : s.hasExchanged id rate debit credit) :
    ∃ row r d c, .ended id (.ok (.exchanged row r d c)) ∈ s.history ∧ ofFloat r = rate ∧
      d.units = debit ∧
      c.units = credit := by
  obtain ⟨o, ho, matches_⟩ := List.any_eq_true.1 h
  split at matches_
  · obtain ⟨⟨⟨rfl, hr⟩, hd⟩, hc⟩ :
      ((_ = id ∧ _ = rate) ∧ _ = debit) ∧ _ = credit := by simpa using matches_
    exact ⟨_, _, _, _, ho, hr, hd, hc⟩
  · cases matches_

/-- A deposit of 1 USD, and an exchange of 0.019 USD at a rate of 1000. -/
def gaining : List Turn :=
  let user := Uuid.ofNat 1
  let turns (id : CallId) (n : Nat) : List Turn := List.replicate n (.call id)
  .outside (.arrive 0 (.create user) (.ofNat 2)) :: turns 0 2 ++
  .outside (.arrive 1 (.deposit user "USD" 1.0) (.ofNat 3)) :: turns 1 8 ++
  .outside (.refreshCache [⟨⟨.usd, .rub⟩, 1000.0⟩]) ::
  .outside (.arrive 2 (.exchange user "USD" "RUB" 0.019) (.ofNat 4)) :: turns 2 9

set_option maxRecDepth 10000 in
theorem isSome_gaining : (vacant.follow? gaining).isSome := by decide +kernel

/-- What the exchange has left. -/
def gained : State := (vacant.follow? gaining).get isSome_gaining

theorem follow?_gaining : vacant.follow? gaining = some gained := (Option.some_get _).symm

theorem arrived_gained : .arrived 2 (.exchange (.ofNat 1) "USD" "RUB" 0.019) ∈ gained.history := by
  have sent :
      .outside (.arrive 2 (.exchange (.ofNat 1) "USD" "RUB" 0.019) (.ofNat 4)) ∈ gaining := by
    simp [gaining]
  exact arrived_of_follow? follow?_gaining sent

/-- A thousand, as a double. -/
def thousand : Binary64 := .finite false 8796093022208000 (-43)

theorem hasExchanged_gained : gained.hasExchanged 2 thousand 1 1900 := by decide +kernel

/-- The bound holds of the exchange that gains: nine tenths of a unit were cut off. -/
theorem fairlyExchanged_gained : ∃ row rate debit credit,
    .ended 2 (.ok (.exchanged row rate debit credit)) ∈ gained.history ∧
      (∃ pair, gained.commits 2 = [.committed 2 (.exchange pair debit credit rate) row]) ∧
      FairlyExchanged 0.019 rate debit credit := by
  obtain ⟨row, rate, debit, credit, hm, -⟩ := State.mem_of_hasExchanged hasExchanged_gained
  exact ⟨row, rate, debit, credit, hm,
    (reaches_of_follow? follow?_gaining).fairlyExchanged unused_vacant arrived_gained hm⟩

/-- **An exchange can gain** more than a unit over what it debits. -/
theorem not_forall_credit_lt : ¬ ∀ (s t : State) (id : CallId) (user : Uuid) (sold bought : String)
    (amount rate : Float) (row : Wallet) (debit credit : MinorUnits),
    amount > 0.0 → amount.isFinite → Reaches s t → s.Unused →
    .arrived id (.exchange user sold bought amount) ∈ t.history →
    .ended id (.ok (.exchanged row rate debit credit)) ∈ t.history →
    (credit.units : ℚ) < debit.units * toRat rate + 1 := by
  intro bound
  obtain ⟨row, rate, debit, credit, hm, hr, hd, hc⟩ := State.mem_of_hasExchanged hasExchanged_gained
  have lt := bound _ _ _ _ _ _ _ _ _ _ _ (by decide) (by decide)
      (reaches_of_follow? follow?_gaining) unused_vacant
    arrived_gained hm
  rw [hd, hc, toRat, hr, thousand, value, signed] at lt
  norm_num at lt

end Service

end Purse
