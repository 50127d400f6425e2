import Purse.Proofs.Database.Transactions
import Purse.Proofs.MinorUnits.Range
import Purse.Proofs.Service.Linearization
import Purse.Proofs.Wallet.Refusals

/-!
# The checks behind the crossing

Amounts are checked where they cross into minor units, and a wallet checks again what it credits or
debits. The second check has nothing to find: the units of a request are those of an accepted
amount, what an exchange credits has crossed in the same way, and no step on the way to a store
touches either. So whatever a call has sent to the store, in any run, is refused by no row for its
amounts (`Reaches.amountsAccepted`).
-/

namespace Purse

open Binary64

/-! ### What a store makes of positive amounts -/

namespace Mutation

variable {m : Mutation} {w : Wallet} {now : Timestamp} {e : WalletError}

/-- A mutation that makes sense is refused for what the balances are like, or not at all. -/
theorem Proper.applyTo_eq_error (h : m.Proper) (refused : m.applyTo now w = .error e) :
    e = .insufficientFunds ∨ ∃ c, e = .storage (.balanceOverflow c) := by
  rw [applyTo_eq_error_iff, Refusal.first?] at refused
  obtain ⟨refusal, -, why⟩ := List.exists_of_findSome?_eq_some refused
  cases refusal with
  | same =>
    obtain ⟨⟨c, taken⟩, takes, why⟩ := Option.bind_eq_some_iff.1 why
    obtain ⟨⟨d, given⟩, gives, why⟩ := Option.bind_eq_some_iff.1 why
    split at why
    · next same =>
      obtain rfl : c = d := same
      exact absurd gives (h.apart takes)
    · cases why
  | debit =>
    obtain ⟨taken, takes, why⟩ := Option.bind_eq_some_iff.1 why
    rw [if_pos (h.taken_pos takes)] at why
    cases why
  | funds =>
    obtain ⟨taken, takes, why⟩ := Option.bind_eq_some_iff.1 why
    split at why
    · exact .inl (Option.some.inj why).symm
    · cases why
  | credit =>
    obtain ⟨given, gives, why⟩ := Option.bind_eq_some_iff.1 why
    rw [if_pos (h.given_pos gives)] at why
    cases why
  | room =>
    obtain ⟨given, gives, why⟩ := Option.bind_eq_some_iff.1 why
    split at why
    · exact .inr ⟨_, (Option.some.inj why).symm⟩
    · cases why

theorem Proper.applyTo_ne_invalidAmount (h : m.Proper) :
    m.applyTo now w ≠ .error .invalidAmount := by
  intro refused
  obtain short | ⟨c, full⟩ := h.applyTo_eq_error refused
  · cases short
  · cases full

/-- **No check of an amount refuses the mutation,** neither in memory nor in a database, whatever
they hold. -/
structure PassesChecks (m : Mutation) : Prop where
  taken_pos : ∀ {c amount}, m.debit? = some (c, amount) → amount.isPositive
  given_pos : ∀ {c amount}, m.credit? = some (c, amount) → amount.isPositive
  wallet : ∀ now w, m.applyTo now w ≠ .error .invalidAmount
  memory : ∀ (store : MemoryStore) now id, store.mutate now id m ≠ .error .invalidAmount
  database : ∀ (db : Database) now id, db.transaction = none →
    (db.mutate now id m).result ≠ .error .invalidAmount

theorem Proper.passesChecks (h : m.Proper) : m.PassesChecks where
  taken_pos takes := (MinorUnits.isPositive_iff _).2 (h.taken_pos takes)
  given_pos gives := (MinorUnits.isPositive_iff _).2 (h.given_pos gives)
  wallet _ _ := h.applyTo_ne_invalidAmount
  memory store now id := by
    intro refused
    unfold MemoryStore.mutate at refused
    split at refused
    · cases refused
    · split at refused
      · cases refused
      · next rejects =>
        cases refused
        exact h.applyTo_ne_invalidAmount rejects
  database db now id closed := by
    intro refused
    cases ended : db.mutate now id m with
    | mk after result notices =>
      have ends := db.mutate_ends now id m closed
      rw [ended] at ends refused
      cases ends with
      | failed =>
        -- a statement that fails is a failure of the storage, or a row that is missing
        unfold WalletError.ofDatabase at refused
        split at refused <;> cases refused
      | missing => cases refused
      | rejected _ rejects =>
        cases refused
        exact h.applyTo_ne_invalidAmount rejects
      | committed => cases refused

end Mutation

/-- What carries out a parsed request makes sense: its amounts have crossed, and its currencies
differ. -/
theorem Request.Asks.proper {r : Request} {change : Change} (h : r.Asks change) :
    change.mutation.Proper := by
  obtain ⟨order, asked, carries⟩ := h
  have parsed := Request.parsed asked
  cases change with
  | deposit currency units =>
    cases carries
    cases parsed with
    | deposit comes =>
      have pos := MinorUnits.ofAmount?_pos comes
      exact ⟨nofun, by rintro c amount ⟨⟩; exact pos, nofun⟩
  | withdraw currency units =>
    cases carries
    cases parsed with
    | withdraw comes =>
      have pos := MinorUnits.ofAmount?_pos comes
      exact ⟨by rintro c amount ⟨⟩; exact pos, nofun, nofun⟩
  | exchange pair debit credit rate =>
    obtain ⟨rfl, converts⟩ := carries
    cases parsed with
    | exchange comes sells buys differ =>
      have takes := MinorUnits.ofAmount?_pos comes
      have gives : 0 < credit.units := MinorUnits.ofAmount?_pos converts
      refine ⟨by rintro c amount ⟨⟩; exact takes, by rintro c amount ⟨⟩; exact gives, ?_⟩
      rintro c taken given ⟨⟩ same
      exact differ (Prod.mk.inj (Option.some.inj same)).1.symm

/-! ### The crossing as a whole -/

namespace MinorUnits

/-- **How amounts cross into minor units,** for one amount and beside others. -/
structure ExactCrossing (amount : Float) : Prop where
  /-- The product by a hundred is the nearest double to the exact one, unless that is too large. -/
  product : amount > 0.0 → amount.isFinite → (amount * 100.0).isFinite →
    toRat (amount * 100.0) = nearest (toRat amount * 100)
  /-- The limits of what is accepted may be compared as doubles. The greatest count, as a double, is
  `2 ^ 63`. -/
  limits : amount > 0.0 → amount.isFinite → (amount * 100.0).isFinite →
    (1.0 ≤ amount * 100.0 ↔ 1 ≤ scaled amount) ∧
      (amount * 100.0 < 9223372036854775807.0 ↔ scaled amount < 2 ^ 63)
  /-- An accepted amount comes to its product, cut off, and to nothing else. -/
  ok_iff : ∀ u, parse amount = .ok u ↔ Accepted amount ∧ u.units = scaled amount
  /-- Every other amount is refused as such. -/
  refused_iff : parse amount = .error .invalidAmount ↔ ¬ Accepted amount
  bounds : ∀ {u}, parse amount = .ok u → 1 ≤ u.units ∧ u.units ≤ greatest
  /-- A larger amount does not come to less. -/
  mono : ∀ {b u v}, parse amount = .ok u → parse b = .ok v → amount ≤ b → u.units ≤ v.units
  /-- What lies between two accepted amounts is accepted. -/
  between : ∀ {x b u v}, parse amount = .ok u → parse b = .ok v → amount ≤ x → x ≤ b →
    ∃ w, parse x = .ok w

variable {amount : Float} {u : MinorUnits}

theorem parse_eq_ok_iff_accepted :
    parse amount = .ok u ↔ Accepted amount ∧ u.units = scaled amount :=
  parse_eq_ok_iff.trans ofAmount?_eq_some_iff_accepted

/-- What is not accepted is refused. -/
theorem parse_eq_invalidAmount_iff : parse amount = .error .invalidAmount ↔ ¬ Accepted amount := by
  constructor
  · intro refused accepted
    obtain ⟨u, comes⟩ := accepted.exists_ofAmount?
    rw [parse, comes] at refused
    cases refused
  · intro unacceptable
    unfold parse
    split
    · next u comes => exact absurd (ofAmount?_eq_some_iff_accepted.1 comes).1 unacceptable
    · rfl

theorem exactCrossing (amount : Float) : ExactCrossing amount where
  product above finite real := by
    have pos := Binary64.isPositive_iff.2 ⟨above, finite⟩
    rw [toRat_mul_of_isFinite pos isPositive_hundred real, toRat_hundred]
  limits above finite real := limits_iff (Binary64.isPositive_iff.2 ⟨above, finite⟩) real
  ok_iff _ := parse_eq_ok_iff_accepted
  refused_iff := parse_eq_invalidAmount_iff
  bounds {u} ok := by
    obtain ⟨accepted, exact_⟩ := parse_eq_ok_iff_accepted.1 ok
    exact ⟨exact_ ▸ accepted.one_le, u.upper⟩
  mono ok ok' le := by
    obtain ⟨accepted, exact_⟩ := parse_eq_ok_iff_accepted.1 ok
    obtain ⟨accepted', exact'⟩ := parse_eq_ok_iff_accepted.1 ok'
    rw [exact_, exact']
    exact scaled_mono accepted.isPositive accepted'.isPositive le
  between ok ok' low high := by
    have accepted := (parse_eq_ok_iff_accepted.1 ok).1
    have accepted' := (parse_eq_ok_iff_accepted.1 ok').1
    obtain ⟨w, comes⟩ := (accepted.of_between accepted' low high).exists_ofAmount?
    exact ⟨w, parse_eq_ok_iff.2 comes⟩

end MinorUnits

/-! ### What a service sends to its store -/

namespace Service

variable {s t : State} {id : CallId}

/-- The call is at the store with a change of a wallet. -/
def Stage.Sends (wallet : Uuid) (change : Change) (stage : Stage) : Prop :=
  (∃ due, stage = .storing wallet change due) ∨ stage = .writing wallet change

theorem Reaches.asks_of_sends {call : Call} {wallet : Uuid} {change : Change} (h : Reaches s t)
    (start : s.Unused) (live : t.calls.get? id = some call) (sends : call.stage.Sends wallet change) :
    call.request.Asks change := by
  have is := h.isOf start live
  obtain ⟨due, at_⟩ | at_ := sends
  · rw [at_] at is
    exact is
  · rw [at_] at is
    exact is

/-- **Amounts are checked once.** They cross exactly, and in whatever run of the service, what a call
has sent to the store is refused for its amounts by none. -/
theorem Reaches.amountsAccepted (h : Reaches s t) (start : s.Unused) :
    (∀ amount, MinorUnits.ExactCrossing amount) ∧
      ∀ id call wallet change, t.calls.get? id = some call → call.stage.Sends wallet change →
        change.mutation.PassesChecks := by
  refine ⟨MinorUnits.exactCrossing, ?_⟩
  intro id call wallet change live sends
  exact (h.asks_of_sends start live sends).proper.passesChecks

/-! ### A deposit on its way -/

/-- Whether the call is at the store with a deposit of so many units. -/
def State.isDepositing (s : State) (id : CallId) (units : Int) : Bool :=
  (s.calls.get? id).any fun call => match call.stage with
    | .storing _ (.deposit _ u) _ => u.units = units
    | _ => false

theorem State.sends_of_isDepositing {units : Int} (h : s.isDepositing id units) :
    ∃ call wallet c u, s.calls.get? id = some call ∧ call.stage.Sends wallet (.deposit c u) ∧
      u.units = units := by
  unfold State.isDepositing at h
  cases live : s.calls.get? id with
  | none =>
    rw [live] at h
    cases h
  | some call =>
    rw [live, Option.any_some] at h
    split at h
    · next wallet c u due at_ =>
      exact ⟨call, wallet, c, u, rfl, .inl ⟨due, at_⟩, of_decide_eq_true h⟩
    · cases h

/-- A deposit of 0.29 USD, of which the product by a hundred is just below 29, comes to the store. -/
def soleDeposit : List Turn :=
  let user := Uuid.ofNat 1
  let turns (id : CallId) (n : Nat) : List Turn := List.replicate n (.call id)
  .outside (.arrive 0 (.create user) (.ofNat 2)) :: turns 0 2 ++
  .outside (.arrive 1 (.deposit user "USD" 0.29) (.ofNat 3)) :: turns 1 4

set_option maxRecDepth 10000 in
theorem isSome_soleDeposit : (vacant.follow? soleDeposit).isSome := by decide +kernel

/-- The deposit at the store. -/
def deposited : State := (vacant.follow? soleDeposit).get isSome_soleDeposit

/-- 28 units are at the store and pass its checks. The double next to the greatest count is not
accepted: it stands for a unit more. -/
theorem amountsAccepted_deposited :
    (∃ call wallet c u, deposited.calls.get? 1 = some call ∧
      call.stage.Sends wallet (.deposit c u) ∧ u.units = 28 ∧
      (Change.deposit c u).mutation.PassesChecks) ∧
    MinorUnits.scaled 0.29 = 28 ∧ ¬ MinorUnits.Accepted 92233720368547758.07 := by
  have reaches : Reaches vacant deposited := reaches_of_follow? (Option.some_get _).symm
  obtain ⟨exact_, passes⟩ := reaches.amountsAccepted unused_vacant
  have there : deposited.isDepositing 1 28 := by decide +kernel
  obtain ⟨call, wallet, c, u, live, sends, units⟩ := State.sends_of_isDepositing there
  refine ⟨⟨call, wallet, c, u, live, sends, units, passes 1 call wallet _ live sends⟩, ?_, ?_⟩
  · have comes : MinorUnits.parse 0.29 = .ok ⟨28, by decide, by decide⟩ := by decide +kernel
    exact (((exact_ 0.29).ok_iff _).1 comes).2.symm
  · exact (exact_ 92233720368547758.07).refused_iff.1 (by decide +kernel)

end Service

end Purse
