import Purse.Proofs.MinorUnits
import Purse.Proofs.Service.Runs

/-!
# What a call carries is what was asked for

A call takes its arguments apart once, when it begins, and hands the pieces from stage to stage: an
order, a quest for a rate, a change of a row. `Stage.IsOf` says that the pieces a stage holds are
those of the request, and `Reaches.isOf` that this is so at every stage of every call. In particular
a change that reaches a row is the one that the request asks for (`Request.Asks`): with its
currencies, with the units of its amount, and with the units that the amount times the rate comes
to.
-/

namespace Purse

/-- Whether a change carries out an order that names an amount; an exchange credits what the amount
comes to. -/
def Change.CarriesOut (amount : Float) (order : Order) : Change → Prop
  | deposit currency units => order = .deposit currency units
  | withdraw currency units => order = .withdraw currency units
  | exchange pair debit credit rate =>
    order = .exchange pair debit ∧ MinorUnits.ofConverted? amount rate = some credit

/-- **The change is one that the request asks for.** -/
def Request.Asks (r : Request) (change : Change) : Prop :=
  ∃ order, r.order? = some (.ok order) ∧ change.CarriesOut r.amount order

/-! ### What the checks of the arguments find -/

section Checks

variable {α β : Type} {x : Except WalletError α} {f : α → Except WalletError β} {e : WalletError}
  {units : MinorUnits}

/-- Checks in a row fail at the first that fails. -/
theorem WalletError.of_bind_eq_error (h : x >>= f = .error e) :
    x = .error e ∨ ∃ a, x = .ok a ∧ f a = .error e := by
  cases x with
  | ok a => exact .inr ⟨a, rfl, h⟩
  | error e' =>
    cases h
    exact .inl rfl

/-- Checks in a row pass if all do. -/
theorem WalletError.of_bind_eq_ok {b : β} (h : x >>= f = .ok b) : ∃ a, x = .ok a ∧ f a = .ok b := by
  cases x with
  | ok a => exact ⟨a, rfl, h⟩
  | error e' => cases h

theorem MinorUnits.parse_eq_ok_iff {amount : Float} :
    parse amount = .ok units ↔ ofAmount? amount = some units := by
  unfold parse
  split
  · next h => simp [h]
  · next h => simp [h]

theorem Currency.parse_eq_ok_iff {symbol : String} {c : Currency} :
    parse symbol = .ok c ↔ ofSymbol? symbol = some c := by
  unfold parse
  split
  · next h => simp [h]
  · next h => simp [h]

theorem MinorUnits.parse_eq_error {amount : Float} (h : parse amount = .error e) :
    e = .invalidAmount := by
  unfold parse at h
  split at h
  · cases h
  · cases h
    rfl

theorem Currency.parse_eq_error {symbol : String} (h : parse symbol = .error e) :
    e = .unsupportedCurrency symbol := by
  unfold parse at h
  split at h
  · cases h
  · cases h
    rfl

/-- An amount that does not pass comes to nothing. -/
theorem MinorUnits.ofAmount?_eq_none {amount : Float} (h : parse amount = .error e) :
    ofAmount? amount = none := by
  unfold parse at h
  split at h
  · cases h
  · next nothing => exact nothing

/-- A symbol that does not pass names no currency. -/
theorem Currency.ofSymbol?_eq_none {symbol : String} (h : parse symbol = .error e) :
    ofSymbol? symbol = none := by
  unfold parse at h
  split at h
  · cases h
  · next nothing => exact nothing

/-- **What can be wrong with the arguments of a request.** -/
theorem Request.order?_eq_error {r : Request} (h : r.order? = some (.error e)) :
    e = .invalidAmount ∨ (∃ symbol, e = .unsupportedCurrency symbol) ∨ e = .sameCurrency := by
  cases r with
  | deposit user currency amount | withdraw user currency amount =>
    rcases WalletError.of_bind_eq_error (Option.some.inj h) with h | ⟨units, -, h⟩
    · exact .inl (MinorUnits.parse_eq_error h)
    rcases WalletError.of_bind_eq_error h with h | ⟨c, -, h⟩
    · exact .inr (.inl ⟨_, Currency.parse_eq_error h⟩)
    · cases h
  -- the checks are made in this order, and the first that fails decides
  | exchange user sold bought amount =>
    rcases WalletError.of_bind_eq_error (Option.some.inj h) with h | ⟨units, -, h⟩
    · exact .inl (MinorUnits.parse_eq_error h)
    rcases WalletError.of_bind_eq_error h with h | ⟨c, -, h⟩
    · exact .inr (.inl ⟨_, Currency.parse_eq_error h⟩)
    rcases WalletError.of_bind_eq_error h with h | ⟨d, -, h⟩
    · exact .inr (.inl ⟨_, Currency.parse_eq_error h⟩)
    by_cases same : c = d
    · rw [if_pos same] at h
      cases h
      exact .inr (.inr rfl)
    · rw [if_neg same] at h
      cases h
  | create | view | quote | listing => cases h

/-- **What is right with a request** that asks for an order: its amount comes to the units, and its
symbols name the currencies, which differ if it is an exchange. -/
inductive Request.Parsed : Request → Order → Prop
  | deposit {user : Uuid} {symbol : String} {amount : Float} {c : Currency} {units : MinorUnits}
      (comes : MinorUnits.ofAmount? amount = some units) (names : Currency.ofSymbol? symbol = some c) :
      Parsed (.deposit user symbol amount) (.deposit c units)
  | withdraw {user : Uuid} {symbol : String} {amount : Float} {c : Currency} {units : MinorUnits}
      (comes : MinorUnits.ofAmount? amount = some units) (names : Currency.ofSymbol? symbol = some c) :
      Parsed (.withdraw user symbol amount) (.withdraw c units)
  | exchange {user : Uuid} {sold bought : String} {amount : Float} {pair : CurrencyPair}
      {units : MinorUnits} (comes : MinorUnits.ofAmount? amount = some units)
      (sells : Currency.ofSymbol? sold = some pair.sold)
      (buys : Currency.ofSymbol? bought = some pair.bought) (differ : pair.sold ≠ pair.bought) :
      Parsed (.exchange user sold bought amount) (.exchange pair units)

theorem Request.parsed {r : Request} {order : Order} (h : r.order? = some (.ok order)) :
    r.Parsed order := by
  cases r with
  | deposit =>
    obtain ⟨units, hu, h⟩ := WalletError.of_bind_eq_ok (Option.some.inj h)
    obtain ⟨c, hc, h⟩ := WalletError.of_bind_eq_ok h
    cases h
    exact .deposit (MinorUnits.parse_eq_ok_iff.1 hu) (Currency.parse_eq_ok_iff.1 hc)
  | withdraw =>
    obtain ⟨units, hu, h⟩ := WalletError.of_bind_eq_ok (Option.some.inj h)
    obtain ⟨c, hc, h⟩ := WalletError.of_bind_eq_ok h
    cases h
    exact .withdraw (MinorUnits.parse_eq_ok_iff.1 hu) (Currency.parse_eq_ok_iff.1 hc)
  | exchange user sold bought amount =>
    obtain ⟨units, hu, h⟩ := WalletError.of_bind_eq_ok (Option.some.inj h)
    obtain ⟨c, hc, h⟩ := WalletError.of_bind_eq_ok h
    obtain ⟨d, hd, h⟩ := WalletError.of_bind_eq_ok h
    by_cases same : c = d
    · rw [if_pos same] at h
      cases h
    · rw [if_neg same] at h
      cases h
      have sells : Currency.ofSymbol? sold = some c := Currency.parse_eq_ok_iff.1 hc
      have buys : Currency.ofSymbol? bought = some d := Currency.parse_eq_ok_iff.1 hd
      exact Parsed.exchange (MinorUnits.parse_eq_ok_iff.1 hu) sells buys same
  | create | view | quote | listing => cases h

theorem Request.order?_eq_exchange {r : Request} {pair : CurrencyPair} {debit : MinorUnits}
    (h : r.order? = some (.ok (.exchange pair debit))) :
    ∃ user sold bought amount, r = .exchange user sold bought amount ∧
      MinorUnits.ofAmount? amount = some debit ∧
      Currency.ofSymbol? sold = some pair.sold ∧ Currency.ofSymbol? bought = some pair.bought ∧
      pair.sold ≠ pair.bought := by
  cases Request.parsed h with
  | exchange comes sells buys differ => exact ⟨_, _, _, _, rfl, comes, sells, buys, differ⟩

end Checks

/-! ### What a request asks for -/

/-- The currency and the units that an order takes. -/
def Order.debit? : Order → Option (Currency × MinorUnits)
  | deposit .. => none
  | withdraw currency units => some (currency, units)
  | exchange pair debit => some (pair.sold, debit)

/-- The currency and the units that a request asks to take. -/
def Request.debit? (r : Request) : Option (Currency × MinorUnits) :=
  match r.order? with
  | some (.ok order) => order.debit?
  | _ => none

/-- A change takes what its order takes. -/
theorem Change.CarriesOut.debit?_eq {amount : Float} {order : Order} {change : Change}
    (h : change.CarriesOut amount order) : change.mutation.debit? = order.debit? := by
  cases change with
  | deposit currency units =>
    cases h
    rfl
  | withdraw currency units =>
    cases h
    rfl
  | exchange pair debit credit rate =>
    cases h.1
    rfl

/-- A change takes what the request asks to take. -/
theorem Request.Asks.debit?_eq {r : Request} {change : Change} (h : r.Asks change) :
    change.mutation.debit? = r.debit? := by
  obtain ⟨order, parsed, carries⟩ := h
  rw [carries.debit?_eq, Request.debit?, parsed]

namespace Service

variable {s t : State} {id : CallId} {call : Call} {stage : Stage} {r : Request} {quest : Quest}

/-- The quest for a rate is the request's. -/
def Quest.IsOf (r : Request) : Quest → Prop
  | .exchange _ pair debit amount => r.order? = some (.ok (.exchange pair debit)) ∧
      amount = r.amount
  | quest => Quest.ofRequest? r = some quest

/-- **What a stage holds is the request's.** -/
def Stage.IsOf (r : Request) : Stage → Prop
  | .arrived | .ending _ => True
  | .queued order | .locating (some order) | .reading _ (some order) => r.order? = some (.ok order)
  | .locating none | .reading _ none => ∃ user, r = .view user
  | .consulting quest | .awaitingRefresh quest | .fetching quest _ | .refreshing quest _
  | .serving quest =>
    quest.IsOf r
  | .storing _ change _ | .writing _ change | .committed change _ => r.Asks change
  | .publishing answer _ => ∃ change row, r.Asks change ∧ answer = change.answer row

theorem Quest.not_isOf_view {user : Uuid} : ¬ quest.IsOf (.view user) := by
  cases quest with
  | exchange => exact fun h => nomatch h.1
  | _ => exact nofun

theorem Quest.isOf_of_ofRequest? (h : Quest.ofRequest? r = some quest) : quest.IsOf r := by
  cases r <;> cases h <;> rfl

theorem Quest.Finds.isOf {cache : RateCache} {now due : Nat} (h : quest.Finds cache now due stage)
    (is : quest.IsOf r) : stage.IsOf r := by
  cases h with
  | listing | quote | unconvertible => trivial
  | exchange held converts =>
    obtain ⟨asked, rfl⟩ := is
    exact ⟨_, asked, rfl, converts⟩

theorem Effect.isOf (h : Effect s id call (some stage) t) (is : call.stage.IsOf call.request) :
    stage.IsOf call.request := by
  cases h with
  | viewed at_ asks => exact ⟨_, asks⟩
  | sought at_ asks => exact Quest.isOf_of_ofRequest? asks
  | queued at_ asks => exact asks
  | read at_ =>
    rw [at_] at is
    -- a view is answered, a deposit or a withdrawal is its own change, an exchange still needs its
    -- rate
    unfold State.afterRead
    split
    · trivial
    · exact ⟨_, is, rfl⟩
    · exact ⟨_, is, rfl⟩
    · split
      · exact ⟨is, rfl⟩
      · trivial
  | found at_ finds | foundLate at_ _ finds | served at_ finds =>
    rw [at_] at is
    exact finds.isOf is
  | announced at_ =>
    rw [at_] at is
    exact ⟨_, _, is, rfl⟩
  | located at_ =>
    rw [at_] at is
    cases ‹Option Order› <;> exact is
  | admitted at_ | missed at_ | asked at_ | answered at_ | refreshed at_ | taken at_
  | committed at_ =>
    rw [at_] at is
    exact is
  | _ => trivial

/-- **Every call in progress carries what its request asked for.** -/
theorem Reaches.isOf (h : Reaches s t) (start : s.Unused) (live : t.calls.get? id = some call) :
    call.stage.IsOf call.request :=
  h.calls_invariant start (Q := fun _ _ call => call.stage.IsOf call.request) (fun _ _ => trivial)
    (fun _ _ _ is => is) (fun _ _ _ is effect => effect.isOf is) live

end Service

end Purse
