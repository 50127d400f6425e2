import Purse.Proofs.Service.Requests
import Purse.Proofs.Service.Solo
import Purse.Proofs.Rate.Cache

/-!
# What can stand in the way of an exchange

An exchange can fail for ten reasons, and they come in an order: it fails for the first that applies
and for no other. An `Obstacle` names one, `Obstacle.error?` says when it applies and with what error,
as a function of the state before the call and of the terms that the caller gave, and
`Obstacle.inOrder` is the order. If none applies the exchange is made (`Deal`).

The source is asked in between: after some obstacles and before the others. Whoever fails at an
earlier one has not asked it; whoever gets past them has, if the cache did not serve the pair.

With the early look at the balance the want of funds comes before the rates, without it after them.
Both orders are treated at once (`Exchanged`), by putting together the pieces of a call on its own.
-/

namespace Purse

/-- The terms of an exchange, as the caller gave them. -/
structure Terms where
  user : Uuid
  sold : String
  bought : String
  amount : Float

namespace Terms

/-- The request on these terms. -/
def request (x : Terms) : Request := .exchange x.user x.sold x.bought x.amount

/-- What is to be debited. -/
def debit? (x : Terms) : Option MinorUnits := MinorUnits.ofAmount? x.amount

/-- The currencies that are named, if they are two. -/
def pair? (x : Terms) : Option CurrencyPair := do
  let sold ← Currency.ofSymbol? x.sold
  let bought ← Currency.ofSymbol? x.bought
  if sold = bought then none else some ⟨sold, bought⟩

theorem pair?_eq_some {x : Terms} {pair : CurrencyPair} (h : x.pair? = some pair) :
    Currency.ofSymbol? x.sold = some pair.sold ∧ Currency.ofSymbol? x.bought = some pair.bought ∧
      pair.sold ≠ pair.bought := by
  obtain ⟨sold, sells, h⟩ := Option.bind_eq_some_iff.1 h
  obtain ⟨bought, buys, h⟩ := Option.bind_eq_some_iff.1 h
  split at h
  · cases h
  · next differ =>
    cases h
    exact ⟨sells, buys, differ⟩

end Terms

namespace Service

variable {s t : State} {k k' : Scene} {x : Terms} {e : WalletError} {early : Bool}
  {pair : CurrencyPair} {row : Wallet} {debit : MinorUnits} {outcome : Outcome} {id : CallId}
  {drawn : Uuid}

/-! ### The rate of a pair -/

namespace Scene

/-- The time of day. -/
def now (k : Scene) : Timestamp := k.origin.afterMillis k.clock

/-- The cache cannot serve the pair now. -/
def misses (k : Scene) (pair : CurrencyPair) : Bool := (k.cache.get k.clock pair).isNone

/-- **The rate that a call finds now:** the one that the cache serves, or else the one that the table
of the source quotes. -/
def rate? (k : Scene) (pair : CurrencyPair) : Option Float :=
  match k.cache.get k.clock pair with
  | some rate => some rate
  | none =>
    match k.source.answer with
    | .ok table => table.quote pair
    | .error _ => none

theorem rate?_of_hit {rate : Float} (hit : k.cache.get k.clock pair = some rate) :
    k.rate? pair = some rate := by
  rw [rate?, hit]

theorem rate?_of_fetch {table : RateTable} (miss : k.cache.get k.clock pair = none)
    (replies : k.source.answer = .ok table) : k.rate? pair = table.quote pair := by
  rw [rate?, miss, replies]

theorem rate?_of_fault {fault : PartnerFault} (miss : k.cache.get k.clock pair = none)
    (replies : k.source.answer = .error fault) : k.rate? pair = none := by
  rw [rate?, miss, replies]

/-- Why a rate that was looked up is not there. -/
def rateError (k : Scene) (pair : CurrencyPair) : WalletError :=
  match k.source.answer with
  | .ok _ => .rateUnavailable pair.sold.symbol pair.bought.symbol
  | .error fault => .partner fault

/-- The scene after the source was asked: if it answered, its table is in the cache. -/
def fetched (k : Scene) : Scene :=
  match k.source.answer with
  | .ok table => { k with cache := k.cache.refresh k.clock table, fetches := k.fetches + 1 }
  | .error _ => { k with fetches := k.fetches + 1 }

/-- The scene after the rate of a pair was looked up. -/
def lookedUp (k : Scene) (pair : CurrencyPair) : Scene := if k.misses pair then k.fetched else k

/-! A look-up changes the cache and the count of fetches, and nothing else. -/

theorem fetched_eq (k : Scene) :
    k.fetched = { k with cache := k.fetched.cache, fetches := k.fetches + 1 } := by
  unfold fetched
  split <;> rfl

theorem lookedUp_eq (k : Scene) (pair : CurrencyPair) :
    k.lookedUp pair =
      { k with cache := (k.lookedUp pair).cache, fetches := (k.lookedUp pair).fetches } := by
  unfold lookedUp
  split
  · rw [fetched_eq]
  · rfl

@[simp] theorem lookedUp_store : (k.lookedUp pair).store = k.store := by rw [lookedUp_eq]

@[simp] theorem lookedUp_clock : (k.lookedUp pair).clock = k.clock := by rw [lookedUp_eq]

@[simp] theorem lookedUp_now : (k.lookedUp pair).now = k.now := by rw [lookedUp_eq]; rfl

theorem AtRest.lookedUp (h : k.AtRest) (pair : CurrencyPair) : (k.lookedUp pair).AtRest := by
  rw [lookedUp_eq]
  exact ⟨h.refreshLock, h.rowLock, h.store, h.instant, h.conditions⟩

end Scene

/-! ### The obstacles -/

/-- **What can stand in the way of an exchange.** -/
inductive Obstacle where
  /-- The amount comes to nothing that can be debited. -/
  | amount
  /-- The sold currency is not known. -/
  | sold
  /-- The bought currency is not known. -/
  | bought
  /-- They are the same. -/
  | same
  /-- The user has no wallet. -/
  | wallet
  /-- The balance is below what is to be debited. -/
  | funds
  /-- The source was to be asked and failed. -/
  | source
  /-- Nobody quotes a rate. -/
  | rate
  /-- The amount times the rate comes to nothing that can be credited. -/
  | product
  /-- The balance of the bought currency would be too large. -/
  | room
deriving DecidableEq

namespace Obstacle

/-- **When an obstacle applies,** and with what error. -/
def error? (k : Scene) (x : Terms) : Obstacle → Option WalletError
  | amount => if x.debit?.isNone then some .invalidAmount else none
  | sold =>
    if (Currency.ofSymbol? x.sold).isNone then some (.unsupportedCurrency x.sold) else none
  | bought =>
    if (Currency.ofSymbol? x.bought).isNone then some (.unsupportedCurrency x.bought) else none
  | same => do
    let sold ← Currency.ofSymbol? x.sold
    let bought ← Currency.ofSymbol? x.bought
    if sold = bought then some .sameCurrency else none
  | wallet =>
    match k.store.get x.user with
    | .ok _ => none
    | .error _ => some .walletNotFound
  | funds => do
    let debit ← x.debit?
    let pair ← x.pair?
    let row ← (k.store.get x.user).toOption
    if (row.balance pair.sold).units < debit.units then some .insufficientFunds else none
  | source => do
    let pair ← x.pair?
    match k.source.answer with
    | .ok _ => none
    | .error fault => if k.misses pair then some (.partner fault) else none
  | rate => do
    let pair ← x.pair?
    if (k.rate? pair).isNone then some (.rateUnavailable pair.sold.symbol pair.bought.symbol)
    else none
  | product => do
    let pair ← x.pair?
    let rate ← k.rate? pair
    if (MinorUnits.ofConverted? x.amount rate).isNone then some .invalidAmount else none
  | room => do
    let pair ← x.pair?
    let row ← (k.store.get x.user).toOption
    let rate ← k.rate? pair
    let credit ← MinorUnits.ofConverted? x.amount rate
    if MinorUnits.greatest < (row.balance pair.bought).units + credit.units then
      some (.storage (.balanceOverflow pair.bought))
    else none

/-- The obstacles in the arguments alone. -/
def arguments : List Obstacle := [amount, sold, bought, same]

/-- The obstacles before the rate is looked up, with or without the early look at the balance. -/
def beforeRate (early : Bool) : List Obstacle :=
  arguments ++ if early then [wallet, funds] else [wallet]

/-- The obstacles from there on. Without the early look the balance is found wanting only when the row
is to be changed. -/
def fromRate (early : Bool) : List Obstacle :=
  [source, rate, product] ++ if early then [room] else [funds, room]

/-- **The obstacles in order.** -/
def inOrder (early : Bool) : List Obstacle := beforeRate early ++ fromRate early

/-- The first of some obstacles that applies. -/
def first? (k : Scene) (x : Terms) (os : List Obstacle) : Option WalletError :=
  os.findSome? (error? k x)

theorem first?_append (os os' : List Obstacle) :
    first? k x (os ++ os') = (first? k x os).or (first? k x os') := List.findSome?_append

theorem first?_inOrder :
    first? k x (inOrder early) = (first? k x (beforeRate early)).or (first? k x (fromRate early)) :=
  first?_append ..

/-- Whether the funds are in the way of a user with a row. -/
theorem error?_funds_of_row (debits : x.debit? = some debit) (trades : x.pair? = some pair)
    (there : k.store.get x.user = .ok row) :
    error? k x funds =
      if (row.balance pair.sold).units < debit.units then some .insufficientFunds else none := by
  simp [error?, debits, trades, there, Except.toOption]

/-- A user without a wallet is stopped before the rates. -/
theorem first?_beforeRate_of_nobody (passes : first? k x arguments = none)
    (nobody : k.store.get x.user = .error e) :
    first? k x (beforeRate early) = some .walletNotFound := by
  have missing : error? k x wallet = some .walletNotFound := by rw [error?, nobody]
  rw [beforeRate, first?_append, passes, Option.none_or]
  cases early <;> simp [first?, missing]

/-- With a row, only the early look can be in the way. -/
theorem first?_beforeRate_of_row (passes : first? k x arguments = none)
    (debits : x.debit? = some debit) (trades : x.pair? = some pair)
    (there : k.store.get x.user = .ok row) :
    first? k x (beforeRate early) =
      if early ∧ (row.balance pair.sold).units < debit.units then some .insufficientFunds
      else none := by
  have found : error? k x wallet = none := by rw [error?, there]
  have looks := error?_funds_of_row debits trades there
  rw [beforeRate, first?_append, passes, Option.none_or]
  cases early <;> simp [first?, found, looks]

/-- An exchange whose rate was looked up in vain fails for that. -/
theorem first?_fromRate_of_none (trades : x.pair? = some pair)
    (nothing : k.rate? pair = none) :
    first? k x (fromRate early) = some (k.rateError pair) := by
  unfold Scene.rateError
  -- a rate that is not found was not in the cache either
  have unserved : k.misses pair = true := by
    unfold Scene.rate? at nothing
    unfold Scene.misses
    cases hit : k.cache.get k.clock pair with
    | some rate =>
      rw [hit] at nothing
      cases nothing
    | none => rfl
  cases replies : k.source.answer with
  | error fault => simp [first?, fromRate, error?, trades, replies, unserved]
  | ok table => simp [first?, fromRate, error?, trades, replies, nothing]

/-- With a rate the obstacles left are the product, the funds and the room. -/
theorem first?_fromRate_of_some {rate : Float} (trades : x.pair? = some pair)
    (finds : k.rate? pair = some rate) :
    first? k x (fromRate early) = first? k x (product :: if early then [room] else [funds, room]) := by
  -- a source that fails is not asked, since the rate then comes from the cache
  have served : error? k x source = none := by
    unfold Scene.rate? at finds
    cases replies : k.source.answer with
    | ok table => simp [error?, trades, replies]
    | error fault =>
      rw [replies] at finds
      cases hit : k.cache.get k.clock pair with
      | some other => simp [error?, trades, replies, Scene.misses, hit]
      | none =>
        rw [hit] at finds
        cases finds
  have quoted : error? k x Obstacle.rate = none := by simp [error?, trades, finds]
  unfold first? fromRate
  rw [List.cons_append, List.findSome?_cons, served, List.cons_append, List.findSome?_cons, quoted]
  rfl

/-- An amount that comes to nothing at the rate is in the way. -/
theorem first?_fromRate_of_nothing {rate : Float} (trades : x.pair? = some pair)
    (finds : k.rate? pair = some rate) (nothing : MinorUnits.ofConverted? x.amount rate = none) :
    first? k x (fromRate early) = some .invalidAmount := by
  rw [first?_fromRate_of_some trades finds]
  simp [first?, error?, trades, finds, nothing]

/-- With something to credit it is the two balances that can be in the way. -/
theorem first?_fromRate_of_credit {rate : Float} {credit : MinorUnits}
    (debits : x.debit? = some debit) (trades : x.pair? = some pair)
    (there : k.store.get x.user = .ok row) (finds : k.rate? pair = some rate)
    (credits : MinorUnits.ofConverted? x.amount rate = some credit) :
    first? k x (fromRate early) =
      if early = false ∧ (row.balance pair.sold).units < debit.units then some .insufficientFunds
      else if MinorUnits.greatest < (row.balance pair.bought).units + credit.units then
        some (.storage (.balanceOverflow pair.bought))
      else none := by
  have comes : error? k x product = none := by simp [error?, trades, finds, credits]
  have looks := error?_funds_of_row debits trades there
  have fits : error? k x room =
      if MinorUnits.greatest < (row.balance pair.bought).units + credit.units then
        some (.storage (.balanceOverflow pair.bought))
      else none := by
    simp [error?, trades, there, finds, credits, Except.toOption]
  rw [first?_fromRate_of_some trades finds]
  unfold first?
  rw [List.findSome?_cons, comes]
  cases early with
  | true => simp [fits]
  | false =>
    by_cases short : (row.balance pair.sold).units < debit.units
    · simp [looks, short]
    · simp [looks, fits, short]

end Obstacle

/-- **Whether an exchange asks the source:** it gets past the obstacles that come before, and the
cache cannot serve the pair. -/
def Scene.asks (early : Bool) (k : Scene) (x : Terms) : Bool :=
  (Obstacle.first? k x (Obstacle.beforeRate early)).isNone && x.pair?.any k.misses

/-- **An exchange is made:** the row of the user is changed by what the amount comes to and what it
comes to at the rate. -/
inductive Deal (k : Scene) (x : Terms) (store : MemoryStore) : Answer → Prop
  | made {row next : Wallet} {pair : CurrencyPair} {debit credit : MinorUnits} {rate : Float}
      (debits : x.debit? = some debit) (trades : x.pair? = some pair)
      (there : k.store.get x.user = .ok row) (finds : k.rate? pair = some rate)
      (credits : MinorUnits.ofConverted? x.amount rate = some credit)
      (writes : k.store.mutate k.now row.id (.exchange pair.sold debit pair.bought credit) =
        .ok (store, next)) :
      Deal k x store (.exchanged next rate debit credit)

/-- There is only one way to make it. -/
theorem Deal.unique {store store' : MemoryStore} {answer answer' : Answer}
    (h : Deal k x store answer) (h' : Deal k x store' answer') :
    store' = store ∧ answer' = answer := by
  obtain ⟨debits, trades, there, finds, credits, writes⟩ := h
  obtain ⟨debits', trades', there', finds', credits', writes'⟩ := h'
  cases debits.symm.trans debits'
  cases trades.symm.trans trades'
  cases there.symm.trans there'
  cases finds.symm.trans finds'
  cases credits.symm.trans credits'
  cases writes.symm.trans writes'
  exact ⟨rfl, rfl⟩

/-- **What an exchange comes to** in a scene, and the scene afterwards. -/
structure Exchanged (early : Bool) (k : Scene) (x : Terms) (k' : Scene) (outcome : Outcome) :
    Prop where
  /-- It fails for the first obstacle that applies. -/
  fails : ∀ e, outcome = .error e ↔ Obstacle.first? k x (Obstacle.inOrder early) = some e
  /-- If none does, the exchange is made. -/
  succeeds : ∀ answer, outcome = .ok answer → Deal k x k'.store answer
  /-- If it fails, nothing is written. -/
  store_eq : ∀ e, outcome = .error e → k'.store = k.store
  /-- All else is changed only by the source being asked. -/
  scene_eq : k' = { (if k.asks early x then k.fetched else k) with store := k'.store }

/-! ### How it comes out -/

namespace Exchanged

/-- An exchange that fails before any rate is looked up. -/
theorem of_beforeRate (fails : Obstacle.first? k x (Obstacle.beforeRate early) = some e) :
    Exchanged early k x k (.error e) where
  fails e' := by
    rw [Obstacle.first?_inOrder, fails, Option.some_or, Except.error.injEq, Option.some.injEq]
  succeeds _ h := nomatch h
  store_eq _ _ := rfl
  scene_eq := by
    have silent : k.asks early x = false := by
      rw [Scene.asks, fails]
      rfl
    rw [silent]
    rfl

theorem asks_eq (passes : Obstacle.first? k x (Obstacle.beforeRate early) = none)
    (trades : x.pair? = some pair) : k.asks early x = k.misses pair := by
  rw [Scene.asks, passes, trades]
  exact Bool.true_and _

/-- An exchange that fails when the rate has been looked up. -/
theorem of_fromRate (passes : Obstacle.first? k x (Obstacle.beforeRate early) = none)
    (trades : x.pair? = some pair)
    (fails : Obstacle.first? k x (Obstacle.fromRate early) = some e) :
    Exchanged early k x (k.lookedUp pair) (.error e) where
  fails e' := by
    rw [Obstacle.first?_inOrder, passes, Option.none_or, fails, Except.error.injEq,
      Option.some.injEq]
  succeeds _ h := nomatch h
  store_eq _ _ := Scene.lookedUp_store
  scene_eq := by
    rw [asks_eq passes trades]
    rfl

/-- An exchange that is made. -/
theorem of_deal {store : MemoryStore} {answer : Answer}
    (passes : Obstacle.first? k x (Obstacle.beforeRate early) = none)
    (trades : x.pair? = some pair)
    (passes' : Obstacle.first? k x (Obstacle.fromRate early) = none)
    (deal : Deal k x store answer) :
    Exchanged early k x { k.lookedUp pair with store } (.ok answer) where
  fails e := by
    rw [Obstacle.first?_inOrder, passes, Option.none_or, passes']
    exact ⟨nofun, nofun⟩
  succeeds answer' same := by
    cases same
    exact deal
  store_eq _ h := nomatch h
  scene_eq := by
    rw [asks_eq passes trades]
    rfl

end Exchanged

/-! ### The arguments -/

/-- **The arguments are checked in the order of the obstacles.** -/
theorem Obstacle.arguments_cases (k : Scene) (x : Terms) :
    (∃ e, first? k x arguments = some e ∧ x.request.order? = some (.error e)) ∨
      ∃ debit pair, x.debit? = some debit ∧ x.pair? = some pair ∧ first? k x arguments = none ∧
        x.request.order? = some (.ok (.exchange pair debit)) := by
  cases parsed : Order.parseExchange x.sold x.bought x.amount with
  | ok order =>
    have asked : x.request.order? = some (.ok order) := congrArg some parsed
    have right : (Request.exchange x.user x.sold x.bought x.amount).Parsed order :=
      Request.parsed asked
    cases right with
    | @exchange _ _ _ _ pair debit comes sells buys differ =>
      have debits : x.debit? = some debit := comes
      refine .inr ⟨debit, pair, debits, ?_, ?_, asked⟩
      · simp [Terms.pair?, sells, buys, differ]
      · simp [first?, arguments, error?, debits, sells, buys, differ]
  | error e =>
    refine .inl ⟨e, ?_, congrArg some parsed⟩
    -- the checks are made one after another, and each that is passed goes into the next case
    rcases WalletError.of_bind_eq_error parsed with h | ⟨debit, hd, h⟩
    · have nothing : x.debit? = none := MinorUnits.ofAmount?_eq_none h
      obtain rfl := MinorUnits.parse_eq_error h
      simp [first?, arguments, error?, nothing]
    have debits : x.debit? = some debit := MinorUnits.parse_eq_ok_iff.1 hd
    rcases WalletError.of_bind_eq_error h with h | ⟨sold, hs, h⟩
    · have unknown := Currency.ofSymbol?_eq_none h
      obtain rfl := Currency.parse_eq_error h
      simp [first?, arguments, error?, debits, unknown]
    have sells := Currency.parse_eq_ok_iff.1 hs
    rcases WalletError.of_bind_eq_error h with h | ⟨bought, hb, h⟩
    · have unknown := Currency.ofSymbol?_eq_none h
      obtain rfl := Currency.parse_eq_error h
      simp [first?, arguments, error?, debits, sells, unknown]
    have buys := Currency.parse_eq_ok_iff.1 hb
    by_cases same : sold = bought
    · rw [if_pos same] at h
      cases h
      simp [first?, arguments, error?, debits, sells, buys, same]
    · -- then nothing was wrong
      rw [if_neg same] at h
      cases h

end Service

end Purse
