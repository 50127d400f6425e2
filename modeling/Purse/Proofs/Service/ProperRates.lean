import Purse.Proofs.MinorUnits
import Purse.Proofs.Rate.Usable
import Purse.Proofs.Service.SharedFetch

/-!
# Which rates the service uses

Every rate that a call uses it has found in the cache, so what holds of all rates that a cache
serves holds of it: it is above zero, and it is finite, unless it is the reciprocal of a rate that is
too small (`RateTable.Proper`). A quote hands on what it has found, whatever it is.

An exchange multiplies the amount by the rate that it has found. If that is infinite so is the
product, and the product comes to no units at all; so the exchange ends there
(`Passes.refused_of_infinite`), and every exchange that gets as far as the store has a finite rate.
-/

namespace Purse

open Binary64

/-- **What comes to anything is finite:** an amount at a rate that is not a positive double comes to
nothing. -/
theorem MinorUnits.isPositive_of_converted {amount rate : Float} {debit credit : MinorUnits}
    (comes : ofAmount? amount = some debit) (converts : ofConverted? amount rate = some credit) :
    IsPositive rate := by
  obtain ⟨positive, -⟩ := ofAmount?_eq_some_iff.1 comes
  obtain ⟨product, -⟩ := ofAmount?_eq_some_iff.1 converts
  exact (toRat_mul positive product).1

namespace Service

variable {s t u v : State} {us past : List State} {id : CallId} {call : Call} {pair : CurrencyPair}
  {x : Float} {wallet : Uuid} {debit credit : MinorUnits} {amount : Float} {row : Wallet}

/-! ### Rates that are found -/

/-- A cache that has come about by refreshes is one still. -/
theorem Reaches.cache_made (h : Reaches s t) (start : s.Unused) (made : s.cache.Made) :
    t.cache.Made := by
  rw [h.cache_eq start]
  cases t.latestRefresh? with
  | none => exact made
  | some refresh => exact made.refresh refresh.1 refresh.2

/-- **The call found a proper rate:** in a step of the run it looked into a cache that held a table,
and the rate is what the table quotes for the pair. -/
def FoundProper (us : List State) (id : CallId) (pair : CurrencyPair) (x : Float) : Prop :=
  ∃ u v time table, [v, u] <:+: us ∧ LooksUp id pair x u v ∧ u.cache.snapshot = .take time table ∧
    table.Quotes pair x ∧ table.Proper pair x

theorem Run.foundProper (h : Run s t us) (start : s.Unused) (made : s.cache.Made)
    (looked : LookedUp us id pair x) : FoundProper us id pair x := by
  obtain ⟨u, v, inside, looks⟩ := looked
  have hu : u ∈ us := inside.subset (List.mem_cons_of_mem v List.mem_cons_self)
  have cache : u.cache.Made := (h.reaches_of_mem hu).cache_made start made
  obtain ⟨time, table, holds, quotes⟩ := cache.quotes looks.found
  exact ⟨u, v, time, table, inside, looks, holds, quotes, quotes.proper⟩

/-! ### Exchanges at a rate that is not finite -/

/-- A change that an exchange asks for has a positive double as its rate. -/
theorem isPositive_of_asks {r : Request} (asks : r.Asks (.exchange pair debit credit x)) :
    IsPositive x := by
  obtain ⟨order, parsed, rfl, converts⟩ := asks
  obtain ⟨user, sold, bought, amount, rfl, comes, -⟩ := Request.order?_eq_exchange parsed
  exact MinorUnits.isPositive_of_converted comes converts

/-- **An exchange that finds an infinite rate** goes to its end. -/
theorem Passes.refused_of_infinite (passes : Passes s t us past u v) (start : s.Unused)
    (moves : u.step? id = some v) (live : u.calls.get? id = some call)
    (looks : call.stage.looks? = some (.exchange wallet pair debit amount))
    (found : u.cache.get u.clock pair = some x) (infinite : ¬ x.isFinite) :
    v.calls.get? id = some { call with stage := .ending (.error .invalidAmount) } := by
  have of_ := Quest.isOf_of_looks (passes.before.reaches.isOf start live) looks
  obtain ⟨user, sold, bought, amount, asks, comes, -⟩ := Request.order?_eq_exchange of_.1
  obtain rfl : _ = amount := of_.2.trans (congrArg Request.amount asks)
  have nothing : MinorUnits.ofConverted? amount x = none := by
    by_contra something
    obtain ⟨credit, converts⟩ := Option.ne_none_iff_exists'.1 something
    exact infinite (isPositive_iff.1 (MinorUnits.isPositive_of_converted comes converts)).2
  have finds : (Quest.exchange wallet pair debit amount).found? u.cache u.clock u.storeDue =
      some (.ending (.error .invalidAmount)) := by
    rw [Quest.found?, found, Option.map_some, Quest.exchangeAt, Change.atRate, nothing]
  obtain ⟨call', live', next, effect⟩ := State.step?_effect moves
  obtain rfl := Option.some.inj (live.symm.trans live')
  rcases effect.of_looks looks with ⟨stage, rfl, finds'⟩ | ⟨misses, -⟩
  · obtain rfl := Option.some.inj (finds.symm.trans finds')
    exact effect.calls_self live
  · cases finds.symm.trans misses

/-! ### All together -/

/-- **The rates of a run are proper,** and an exchange has none but finite ones. -/
structure RatesProper (s t : State) (us : List State) : Prop where
  /-- A rate that a call finds in the cache is above zero, and it is finite, unless it is a
  reciprocal that is too large. -/
  found : ∀ {id pair x}, LookedUp us id pair x → FoundProper us id pair x
  /-- So it is with a rate that a quote is answered. -/
  quoted : ∀ {id pair x}, .arrived id (.quote pair) ∈ t.history →
    .ended id (.ok (.rate x)) ∈ t.history → FoundProper us id pair x
  /-- An exchange that finds an infinite rate multiplies the amount by it, but that is all: it ends
  with the product refused. -/
  refused : ∀ {past u v id call wallet pair debit amount x}, Passes s t us past u v →
    u.step? id = some v → u.calls.get? id = some call →
    call.stage.looks? = some (.exchange wallet pair debit amount) →
    u.cache.get u.clock pair = some x → ¬ x.isFinite →
    v.calls.get? id = some { call with stage := .ending (.error .invalidAmount) } ∧
      ∀ outcome, .ended id outcome ∈ t.history → outcome = .error .invalidAmount
  /-- The rate of an exchange that was committed, or answered, is above zero and finite. -/
  exchanged : ∀ {id user sold bought amount debit credit x row},
    .arrived id (.exchange user sold bought amount) ∈ t.history →
    (∃ pair, .committed id (.exchange pair debit credit x) row ∈ t.history) ∨
      .ended id (.ok (.exchanged row x debit credit)) ∈ t.history →
    x > 0.0 ∧ x.isFinite

/-- **Which rates are served and used,** of whatever tables: what a cache serves after a refresh is
proper, and so is every rate in every run of a service on a cache that has come about by
refreshes. -/
theorem Run.ratesProper (h : Run s t us) (start : s.Unused) (made : s.cache.Made) :
    (∀ (ttl time now : Nat) (table : RateTable) (pair : CurrencyPair) (x : Float),
      ((RateCache.create ttl).refresh time table).get now pair = some x → table.Proper pair x) ∧
      RatesProper s t us := by
  refine ⟨fun _ _ _ _ _ _ serves => RateCache.proper_of_get serves, ?_, ?_, ?_, ?_⟩
  · intro id pair x looked
    exact h.foundProper start made looked
  · intro id pair x asked hm
    obtain ⟨pair', wants, looked⟩ := h.lookedUp_of_ended start asked hm rfl
    obtain rfl : pair = pair' := Option.some.inj wants
    exact h.foundProper start made looked
  · intro past u v id call wallet pair debit amount x passes moves live looks found infinite
    have after := passes.refused_of_infinite start moves live looks found infinite
    have reach := passes.before.reaches.tail passes.step
    exact ⟨after, fun outcome hm => reach.ended_of_ending start after rfl passes.after hm⟩
  · intro id user sold bought amount debit credit x row asked used
    have committed : ∃ pair, .committed id (.exchange pair debit credit x) row ∈ t.history := by
      rcases used with committed | answered
      · exact committed
      -- what was answered was committed
      obtain ⟨change, row', once, asks, -, eq, -⟩ := h.committed_once start asked rfl answered
      cases change with
      | deposit | withdraw => cases eq
      | exchange pair debit credit rate =>
        cases eq
        have entered : .committed id (.exchange pair debit credit x) row ∈ t.commits id := by
          rw [once]
          exact List.mem_singleton_self _
        exact ⟨pair, (List.mem_filter.1 entered).1⟩
    obtain ⟨pair, hm⟩ := committed
    exact isPositive_iff.1 (isPositive_of_asks (h.asks_of_committed start hm asked))

/-! ### A rate that is too small -/

/-- The cache is refreshed with the least rate of USD in EUR. A quote of EUR in USD is answered with
its reciprocal, and an exchange of EUR into USD finds that, too. -/
def dwindling : List Turn :=
  let user := Uuid.ofNat 1
  let turns (id : CallId) (n : Nat) : List Turn := List.replicate n (.call id)
  .outside (.refreshCache [⟨⟨.usd, .eur⟩, leastRate⟩]) ::
  .outside (.arrive 0 (.create user) (.ofNat 2)) :: turns 0 2 ++
  .outside (.arrive 1 (.deposit user "EUR" 100.0) (.ofNat 3)) :: turns 1 8 ++
  .outside (.arrive 2 (.quote ⟨.eur, .usd⟩) (.ofNat 4)) :: turns 2 3 ++
  .outside (.arrive 3 (.exchange user "EUR" "USD" 1.0) (.ofNat 5)) :: turns 3 6

set_option maxRecDepth 10000 in
theorem isSome_dwindling : (vacant.follow? dwindling).isSome := by decide +kernel

/-- The service after the quote and the exchange. -/
def dwindled : State := (vacant.follow? dwindling).get isSome_dwindling

/-- The quote is answered with an infinite rate, and the exchange is refused. -/
theorem ratesProper_dwindled :
    (dwindled.rateOf? 2).map Float.isFinite = some false ∧ dwindled.hasFailed 3 .invalidAmount ∧
      ∃ us, Run vacant dwindled us ∧ RatesProper vacant dwindled us := by
  refine ⟨by decide +kernel, by decide +kernel, ?_⟩
  obtain ⟨us, run⟩ := (reaches_of_follow? (Option.some_get isSome_dwindling).symm).exists_run
  exact ⟨us, run, (run.ratesProper unused_vacant (.create _)).2⟩

end Service

end Purse
