import Purse.Rate

/-!
# The rate cache

The cache holds the rates of the latest refresh and its time, and serves them for a limited time
after it. A refresh replaces everything, so what is served never mixes two tables. A pair that is
not held is served by the reciprocal of the opposite direction, if that is held.

Times are milliseconds of a clock that does not run backwards.
-/

namespace Purse

/-- The rates of one refresh, and its time; a cache that was never refreshed has none. -/
structure RateSnapshot where
  rates : Table CurrencyPair Float
  refreshedAt : Option Nat

namespace RateSnapshot

/-- The snapshot of a cache that was never refreshed. -/
def none : RateSnapshot := ⟨.empty, Option.none⟩

instance : Inhabited RateSnapshot := ⟨none⟩

/-- The usable entries of a table as a map; a later entry of a pair replaces an earlier one. -/
def collect (t : RateTable) : Table CurrencyPair Float :=
  t.foldl (fun rates r => if r.isUsable then rates.insert r.pair r.rate else rates) .empty

/-- The snapshot of a table, taken now. -/
def take (now : Nat) (t : RateTable) : RateSnapshot := ⟨collect t, some now⟩

/-- Whether no more than `ttl` has passed since the refresh. -/
def isFresh (s : RateSnapshot) (ttl now : Nat) : Bool :=
  match s.refreshedAt with
  | some at_ => now - at_ ≤ ttl
  | Option.none => false

end RateSnapshot

/-- A cache of rates with a common time to live. -/
structure RateCache where
  ttl : Nat
  snapshot : RateSnapshot

namespace RateCache

/-- An empty cache. -/
def create (ttl : Nat) : RateCache := ⟨ttl, .none⟩

/-- The cache after a refresh with a table. -/
def refresh (c : RateCache) (now : Nat) (t : RateTable) : RateCache :=
  { c with snapshot := .take now t }

/-- Whether the cache may serve. -/
def isFresh (c : RateCache) (now : Nat) : Bool := c.snapshot.isFresh c.ttl now

/-- **The rate served for a pair:** the one held, or the reciprocal of the one held for the opposite
direction. -/
def get (c : RateCache) (now : Nat) (p : CurrencyPair) : Option Float :=
  if c.isFresh now then
    match c.snapshot.rates.get? p with
    | some rate => some rate
    | none => (c.snapshot.rates.get? p.reversed).map fun rate => 1.0 / rate
  else none

/-- **Every rate held,** in the order of pairs; none if there is none or they may not be served. -/
def getAll (c : RateCache) (now : Nat) : Option (List ExchangeRate) :=
  if c.snapshot.rates.entries.isEmpty || !c.isFresh now then none
  else some (ExchangeRate.sortByPair (c.snapshot.rates.entries.map fun e => ⟨e.1, e.2⟩))

end RateCache

end Purse
