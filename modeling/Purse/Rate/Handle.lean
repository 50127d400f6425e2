import Purse.Rate.Cache

/-!
# Handles of a cache

A cache is used through handles. A clone of a handle is a handle of the same cache: a refresh through
one of them is seen through all, since the snapshot stands at one place and a handle only says where.
The time to live is copied with the handle.

`Caches` holds the snapshots of all caches, by place, and the clock that they go by. A history is a
list of what was done: refreshes through some handle, and time that passed.
-/

namespace Purse

/-- A handle of a cache: where its snapshot stands, and for how long one is served. -/
structure CacheHandle where
  place : Nat
  ttl : Nat

namespace CacheHandle

/-- Another handle of the same cache. -/
def clone (h : CacheHandle) : CacheHandle := ⟨h.place, h.ttl⟩

end CacheHandle

/-- What is done with caches. -/
inductive CacheAction where
  /-- A cache is refreshed with a table, through one of its handles. -/
  | refresh (through : CacheHandle) (table : RateTable)
  /-- Time passes. -/
  | advance (ms : Nat)

/-- Some caches and their clock. -/
structure Caches where
  clock : Nat
  /-- The snapshot of each cache that was ever refreshed. -/
  snapshots : Table Nat RateSnapshot

namespace Caches

/-- Caches that were never refreshed. -/
def start (clock : Nat) : Caches := ⟨clock, .empty⟩

/-- The cache that is seen through a handle. -/
def seen (s : Caches) (h : CacheHandle) : RateCache :=
  ⟨h.ttl, (s.snapshots.get? h.place).getD .none⟩

/-- The rate served for a pair through a handle. -/
def get (s : Caches) (h : CacheHandle) (p : CurrencyPair) : Option Float := (s.seen h).get s.clock p

/-- Every rate served through a handle. -/
def getAll (s : Caches) (h : CacheHandle) : Option (List ExchangeRate) := (s.seen h).getAll s.clock

/-- Whether the cache of a handle may serve. -/
def isFresh (s : Caches) (h : CacheHandle) : Bool := (s.seen h).isFresh s.clock

/-- The caches after one of them was refreshed through a handle. -/
def refresh (s : Caches) (h : CacheHandle) (t : RateTable) : Caches :=
  { s with snapshots := s.snapshots.insert h.place ((s.seen h).refresh s.clock t).snapshot }

/-- The caches after one action. -/
def step (s : Caches) : CacheAction → Caches
  | .refresh h t => s.refresh h t
  | .advance ms => { s with clock := s.clock + ms }

/-- The caches after a history. -/
def after (s : Caches) (history : List CacheAction) : Caches := history.foldl step s

end Caches

end Purse
