import Purse.Proofs.Service.Linearization
import Purse.Proofs.Service.Solo

/-!
# One listing after another

A listing that meets nobody is answered in one of two ways. If the cache may serve and is not empty,
the answer is what the cache shows. Otherwise the source is asked, and the answer is what the cache
shows after that. This module says that the two ways give the same answer: what the cache shows under a
table is the view of the table (`RateCache.getAll_of_take`), at the moment of the refresh and at every
later one up to the end of its time, as long as nobody refreshes it (`Reaches.cache_eq_of_adds`).

The two differ for a table whose view is empty. The call that has asked the source answers with the
empty list, but a cache that is empty lists nothing, so the next call asks again.
-/

namespace Purse.Service

variable {s t u : State} {table : RateTable} {rs : List ExchangeRate} {outcome : Outcome}
  {asked : Nat} {cache : RateCache} {fault : PartnerFault}

/-- **Whoever asks for a listing now,** and meets nobody, gets the outcome. The source is asked so often
for it, and this is the cache that is left. -/
def State.Lists (s : State) (outcome : Outcome) (asked : Nat) (cache : RateCache) : Prop :=
  ∀ id drawn, s.isTaken id = false →
    ∃ t, s.serve? id .listing drawn = some (t, ⟨id, .listing, drawn, outcome⟩) ∧
      t.fetches = s.fetches + asked ∧ t.cache = cache

/-! ### One listing -/

/-- The state in which a listing has arrived and looks into the cache. -/
def State.seeking (s : State) (id : CallId) (drawn : Uuid) : State :=
  (s.arrive id .listing drawn).goto id (.consulting .listing)

/-- A listing looks into the cache at once, so it is enough to know how it goes on from there. -/
theorem State.lists_of_comes (h : ∀ id drawn, let c : Solo := ⟨true, id, .listing, drawn⟩
    c.Stands (s.seeking id drawn) (.consulting .listing) →
      c.Comes (s.seeking id drawn) (.ending outcome)
        { s.scene with cache := cache, fetches := s.fetches + asked }) :
    s.Lists outcome asked cache := by
  intro id drawn new
  let c : Solo := ⟨true, id, .listing, drawn⟩
  obtain ⟨goes, stands⟩ : c.Goes (s.arrive id .listing drawn) (s.seeking id drawn) ∧
      c.Stands (s.seeking id drawn) (.consulting .listing) :=
    (c.stands_arrive s).next (.sought rfl rfl) rfl
  obtain ⟨u, serves, scene⟩ := c.serveWith?_eq new ((h id drawn stands).of_goes goes)
  rw [State.serveWith?_true] at serves
  exact ⟨u, serves, congrArg Scene.fetches scene, congrArg Scene.cache scene⟩

/-- **A hit:** the source is not asked. -/
theorem State.lists_of_hit (shows : s.cache.getAll s.clock = some rs) :
    s.Lists (.ok (.rates rs)) 0 s.cache := by
  apply lists_of_comes
  intro id drawn c stands
  exact Solo.comes_of_hit stands (Option.map_eq_some_iff.2 ⟨rs, shows, rfl⟩)

section Miss

variable (misses : s.cache.getAll s.clock = none) (open_ : s.refreshLock = .open_)
  (instant : s.source.delay = 0)
include misses open_ instant

/-- **The source fails:** so does the listing, and the cache is as it was. -/
theorem State.lists_of_fault (replies : s.source.answer = .error fault) :
    s.Lists (.error (.partner fault)) 1 s.cache := by
  apply lists_of_comes
  intro id drawn c stands
  exact Solo.comes_of_fault stands open_ (Option.map_eq_none_iff.2 misses) instant replies

/-- **The source answers:** the listing is the view of its table, and the cache holds the table. -/
theorem State.lists_of_fetch (replies : s.source.answer = .ok table) :
    s.Lists (.ok (.rates table.view)) 1 (s.cache.refresh s.clock table) := by
  have fresh : (s.cache.refresh s.clock table).isFresh s.clock :=
    RateCache.isFresh_refresh.2 (Nat.le_add_right ..)
  -- the last look is at the moment of the refresh
  have last (due : Nat) : (Quest.listing.found? (s.cache.refresh s.clock table) s.clock due).getD
      (.ending Quest.listing.missing) = .ending (.ok (.rates table.view)) := by
    rw [Quest.found?_listing_getD, RateCache.getD_getAll_of_take rfl fresh]
  apply lists_of_comes
  intro id drawn c stands
  rw [← last s.storeDue]
  exact Solo.comes_of_fetch stands open_ (Option.map_eq_none_iff.2 misses) instant replies

end Miss

/-! ### The next ones -/

/-- **A later moment:** `u` comes after a listing from `s`, whatever else happened since then, but for
a refresh of the cache. -/
def State.AfterListing (s u : State) : Prop :=
  ∃ id drawn t served, s.serve? id .listing drawn = some (t, served) ∧ Reaches t u ∧
    Adds (fun o => o.refresh? = none) t u

/-- The cache is still as the listing left it. -/
theorem State.Lists.cache_eq (h : s.Lists outcome asked cache) (later : s.AfterListing u) :
    u.cache = cache := by
  obtain ⟨id, drawn, t, served, serves, reaches, quiet⟩ := later
  have new : s.isTaken id = false := by
    unfold State.serve? at serves
    split at serves
    · cases serves
    · next new => exact Bool.eq_false_iff.2 new
  -- there is only one way for this listing to come out
  obtain ⟨t', serves', -, left⟩ := h id drawn new
  cases serves.symm.trans serves'
  exact (reaches.cache_eq_of_adds quiet).trans left

/-- **A listing that had to ask the source,** and was given the table: it is `rs`. -/
structure Fetched (s : State) (table : RateTable) (rs : List ExchangeRate) : Prop where
  /-- It is the view of the table. -/
  view : table.IsView rs
  /-- The source is asked once, and the cache is refreshed with the table. -/
  lists : s.Lists (.ok (.rates rs)) 1 (s.cache.refresh s.clock table)
  /-- From then on, up to the end of its time, the cache serves what the table quotes. -/
  serves : ∀ now, now ≤ s.clock + s.cache.ttl → ∀ pair x,
    (s.cache.refresh s.clock table).get now pair = some x ↔ table.Quotes pair x
  /-- Up to then every later listing is the same, unless it is empty, and the source is not asked. -/
  again : rs ≠ [] → ∀ u, s.AfterListing u → u.clock ≤ s.clock + s.cache.ttl →
    u.Lists (.ok (.rates rs)) 0 u.cache
  /-- After an empty one the next listing asks the source again. -/
  anew : rs = [] → ∀ u, s.AfterListing u → u.refreshLock = .open_ → u.source.delay = 0 →
    ∃ outcome cache, u.Lists outcome 1 cache

/-- **Listings from the state** are the same whether the cache serves them or the source is asked. -/
structure State.ListsSteadily (s : State) : Prop where
  /-- A cache that may serve and is not empty is listed as it is, and the source is not asked. -/
  hit : s.cache.CanList s.clock →
    ∃ rs, s.cache.snapshot.Shows rs ∧ s.Lists (.ok (.rates rs)) 0 s.cache
  /-- If it is stale or empty, the table of the source is listed. -/
  fetched : ¬ s.cache.CanList s.clock → s.refreshLock = .open_ → s.source.delay = 0 →
    ∀ table, s.source.answer = .ok table → ∃ rs, Fetched s table rs
  /-- If the source fails then, so does the listing, and the cache is as it was. -/
  failed : ¬ s.cache.CanList s.clock → s.refreshLock = .open_ → s.source.delay = 0 →
    ∀ fault, s.source.answer = .error fault → s.Lists (.error (.partner fault)) 1 s.cache

/-- A state whose source answers at once asks it for a listing, whatever the answer. -/
theorem State.exists_lists_of_miss (misses : s.cache.getAll s.clock = none)
    (open_ : s.refreshLock = .open_) (instant : s.source.delay = 0) :
    ∃ outcome cache, s.Lists outcome 1 cache := by
  cases replies : s.source.answer with
  | ok table => exact ⟨_, _, lists_of_fetch misses open_ instant replies⟩
  | error fault => exact ⟨_, _, lists_of_fault misses open_ instant replies⟩

/-- **Every state lists its rates steadily,** whatever is in its cache, whatever its clock shows and
whatever its source answers. -/
theorem State.listsSteadily (s : State) : s.ListsSteadily where
  hit can := by
    obtain ⟨rs, shows, snapshot⟩ := can.exists_getAll
    exact ⟨rs, snapshot, lists_of_hit shows⟩
  failed cannot open_ instant fault replies :=
    lists_of_fault (RateCache.getAll_of_not_canList cannot) open_ instant replies
  fetched cannot open_ instant table replies := by
    have lists := lists_of_fetch (RateCache.getAll_of_not_canList cannot) open_ instant replies
    -- the cache that the listing leaves is the cache of every later moment
    have shown (u : State) (later : s.AfterListing u) : u.cache.getAll u.clock =
        if u.cache.isFresh u.clock ∧ table.view ≠ [] then some table.view else none := by
      rw [lists.cache_eq later]
      exact RateCache.getAll_of_take rfl
    refine ⟨table.view, RateTable.isView_view, lists, ?_, ?_, ?_⟩
    · intro now inTime pair x
      rw [RateCache.get_refresh, if_pos inTime, RateTable.quote_eq_some_iff]
    · intro something u later inTime
      have fresh : u.cache.isFresh u.clock := by
        rw [lists.cache_eq later]
        exact RateCache.isFresh_refresh.2 inTime
      refine lists_of_hit ?_
      rw [shown u later, if_pos ⟨fresh, something⟩]
    · -- fresh or not, an empty view is not listed
      intro empty u later open_ instant
      refine exists_lists_of_miss ?_ open_ instant
      rw [shown u later, if_neg fun both => both.2 empty]

/-- A service whose source gives EUR before USD, the rate of USD twice and then once more as zero, and
last the dollar in dollars. -/
def jumbled : State :=
  let table : RateTable := [⟨⟨.eur, .rub⟩, 98.0⟩, ⟨⟨.usd, .rub⟩, 90.0⟩, ⟨⟨.usd, .rub⟩, 91.5⟩,
    ⟨⟨.usd, .rub⟩, 0.0⟩, ⟨⟨.usd, .usd⟩, 1.0⟩]
  { vacant with source := ⟨table, none, 0⟩ }

/-- The second rate of USD is listed, before that of EUR, and what comes after it is left out. -/
theorem listsSteadily_jumbled :
    ¬ jumbled.cache.CanList jumbled.clock ∧
      Fetched jumbled jumbled.source.table [⟨⟨.usd, .rub⟩, 91.5⟩, ⟨⟨.eur, .rub⟩, 98.0⟩] := by
  have empty : ¬ jumbled.cache.CanList jumbled.clock := fun can => can.2 rfl
  obtain ⟨rs, fetched⟩ := jumbled.listsSteadily.fetched empty rfl rfl _ rfl
  have view : rs = [⟨⟨.usd, .rub⟩, 91.5⟩, ⟨⟨.eur, .rub⟩, 98.0⟩] := fetched.view.eq_view
  exact ⟨empty, view ▸ fetched⟩

end Purse.Service
