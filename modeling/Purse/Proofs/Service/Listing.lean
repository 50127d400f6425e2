import Purse.Command.Run
import Purse.Proofs.Database.Rates
import Purse.Proofs.Service.SharedFetch
import Purse.Proofs.Settings

/-!
# One listing, with and without the service

The rates of the settings are listed in two ways. The program prints them without starting anything:
it puts them into a cache of its own and reads the cache. The service has them from its source, and
every call that finds the cache empty or too old puts them there again. Both read what a cache holds
under the table of the settings, and that is the view of the table (`RateCache.getD_getAll_of_take`),
so the two agree whatever the table is.

For the service this is a statement about all runs (`Run.listed`). It ends a listing with what the
cache shows, at whichever look the call finds something, and with nothing if it does not; what the
cache shows while it may serve is always the view of the one table (`Run.snapshot_of_fresh`). That a
service which is asked does answer is said apart from that (`follow?_firstListing`).

The settings have passed the check, so every entry is usable and the view of the table loses none
(`RateTable.lists_view`).
-/

namespace Purse

namespace Service

variable {s t u v : State} {us past : List State} {id : CallId} {call : Call} {stage : Stage}
  {quest : Quest} {outcome : Outcome} {table : RateTable} {now : Nat} {drawn : Uuid}

/-! ### A call that lists the rates -/

/-- A listing looks for all rates and for nothing else. -/
theorem Quest.eq_listing (h : quest.IsOf .listing) : quest = .listing := by
  cases quest with
  | listing => rfl
  | quote pair => cases h
  | exchange wallet pair debit amount =>
    obtain ⟨asked, -⟩ := h
    cases asked

theorem Request.not_asks_listing {change : Change} : ¬ Request.listing.Asks change := by
  rintro ⟨order, parsed, -⟩
  cases parsed

theorem Stage.not_isOf_reading {wallet : Uuid} {order : Option Order} :
    ¬ (Stage.reading wallet order).IsOf .listing := by
  intro is
  cases order with
  | none =>
    obtain ⟨user, eq⟩ := is
    cases eq
  | some order => cases is

/-- What a listing ends with that has looked into the cache for the last time. -/
def shown (cache : RateCache) (now : Nat) : Outcome := .ok (.rates ((cache.getAll now).getD []))

/-- **How a listing comes to its end:** with what the cache shows while it may serve, or after a
refresh of its own; or else the source has failed. -/
theorem Effect.listing_ends (h : Effect s id call (some (.ending outcome)) t)
    (asks : call.request = .listing) (is : call.stage.IsOf call.request) :
    (∃ fault, s.source.answer = .error fault) ∨
      outcome = shown s.cache s.clock ∧
        (s.cache.isFresh s.clock ∨ call.stage = .serving .listing) := by
  rw [asks] at is
  -- what a look finds is what the cache shows, and then it may serve
  have finds {quest : Quest} {due : Nat} (is : quest.IsOf .listing)
      (f : quest.Finds s.cache s.clock due (.ending outcome)) :
      outcome = shown s.cache s.clock ∧ s.cache.isFresh s.clock := by
    obtain rfl := Quest.eq_listing is
    cases f with
    | listing held =>
      rw [shown, held]
      exact ⟨rfl, RateCache.isFresh_of_getAll held⟩
  generalize hstage : some (Stage.ending outcome) = next at h
  cases h with
  | found at_ f | foundLate at_ _ f =>
    obtain rfl := Option.some.inj hstage
    rw [at_] at is
    obtain ⟨eq, fresh⟩ := finds is f
    exact .inr ⟨eq, .inl fresh⟩
  | served at_ f =>
    obtain rfl := Option.some.inj hstage
    rw [at_] at is
    obtain ⟨eq, fresh⟩ := finds is f
    exact .inr ⟨eq, .inl fresh⟩
  | unserved at_ misses =>
    rw [at_] at is
    obtain rfl := Quest.eq_listing is
    cases hstage
    have nothing : s.cache.getAll s.clock = none := Option.map_eq_none_iff.1 misses
    rw [shown, nothing]
    exact .inr ⟨rfl, .inr at_⟩
  | unanswered _ _ replies => exact .inl ⟨_, replies⟩
  -- all else ends calls of other requests
  | created _ asks' | uncreated _ asks' =>
    rw [asks] at asks'
    cases asks'
  | invalid _ asks' =>
    rw [asks] at asks'
    cases asks'
  | unlocated _ for_ =>
    rw [asks] at for_
    cases for_
  | timedOut at_ =>
    rw [at_] at is
    cases is
  | read at_ | vanished at_ =>
    rw [at_] at is
    exact absurd is Stage.not_isOf_reading
  | broken at_ | untaken at_ | rejected at_ | silent at_ =>
    rw [at_] at is
    exact absurd is Request.not_asks_listing
  | published at_ =>
    rw [at_] at is
    obtain ⟨change, row, asked, -⟩ := is
    exact absurd asked Request.not_asks_listing
  | _ => cases hstage

/-! ### Every run -/

/-- **The rates of the run are constant:** the source always answers with the table, and nobody else
writes the cache. -/
structure Constant (table : RateTable) (s t : State) (us : List State) : Prop where
  source : ∀ u ∈ us, u.source.answer = .ok table
  owned : CacheOwned s t

/-- They were so in the part of the run up to one of its moments. -/
theorem Constant.earlier (h : Constant table s t us) (k : Reaches u t) (sub : past ⊆ us) :
    Constant table s u past :=
  ⟨fun w hw => h.source w (sub hw), h.owned.earlier k⟩

/-- A cache that may serve holds the table. -/
theorem Run.snapshot_of_fresh (h : Run s t us) (start : s.Unused) (constant : Constant table s t us)
    (fresh : t.cache.isFresh now) : ∃ time, t.cache.snapshot = .take time table := by
  have eq := h.reaches.cache_eq start
  cases latest : t.latestRefresh? with
  | none =>
    rw [latest, RateCache.after] at eq
    rw [eq, RateCache.isFresh, constant.owned.empty] at fresh
    cases fresh
  | some refresh =>
    obtain ⟨time, table'⟩ := refresh
    obtain ⟨by_, hm⟩ := State.mem_of_latestRefresh? latest
    obtain rfl := h.table_eq start constant.source constant.owned hm
    refine ⟨time, ?_⟩
    rw [eq, latest]
    rfl

/-- What such a cache shows is the view of the table. -/
theorem Run.shown_eq (h : Run s t us) (start : s.Unused) (constant : Constant table s t us)
    (fresh : t.cache.isFresh t.clock) : shown t.cache t.clock = .ok (.rates table.view) := by
  obtain ⟨time, holds⟩ := h.snapshot_of_fresh start constant fresh
  rw [shown, RateCache.getD_getAll_of_take holds fresh]

/-- At a moment of the run the listing had refreshed the cache, and the time to live had passed before
it looked. -/
def Lapsed (us : List State) (id : CallId) : Prop :=
  ∃ u ∈ us, ∃ call, u.calls.get? id = some call ∧ call.stage = .serving .listing ∧
    ¬ u.cache.isFresh u.clock

/-- The outcome of a listing: the view of the table, or nothing if it has lapsed. -/
def Listed (table : RateTable) (us : List State) (id : CallId) (outcome : Outcome) : Prop :=
  outcome = .ok (.rates table.view) ∨ Lapsed us id ∧ outcome = .ok (.rates [])

theorem Listed.mono (h : Listed table past id outcome) (sub : past ⊆ us) :
    Listed table us id outcome := by
  rcases h with view | ⟨⟨u, hu, lapsed⟩, nothing⟩
  · exact .inl view
  · exact .inr ⟨⟨u, sub hu, lapsed⟩, nothing⟩

/-- A listing that is about to end has its outcome. -/
theorem Run.listed_of_ending (h : Run s t us) (start : s.Unused) (constant : Constant table s t us)
    (live : t.calls.get? id = some call) (asks : call.request = .listing)
    (ends : call.stage = .ending outcome) : Listed table us id outcome := by
  refine h.calls_invariant start (Q := fun us u id call => Constant table s u us →
    call.request = .listing → ∀ outcome, call.stage = .ending outcome →
      Listed table us id outcome) ?_ ?_ ?_ live constant asks outcome ends
  · intro us u id request drawn _ _ _ _ outcome ends
    cases ends
  · intro us u v id call _ step _ sofar constant asks outcome ends
    have more : us ⊆ v :: us := List.subset_cons_self v us
    exact (sofar (constant.earlier (.single step) more) asks outcome ends).mono more
  · intro us u v id call stage run step live _ effect constant asks outcome ends
    have more : us ⊆ v :: us := List.subset_cons_self v us
    have before := constant.earlier (.single step) more
    obtain rfl : stage = .ending outcome := ends
    rcases effect.listing_ends asks (run.reaches.isOf start live) with ⟨fault, fails⟩ | ⟨rfl, look⟩
    · cases fails.symm.trans (before.source u run.mem_self)
    by_cases fresh : u.cache.isFresh u.clock
    · exact .inl (run.shown_eq start before fresh)
    · -- without the cache nothing is shown, and only a look after a refresh puts up with that
      have serving := look.resolve_left fresh
      refine .inr ⟨⟨u, more run.mem_self, call, live, serving, fresh⟩, ?_⟩
      rw [shown, RateCache.getAll_of_not_fresh fresh]
      rfl

/-- **Every listing ends with the view of the table,** unless it has lapsed. -/
theorem Run.listed (h : Run s t us) (start : s.Unused) (constant : Constant table s t us)
    (asked : .arrived id .listing ∈ t.history) (ended : .ended id outcome ∈ t.history) :
    Listed table us id outcome := by
  obtain ⟨past, u, call, passes, live, ends, -⟩ := h.ended start ended
  have asks := h.reaches.request_eq start asked passes.before.reaches live passes.later
  have within : past ⊆ us := fun w hw => passes.suffix.subset (List.mem_cons_of_mem _ hw)
  exact (passes.before.listed_of_ending start (constant.earlier passes.later within) live asks.symm
    ends).mono within

/-! ### A listing alone -/

/-- The turns of a listing that has the service to itself: it misses, asks the source, waits for the
answer, refreshes the cache and ends. -/
def firstListing (id : CallId) (drawn : Uuid) (delay : Nat) : List Turn :=
  .outside (.arrive id .listing drawn) :: .call id :: .call id :: .call id ::
    .outside (.tick delay) :: .call id :: .call id :: .call id :: [.call id]

theorem State.serve_listing (s : State) (id : CallId) :
    s.serve id .listing = (s.endRefresh id).goto id (.ending (shown s.cache s.clock)) :=
  congrArg ((s.endRefresh id).goto id) (Quest.found?_listing_getD s.cache s.clock s.storeDue)

theorem State.follow?_arrive {request : Request} (new : s.isTaken id = false) (turns : List Turn) :
    s.follow? (.outside (.arrive id request drawn) :: turns) =
      (s.arrive id request drawn).follow? turns := by
  have moves : s.turn? (.outside (.arrive id request drawn)) = some (s.arrive id request drawn) := by
    rw [turn?, new]
    rfl
  rw [follow?, moves, Option.bind_some]

/-- A listing that has the answer of the source, and goes on at once, ends with the view of it. -/
theorem State.follow?_of_refreshing (live : s.calls.get? id = some call)
    (at_ : call.stage = .refreshing .listing table) :
    ∃ t, s.follow? [.call id, .call id, .call id] = some t ∧
      .ended id (.ok (.rates table.view)) ∈ t.history := by
  let u := (s.refreshCache (some id) table).goto id (.serving .listing)
  let v := (u.endRefresh id).goto id (.ending (.ok (.rates table.view)))
  have refreshed : Effect s id call (some (.serving .listing)) u := .refreshed at_
  have serving : u.calls.get? id = some { call with stage := .serving .listing } :=
    refreshed.calls_self live
  have holds : u.cache.snapshot = .take s.clock table := by
    show (s.refreshCache (some id) table).cache.snapshot = _
    rw [State.refreshCache_cache]
    rfl
  have fresh : u.cache.isFresh u.clock := by
    show (s.refreshCache (some id) table).cache.isFresh (s.refreshCache (some id) table).clock
    rw [State.refreshCache_cache, State.refreshCache_clock]
    exact RateCache.isFresh_refresh.2 (Nat.le_add_right ..)
  have serves : u.step? id = some v := by
    unfold State.step?
    rw [serving]
    show some (u.serve id .listing) = some v
    rw [State.serve_listing, shown, RateCache.getD_getAll_of_take holds fresh]
  have ending := State.goto_calls_self (.ending (.ok (.rates table.view)))
    (show (u.endRefresh id).calls.get? id = some { call with stage := .serving .listing } from serving)
  have finished : Effect v id { call with stage := .ending (.ok (.rates table.view)) } none
    (v.finish id (.ok (.rates table.view))) := .finished rfl
  refine ⟨v.finish id (.ok (.rates table.view)), ?_, List.mem_cons_self⟩
  rw [State.follow?_call (refreshed.step?_eq live), State.follow?_call serves,
    State.follow?_call (finished.step?_eq ending)]
  rfl

/-- **The first listing of a service is answered** with the view of the table of its source. -/
theorem follow?_firstListing (start : s.Unused) (empty : s.cache.snapshot = .none)
    (source : s.source.answer = .ok table) (id : CallId) (drawn : Uuid) :
    ∃ t, s.follow? (firstListing id drawn s.source.delay) = some t ∧
      .ended id (.ok (.rates table.view)) ∈ t.history := by
  have new : s.isTaken id = false := by
    rw [State.isTaken, start.history]
    rfl
  have nothing {now due : Nat} : Quest.listing.found? s.cache now due = none :=
    Quest.found?_of_not_refreshed empty
  -- it misses, and gets the refresh lock, which nobody holds
  let s₁ := s.arrive id .listing drawn
  let s₂ := s₁.goto id (.consulting .listing)
  let s₃ := { s₂ with refreshLock := s₂.refreshLock.request id }.goto id (.awaitingRefresh .listing)
  have live₁ : s₁.calls.get? id = some ⟨.listing, drawn, .arrived⟩ := State.arrive_calls_self ..
  have sought : Effect s₁ id ⟨.listing, drawn, .arrived⟩ (some (.consulting .listing)) s₂ :=
    .sought rfl rfl
  have live₂ := sought.calls_self live₁
  have missed : Effect s₂ id ⟨.listing, drawn, .consulting .listing⟩
    (some (.awaitingRefresh .listing)) s₃ := .missed rfl nothing
  have live₃ := missed.calls_self live₂
  have turn : s₃.refreshLock.holder = some id := by
    show (s.refreshLock.request id).holder = some id
    rw [start.refreshLock]
    rfl
  -- it asks the source, and has the answer when that is due
  let s₄ := (s₃.record (.fetchStarted id s₃.clock)).goto id
    (.fetching .listing (s₃.clock + s₃.source.delay))
  let s₅ := s₄.move (.tick s.source.delay)
  have asked : Effect s₃ id ⟨.listing, drawn, .awaitingRefresh .listing⟩ (some _) s₄ :=
    .asked rfl turn nothing
  have live₄ := asked.calls_self live₃
  have answered : Effect s₅ id ⟨.listing, drawn, .fetching .listing _⟩ (some _)
    (s₅.goto id (.refreshing .listing table)) := .answered rfl (Nat.le_refl _) source
  obtain ⟨t, rest, ended⟩ := State.follow?_of_refreshing (answered.calls_self live₄) rfl
  refine ⟨t, ?_, ended⟩
  rw [firstListing, State.follow?_arrive new, State.follow?_call (sought.step?_eq live₁),
    State.follow?_call (missed.step?_eq live₂), State.follow?_call (asked.step?_eq live₃)]
  show s₅.follow? _ = _
  rw [State.follow?_call (answered.step?_eq live₄)]
  exact rest

end Service

/-! ### A caller who has the service to himself -/

namespace DatabaseService

/-- The service over a database lists the table of its settings, if its rates come from there. -/
theorem serve_listing {c : Settings} (fixed : c.rates.source = .fixed) (db : Database) (now : Nat)
    (time : Timestamp) (drawn : Uuid) :
    ((serve now time drawn .listing).run (start c db)).run.1 = .ok (.rates c.rates.table.view) := by
  have source : (start c db).fixed = some c.fixedRates := by rw [start, fixed]
  exact congrArg Prod.fst <|
    run_serve_listing (run_fetch_of_fixed source) (RateCache.getAll_of_not_refreshed rfl) time drawn

end DatabaseService

/-! ### The listings of settings -/

namespace Settings

variable {c : Settings} {rs : List ExchangeRate}

/-- The program lists the table of the settings without the service. -/
theorem fixedListing?_eq (fixed : c.rates.source = .fixed) :
    Command.fixedListing? c (.ask .listing) = some c.rates.table.view := by
  have listing : ((c.rateCache.refresh 0 c.fixedRates.getAll).getAll 0).getD [] =
      c.rates.table.view :=
    RateCache.getD_getAll_of_take rfl (RateCache.isFresh_refresh.2 (Nat.zero_le _))
  rw [Command.fixedListing?, if_pos fixed, listing]

/-- **These rates are listed in every way:** printed without the service, and answered by it. -/
structure ListsAlike (c : Settings) (rs : List ExchangeRate) : Prop where
  /-- They are the listing of the table. -/
  lists : c.rates.table.Lists rs
  /-- The program prints them without a database, if its rates come from the table. -/
  printed : c.rates.source = .fixed → ∀ surroundings,
    Command.run c surroundings (.ask .listing) = (.success (Command.ratesText rs), none)
  /-- A caller who has a service over a database to himself gets them. -/
  alone : c.rates.source = .fixed → ∀ db now time drawn,
    ((DatabaseService.serve now time drawn .listing).run (.start c db)).run.1 = .ok (.rates rs)
  /-- There is a service on the settings, up to the greatest number of permits, and it answers its
  first listing with them. -/
  first : c.gate.maxInFlight ≤ Gate.maxPermits → ∀ origin conditions delay sink id drawn,
    ∃ s t, Service.State.ofSettings? c origin conditions delay sink = some s ∧
      s.follow? (Service.firstListing id drawn delay) = some t ∧
      .ended id (.ok (.rates rs)) ∈ t.history
  /-- It answers every listing with them, whatever else is going on. Only a call that has refreshed the
  cache itself and then lets the time to live pass before it looks is answered with nothing. -/
  every : ∀ {origin conditions delay sink s t us id outcome},
    Service.State.ofSettings? c origin conditions delay sink = some s → Service.Run s t us →
    Service.Constant c.rates.table s t us → .arrived id .listing ∈ t.history →
    .ended id outcome ∈ t.history →
    outcome = .ok (.rates rs) ∨ Service.Lapsed us id ∧ outcome = .ok (.rates [])

/-- A service on settings was not called yet, has nothing in its cache and serves the table. -/
theorem of_ofSettings? {origin : Timestamp} {conditions : Service.StoreConditions} {delay : Nat}
    {sink : Service.Sink} {s : Service.State}
    (made : Service.State.ofSettings? c origin conditions delay sink = some s) :
    s.Unused ∧ s.cache.snapshot = .none ∧ s.source = ⟨c.rates.table, none, delay⟩ := by
  obtain ⟨gate, hg, rfl⟩ := Option.map_eq_some_iff.1 made
  exact ⟨Service.State.unused_initial hg, rfl, rfl⟩

/-- **All listings of checked settings are alike.** -/
theorem listsAlike (accepted : c.Accepted) : c.ListsAlike c.rates.table.view where
  lists := RateTable.lists_view accepted.isChecked.usable
  printed fixed surroundings := by
    rw [Command.run, fixedListing?_eq fixed]
  alone fixed db now time drawn := DatabaseService.serve_listing fixed db now time drawn
  first le origin conditions delay sink id drawn := by
    have made := accepted.isChecked.ofSettings?_eq le origin conditions delay sink
    obtain ⟨unused, empty, source⟩ := of_ofSettings? made
    obtain ⟨t, follows, ended⟩ := Service.follow?_firstListing unused empty
      (show _ = Except.ok c.rates.table by rw [source]; rfl) id drawn
    exact ⟨_, t, made, follows, ended⟩
  every made run constant asked ended := run.listed (of_ofSettings? made).1 constant asked ended

/-- Settings whose table gives USD in RUB twice, and out of order. -/
def doubled : Settings :=
  { rates := {
      source := .fixed
      table := [⟨⟨.eur, .rub⟩, 98.0⟩, ⟨⟨.usd, .rub⟩, 90.0⟩, ⟨⟨.usd, .rub⟩, 91.5⟩] } }

/-- The later of the two is listed, before the rate of EUR. -/
theorem listsAlike_doubled :
    doubled.fault? = none ∧ doubled.ListsAlike [⟨⟨.usd, .rub⟩, 91.5⟩, ⟨⟨.eur, .rub⟩, 98.0⟩] := by
  have passed : doubled.fault? = none := by decide
  exact ⟨passed, listsAlike (.checked passed)⟩

/-- **There is not a first listing for all settings that pass the check,** although the program lists
the rates of all that use their table. -/
theorem not_forall_listed :
    ¬ ∀ c : Settings, c.Accepted → ∀ rs, Command.fixedListing? c (.ask .listing) = some rs →
      ∀ origin conditions delay sink id drawn, ∃ s t,
        Service.State.ofSettings? c origin conditions delay sink = some s ∧
          s.follow? (Service.firstListing id drawn delay) = some t ∧
          .ended id (.ok (.rates rs)) ∈ t.history := by
  intro all
  obtain ⟨s, -, made, -⟩ := all oversized (.checked oversized_checked) _ (fixedListing?_eq rfl)
    .epoch ⟨0, none⟩ 0 .accepting 0 (.ofNat 0)
  rw [Service.State.ofSettings?, gate?_eq_none (Nat.lt_succ_self _), Option.map_none] at made
  cases made

end Settings

end Purse
