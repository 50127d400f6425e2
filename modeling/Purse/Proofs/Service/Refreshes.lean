import Purse.Proofs.Rate.Cache
import Purse.Proofs.Service.Stages

/-!
# Fetches and refreshes

The cache is a matter of history. What it holds is the table of the latest refresh
(`Reaches.cache_eq`), and as long as nobody else writes it that is a table which the source gave to
a call (`Run.answered_of_refreshed`). So what a look into it finds is what that table quotes, and
the table is no older than its time to live (`Reaches.quoted_of_get`).

`Step.rates` says what one step means for this: the source is asked, by a call that holds the
refresh lock and finds nothing in the cache, or the cache is refreshed, or neither. No call asks the
source twice (`Reaches.fetchesOf_le`).
-/

namespace Purse

/-- The cache after the latest refresh, given by its time and its table. -/
def RateCache.after (c : RateCache) : Option (Nat × RateTable) → RateCache
  | none => c
  | some (time, table) => c.refresh time table

namespace Service

variable {s t u v : State} {us : List State} {id : CallId} {call : Call} {next : Option Stage}
  {stage : Stage} {quest : Quest} {by_ : Option CallId} {time : Nat} {table : RateTable}
  {pair : CurrencyPair} {x : Float}

namespace Occurrence

/-- The time and the table of a refresh. -/
def refresh? : Occurrence → Option (Nat × RateTable)
  | refreshed _ time table => some (time, table)
  | _ => none

/-- The call that asked the source. -/
def fetcher? : Occurrence → Option CallId
  | fetchStarted id _ => some id
  | _ => none

/-- Whether the occurrence is about neither a fetch nor a refresh. -/
def IsApart (o : Occurrence) : Prop := o.refresh? = none ∧ o.fetcher? = none

end Occurrence

namespace State

/-- The time and the table of the latest refresh. -/
def latestRefresh? (s : State) : Option (Nat × RateTable) :=
  s.history.findSome? Occurrence.refresh?

/-- How often the call has asked the source. -/
def fetchesOf (s : State) (id : CallId) : Nat :=
  s.history.countP fun o => o.fetcher? = some id

end State

/-! ### One step -/

namespace State

@[simp] theorem notice_cache (s : State) (ns : List Notice) : (s.notice ns).cache = s.cache := by
  rw [notice_eq]

@[simp] theorem goto_cache (s : State) (id : CallId) (stage : Stage) :
    (s.goto id stage).cache = s.cache := rfl

@[simp] theorem fail_cache (s : State) (id : CallId) (change : Change) (e : WalletError) :
    (s.fail id change e).cache = s.cache := notice_cache ..

@[simp] theorem publish_cache (s : State) (id : CallId) (answer : Answer) (event : WalletEvent) :
    (s.publish id answer event).cache = s.cache := by
  rw [publish_eq]
  exact notice_cache ..

@[simp] theorem drop_cache (s : State) (id : CallId) : (s.drop id).cache = s.cache := by
  unfold drop
  split <;> rfl

theorem refreshCache_cache (s : State) (by_ : Option CallId) (table : RateTable) :
    (s.refreshCache by_ table).cache = s.cache.refresh s.clock table := notice_cache ..

end State

/-- **The source is asked** in the step from `s` to `t`, by a call that holds the refresh lock and
finds nothing in the cache. -/
structure Asks (id : CallId) (call : Call) (quest : Quest) (s t : State) : Prop where
  live : s.calls.get? id = some call
  at_ : call.stage = .awaitingRefresh quest
  turn : s.refreshLock.holder = some id
  misses : quest.found? s.cache s.clock s.storeDue = none
  after : t.calls.get? id = some { call with stage := .fetching quest (s.clock + s.source.delay) }
  cache : t.cache = s.cache
  history : t.history = .fetchStarted id s.clock :: s.history

/-- **The cache is refreshed** in the step from `s` to `t`, from outside or by a call that has the
table from the source. -/
structure Refreshes (by_ : Option CallId) (table : RateTable) (s t : State) : Prop where
  source : ∀ id, by_ = some id →
    ∃ call quest, s.calls.get? id = some call ∧ call.stage = .refreshing quest table
  cache : t.cache = s.cache.refresh s.clock table
  history : t.history = ((Notice.ofTable table).map Occurrence.noticed).reverse ++
    .refreshed by_ s.clock table :: s.history

/-- **What a step means for the rates:** the source is asked, or the cache is refreshed, or
neither. -/
inductive RateStep (s t : State) : Prop
  | asked {id : CallId} {call : Call} {quest : Quest} (asks : Asks id call quest s t)
  | refreshed {by_ : Option CallId} {table : RateTable} (refreshes : Refreshes by_ table s t)
  | apart (cache : t.cache = s.cache) (adds : Adds Occurrence.IsApart s t)

theorem Effect.rates (h : Effect s id call next t) (live : s.calls.get? id = some call) :
    RateStep s t := by
  have notices (n : Notice) : (Occurrence.noticed n).IsApart := ⟨rfl, rfl⟩
  cases h with
  | asked at_ turn misses =>
    exact .asked ⟨live, at_, turn, misses, State.goto_calls_self _ live, rfl, rfl⟩
  | @refreshed quest table at_ =>
    have refreshes : Refreshes (some id) table s
        ((s.refreshCache (some id) table).goto id (.serving quest)) := by
      refine ⟨fun j same => ?_, State.refreshCache_cache .., State.refreshCache_history ..⟩
      obtain rfl := Option.some.inj same
      exact ⟨call, quest, live, at_⟩
    exact .refreshed refreshes
  | created | read | committed | finished => exact .apart rfl (.one rfl ⟨rfl, rfl⟩)
  | published => exact .apart (State.publish_cache ..) (State.publish_adds notices ⟨rfl, rfl⟩)
  | broken | untaken | rejected => exact .apart (State.fail_cache ..) (State.fail_adds notices)
  | _ => exact .apart rfl (.nothing rfl)

theorem Step.rates (h : Step s t) : RateStep s t := by
  cases h with
  | call id moves =>
    obtain ⟨call, live, next, effect⟩ := State.step?_effect moves
    exact effect.rates live
  | arrive => exact .apart rfl (.one rfl ⟨rfl, rfl⟩)
  | outside m other =>
    cases m with
    | arrive id request drawn => exact absurd rfl (other id request drawn)
    | drop id =>
      cases live : s.calls.get? id with
      | none =>
        rw [State.move, State.drop_eq_of_gone live]
        exact .apart rfl (.nothing rfl)
      | some call => exact .apart (State.drop_cache ..) (.one (State.drop_history live) ⟨rfl, rfl⟩)
    | refreshCache table =>
      have refreshes : Refreshes none table s (s.refreshCache none table) := by
        refine ⟨fun id same => ?_, State.refreshCache_cache .., State.refreshCache_history ..⟩
        cases same
      exact .refreshed refreshes
    | _ => exact .apart rfl (.nothing rfl)

/-- **The last look of a listing** ends it with what the cache shows, or with nothing. -/
theorem Quest.found?_listing_getD (cache : RateCache) (now due : Nat) :
    (Quest.listing.found? cache now due).getD (.ending Quest.listing.missing) =
      .ending (.ok (.rates ((cache.getAll now).getD []))) := by
  unfold Quest.found?
  cases cache.getAll now with
  | none => rfl
  | some rs => rfl

/-! ### What a step adds -/

section Adds

variable (h : Adds (fun o => o.refresh? = none) s t)
include h

theorem Adds.latestRefresh?_eq : t.latestRefresh? = s.latestRefresh? := by
  obtain ⟨new, hnew, apart⟩ := h
  have none_ : new.findSome? Occurrence.refresh? = none := List.findSome?_eq_none_iff.2 apart
  rw [State.latestRefresh?, hnew, List.findSome?_append, none_, Option.none_or,
    State.latestRefresh?]

theorem Adds.refreshed_mem_iff :
    .refreshed by_ time table ∈ t.history ↔ .refreshed by_ time table ∈ s.history := by
  obtain ⟨new, hnew, apart⟩ := h
  rw [hnew, List.mem_append, or_iff_right]
  intro hm
  cases apart _ hm

end Adds

/-- What is no fetch is not counted as one. -/
theorem Adds.countP_fetcher? (h : Adds (fun o => o.fetcher? = none) s t)
    {p : Option CallId → Bool} (ignores : p none = false) :
    t.history.countP (fun o => p o.fetcher?) = s.history.countP fun o => p o.fetcher? := by
  obtain ⟨new, hnew, apart⟩ := h
  have none_ : new.countP (fun o => p o.fetcher?) = 0 := by
    refine List.countP_eq_zero.2 fun o ho counted => ?_
    rw [apart o ho, ignores] at counted
    cases counted
  rw [hnew, List.countP_append, none_, Nat.zero_add]

theorem State.fetches_eq_countP : s.fetches = s.history.countP fun o => o.fetcher?.isSome := by
  refine List.countP_congr fun o _ => ?_
  cases o <;> simp [Occurrence.fetcher?]

theorem Adds.fetches_eq (h : Adds (fun o => o.fetcher? = none) s t) : t.fetches = s.fetches := by
  rw [State.fetches_eq_countP, State.fetches_eq_countP]
  exact h.countP_fetcher? rfl

theorem Adds.fetchesOf_eq (h : Adds (fun o => o.fetcher? = none) s t) (id : CallId) :
    t.fetchesOf id = s.fetchesOf id :=
  h.countP_fetcher? (p := fun fetcher => fetcher = some id) rfl

namespace Asks

variable (h : Asks id call quest s t)
include h

theorem adds : Adds (fun o => o.refresh? = none) s t := .one h.history rfl

theorem fetches_eq : t.fetches = s.fetches + 1 := by
  rw [State.fetches, h.history, List.countP_cons_of_pos rfl, State.fetches]

theorem fetchesOf_self : t.fetchesOf id = s.fetchesOf id + 1 := by
  rw [State.fetchesOf, h.history, List.countP_cons_of_pos (by simp [Occurrence.fetcher?]),
    State.fetchesOf]

theorem fetchesOf_of_ne {j : CallId} (ne : j ≠ id) : t.fetchesOf j = s.fetchesOf j := by
  have other : ¬ id = j := fun same => ne same.symm
  rw [State.fetchesOf, h.history, List.countP_cons_of_neg (by simp [Occurrence.fetcher?, other]),
    State.fetchesOf]

end Asks

namespace Refreshes

variable (h : Refreshes by_ table s t)
include h

theorem adds : Adds (fun o => o.fetcher? = none) s t :=
  Adds.noticed (t := s.record (.refreshed by_ s.clock table)) h.history (fun _ => rfl)
    (.one rfl rfl)

theorem latestRefresh?_eq : t.latestRefresh? = some (s.clock, table) := by
  have notices : ((Notice.ofTable table).map Occurrence.noticed).reverse.findSome?
      Occurrence.refresh? = none := by
    refine List.findSome?_eq_none_iff.2 fun o ho => ?_
    obtain ⟨n, -, rfl⟩ := List.mem_map.1 (List.mem_reverse.1 ho)
    rfl
  rw [State.latestRefresh?, h.history, List.findSome?_append, notices, Option.none_or]
  rfl

/-- A refresh goes down in the history. -/
theorem not_adds : ¬ Adds (fun o => o.refresh? = none) s t := by
  rintro ⟨new, hnew, apart⟩
  have parts : new ++ s.history = (((Notice.ofTable table).map Occurrence.noticed).reverse ++
      [.refreshed by_ s.clock table]) ++ s.history := by
    rw [← hnew, h.history, List.append_assoc, List.singleton_append]
  obtain rfl := List.append_cancel_right parts
  cases apart (.refreshed by_ s.clock table) (List.mem_append_right _ (List.mem_singleton_self _))

theorem refreshed_mem_iff {by' : Option CallId} {time : Nat} {table' : RateTable} :
    .refreshed by' time table' ∈ t.history ↔
      (by' = by_ ∧ time = s.clock ∧ table' = table) ∨ .refreshed by' time table' ∈ s.history := by
  rw [h.history]
  simp

end Refreshes

/-- A step refreshes the cache, or leaves it and the refreshes of the history alone. -/
theorem Step.refreshes_or (h : Step s t) : (∃ by_ table, Refreshes by_ table s t) ∨
    t.cache = s.cache ∧ Adds (fun o => o.refresh? = none) s t := by
  cases h.rates with
  | asked asks => exact .inr ⟨asks.cache, asks.adds⟩
  | refreshed refreshes => exact .inl ⟨_, _, refreshes⟩
  | apart cache adds => exact .inr ⟨cache, adds.mono fun _ => And.left⟩

/-- In a step the source is asked, or no fetch comes into the history. -/
theorem Step.asks_or (h : Step s t) : (∃ id call quest, Asks id call quest s t) ∨
    Adds (fun o => o.fetcher? = none) s t := by
  cases h.rates with
  | asked asks => exact .inl ⟨_, _, _, asks⟩
  | refreshed refreshes => exact .inr refreshes.adds
  | apart cache adds => exact .inr (adds.mono fun _ => And.right)

/-! ### The cache and the latest refresh -/

theorem State.mem_of_latestRefresh? (h : s.latestRefresh? = some (time, table)) :
    ∃ by_, .refreshed by_ time table ∈ s.history := by
  obtain ⟨o, ho, eq⟩ := List.exists_of_findSome?_eq_some h
  cases o with
  | refreshed by_ time' table' =>
    cases eq
    exact ⟨by_, ho⟩
  | _ => cases eq

namespace Reaches

/-- **The cache holds the table of the latest refresh,** or what it held at first. -/
theorem cache_eq (h : Reaches s t) (start : s.Unused) :
    t.cache = s.cache.after t.latestRefresh? := by
  refine h.invariant (P := fun u => u.cache = s.cache.after u.latestRefresh?) ?_
    fun u v _ sofar step => ?_
  · rw [State.latestRefresh?, start.history]
    rfl
  · rcases step.refreshes_or with ⟨by_, table, refreshes⟩ | ⟨cache, adds⟩
    · -- a refresh replaces everything
      rw [refreshes.cache, refreshes.latestRefresh?_eq, sofar]
      cases u.latestRefresh? <;> rfl
    · rw [cache, adds.latestRefresh?_eq, sofar]

/-- **A cache that is not refreshed stays as it is.** -/
theorem cache_eq_of_adds (h : Reaches s t) (quiet : Adds (fun o => o.refresh? = none) s t) :
    t.cache = s.cache := by
  induction h with
  | refl => rfl
  | tail before step ih =>
    obtain ⟨sofar, now⟩ := quiet.split before.suffix_history (Reaches.single step).suffix_history
    rcases step.refreshes_or with ⟨by_, table, refreshes⟩ | ⟨cache, -⟩
    · exact absurd now refreshes.not_adds
    · rw [cache, ih sofar]

/-- No refresh is later than the latest one, and that one is over. -/
theorem le_latestRefresh (h : Reaches s t) (start : s.Unused)
    (hm : .refreshed by_ time table ∈ t.history) :
    ∃ latest table', t.latestRefresh? = some (latest, table') ∧ time ≤ latest ∧
      latest ≤ t.clock := by
  refine h.invariant (P := fun u => ∀ {by_ time table}, .refreshed by_ time table ∈ u.history →
    ∃ latest table', u.latestRefresh? = some (latest, table') ∧ time ≤ latest ∧ latest ≤ u.clock)
    (fun hm => ?_) (fun u v before sofar step => ?_) hm
  · rw [start.history] at hm
    cases hm
  · intro by_ time table hm
    have later := step.clock_le
    rcases step.refreshes_or with ⟨by', table', refreshes⟩ | ⟨-, adds⟩
    · refine ⟨u.clock, table', refreshes.latestRefresh?_eq, ?_, later⟩
      rcases refreshes.refreshed_mem_iff.1 hm with ⟨-, rfl, -⟩ | hm
      · exact Nat.le_refl _
      · obtain ⟨latest, -, -, le, passed⟩ := sofar hm
        exact Nat.le_trans le passed
    · obtain ⟨latest, table', eq, le, passed⟩ := sofar (adds.refreshed_mem_iff.1 hm)
      exact ⟨latest, table', adds.latestRefresh?_eq.trans eq, le, Nat.le_trans passed later⟩

end Reaches

/-! ### A cache of one's own -/

/-- **The service alone writes the cache** up to `t`: it is without a snapshot at first, and nobody
refreshes it from outside. -/
structure CacheOwned (s t : State) : Prop where
  empty : s.cache.snapshot = .none
  inside : ∀ time table, .refreshed none time table ∉ t.history

theorem CacheOwned.earlier (h : CacheOwned s t) (k : Reaches u t) : CacheOwned s u :=
  ⟨h.empty, fun time table hm => h.inside time table (k.mem_history hm)⟩

/-- **The rate is current:** the latest refresh was made by a call, no longer than `ttl` ago, and
with a table that quotes the rate for the pair. -/
def Quoted (ttl : Nat) (s : State) (pair : CurrencyPair) (x : Float) : Prop :=
  ∃ id time table, s.latestRefresh? = some (time, table) ∧
    .refreshed (some id) time table ∈ s.history ∧ time ≤ s.clock ∧ s.clock ≤ time + ttl ∧
    table.quote pair = some x

/-- **A rate that is found in the cache is current.** -/
theorem Reaches.quoted_of_get (h : Reaches s t) (start : s.Unused) (owned : CacheOwned s t)
    (found : t.cache.get t.clock pair = some x) : Quoted s.cache.ttl t pair x := by
  rw [h.cache_eq start] at found
  cases latest : t.latestRefresh? with
  | none =>
    rw [latest, RateCache.after, RateCache.get_of_not_refreshed owned.empty] at found
    cases found
  | some refresh =>
    obtain ⟨time, table⟩ := refresh
    obtain ⟨by_, hm⟩ := State.mem_of_latestRefresh? latest
    obtain ⟨latest', table', eq, le, passed⟩ := h.le_latestRefresh start hm
    rw [latest, RateCache.after, RateCache.get_refresh] at found
    split at found
    · next fresh =>
      cases by_ with
      | none => exact absurd hm (owned.inside time table)
      | some id =>
        cases latest.symm.trans eq
        exact ⟨id, time, table, latest, hm, passed, fresh, found⟩
    · cases found

/-! ### Where the tables come from -/

/-- The source answered the call with the table, in a step of the run through the states. -/
def Answered (us : List State) (id : CallId) (table : RateTable) : Prop :=
  ∃ u v, [v, u] <:+: us ∧ u.step? id = some v ∧ u.source.answer = .ok table ∧
    ∃ call quest due, u.calls.get? id = some call ∧ call.stage = .fetching quest due ∧ due ≤ u.clock

theorem Answered.mono {vs : List State} (h : Answered us id table) (k : us <:+: vs) :
    Answered vs id table := by
  obtain ⟨u, v, inside, rest⟩ := h
  exact ⟨u, v, inside.trans k, rest⟩

/-- A call has a table from the source only. -/
theorem Effect.answer_of_refreshing (h : Effect s id call (some (.refreshing quest table)) t) :
    s.source.answer = .ok table ∧ ∃ due, call.stage = .fetching quest due ∧ due ≤ s.clock := by
  generalize hstage : some (Stage.refreshing quest table) = stage at h
  cases h with
  | answered at_ ready replies =>
    cases hstage
    exact ⟨replies, _, at_, ready⟩
  | found _ finds | foundLate _ _ finds | served _ finds =>
    cases hstage
    cases finds
  | @read other order row =>
    have at_ := Option.some.inj hstage
    unfold State.afterRead at at_
    split at at_
    · cases at_
    · cases at_
    · cases at_
    · split at at_ <;> cases at_
  | _ => cases hstage

theorem Run.answered_of_refreshing (h : Run s t us) (start : s.Unused)
    (live : t.calls.get? id = some call) (at_ : call.stage = .refreshing quest table) :
    Answered us id table := by
  refine h.calls_invariant start (Q := fun us _ id call => ∀ quest table,
    call.stage = .refreshing quest table → Answered us id table) ?_ ?_ ?_ live _ _ at_
  · intro us u id request drawn _ _ quest table at_
    cases at_
  · intro us u v id call _ _ _ sofar quest table at_
    exact (sofar quest table at_).mono (List.suffix_cons v us).isInfix
  · intro us u v id call stage run step live _ effect quest table at_
    obtain rfl : stage = .refreshing quest table := at_
    obtain ⟨replies, due, at_, ready⟩ := effect.answer_of_refreshing
    obtain ⟨rest, rfl⟩ := run.eq_cons
    exact ⟨u, v, (List.prefix_append [v, u] rest).isInfix, effect.step?_eq live, replies, call,
      quest, due, live, at_, ready⟩

/-- In the step in which a refresh comes into the history the cache is refreshed. -/
theorem Step.refreshes_of_mem (h : Step u v) (was : .refreshed by_ time table ∉ u.history)
    (is : .refreshed by_ time table ∈ v.history) : Refreshes by_ table u v ∧ time = u.clock := by
  rcases h.refreshes_or with ⟨by', table', refreshes⟩ | ⟨-, adds⟩
  · rcases refreshes.refreshed_mem_iff.1 is with ⟨rfl, rfl, rfl⟩ | old
    · exact ⟨refreshes, rfl⟩
    · exact absurd old was
  · exact absurd (adds.refreshed_mem_iff.1 is) was

/-- **The tables come from the source:** a call that refreshed the cache had the table as an
answer. -/
theorem Run.answered_of_refreshed (h : Run s t us) (start : s.Unused)
    (hm : .refreshed (some id) time table ∈ t.history) : Answered us id table := by
  obtain ⟨past, u, v, passes, was, is⟩ := h.happened (by simp [start.history]) hm
  obtain ⟨refreshes, -⟩ := passes.step.refreshes_of_mem was is
  obtain ⟨call, quest, live, at_⟩ := refreshes.source id rfl
  have sofar := passes.before.answered_of_refreshing start live at_
  exact sofar.mono ((List.suffix_cons v past).trans passes.suffix).isInfix

/-! ### One fetch for each call -/

/-- In a step a call asks the source once more, or it does not ask. -/
theorem Step.fetchesOf (h : Step s t) (id : CallId) :
    t.fetchesOf id = s.fetchesOf id ∨
      ∃ call quest, Asks id call quest s t ∧ t.fetchesOf id = s.fetchesOf id + 1 := by
  rcases h.asks_or with ⟨j, call, quest, asks⟩ | adds
  · by_cases same : id = j
    · subst same
      exact .inr ⟨call, quest, asks, asks.fetchesOf_self⟩
    · exact .inl (asks.fetchesOf_of_ne same)
  · exact .inl (adds.fetchesOf_eq id)

/-- A name that is still free has asked for nothing. -/
theorem Recorded.fetchesOf_eq_zero (h : Recorded s id) (free : ∀ r, .arrived id r ∉ s.history) :
    s.fetchesOf id = 0 := by
  refine List.countP_eq_zero.2 fun o ho about => ?_
  have fetcher : o.fetcher? = some id := of_decide_eq_true about
  have about : o.call? = some id := by
    cases o with
    | fetchStarted => exact fetcher
    | _ => cases fetcher
  obtain ⟨r, hr⟩ := h.arrived_of_mem ho about
  exact free r hr

/-- **A call asks the source once at most,** and has not asked while it waits for the refresh
lock. -/
theorem Reaches.fetchesOf_le (h : Reaches s t) (start : s.Unused) (id : CallId) :
    t.fetchesOf id ≤ 1 ∧ ∀ {call}, t.calls.get? id = some call → 8 ≤ call.stage.ahead →
      t.fetchesOf id = 0 := by
  refine h.invariant (P := fun u => u.fetchesOf id ≤ 1 ∧ ∀ {call}, u.calls.get? id = some call →
    8 ≤ call.stage.ahead → u.fetchesOf id = 0) ⟨?_, fun live => ?_⟩ fun u v before sofar step => ?_
  · rw [State.fetchesOf, start.history]
    exact Nat.zero_le _
  · rw [start.calls] at live
    cases live
  · obtain ⟨once, first⟩ := sofar
    rcases step.fetchesOf id with same | ⟨call, quest, asks, more⟩
    · rw [same]
      refine ⟨once, fun {call} live far => ?_⟩
      cases step.seen id with
      | moved was moves effect =>
        rw [effect.calls_self was] at live
        obtain ⟨stage, rfl, rfl⟩ := Option.map_eq_some_iff.1 live
        exact first was (Nat.le_trans far (Nat.le_of_lt effect.ahead_lt))
      | arrived free => exact (before.recorded start id).fetchesOf_eq_zero free
      | dropped was eq =>
        subst eq
        rw [State.drop_calls, if_pos rfl] at live
        cases live
      | elsewhere apart => exact first (apart.calls ▸ live) far
    · -- it asks now, so it had not asked before, and goes on to a later stage
      have none_ := first asks.live (by rw [asks.at_]; exact Nat.le_refl _)
      refine ⟨by omega, fun {call'} live far => ?_⟩
      obtain rfl := Option.some.inj (asks.after.symm.trans live)
      exact absurd far (by simp [Stage.ahead])

end Service

end Purse
