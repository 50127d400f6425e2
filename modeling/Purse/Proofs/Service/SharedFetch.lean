import Purse.Proofs.Service.Staleness
import Purse.Proofs.Service.Waiting

/-!
# Misses share one fetch

The source is asked by the one call that holds the refresh lock, so no two fetches are ever in
flight together (`Reaches.eq_of_fetching`). Whoever waits for the lock meanwhile looks into the
cache again when its turn comes. If the source is `Steady`, that is if it always answers with one
table that has something for everybody, then from a refresh until the end of the time to live nobody
finds the cache wanting (`Run.found?_of_refreshed`), and nobody asks the source (`Run.lt_of_asks`).

So calls that missed together share the first fetch. Until it is over its call keeps the lock
(`Reaches.holder_until_refreshed`), and before it nobody had a reason not to ask: each look under
the lock is the one that asks, or it finds the rates of the table (`FetchShared`).
-/

namespace Purse.Service

variable {s t u v w : State} {us past : List State} {id f : CallId} {call : Call}
  {next : Option Stage} {stage : Stage} {quest : Quest} {by_ : Option CallId} {time now due : Nat}
  {table table' : RateTable} {c : RateCache}

/-! ### What a table has for a quest -/

namespace Quest

/-- Where a call goes that finds the rates of the table. -/
def served? (quest : Quest) (table : RateTable) (due : Nat) : Option Stage :=
  match quest with
  | .listing => some (.ending (.ok (.rates table.view)))
  | .quote pair => (table.quote pair).map fun x => .ending (.ok (.rate x))
  | .exchange wallet pair debit amount =>
    (table.quote pair).map fun x => exchangeAt wallet pair debit amount x due

theorem isSome_served? (covered : ∀ pair, quest.pair? = some pair → table.Covers pair) :
    (quest.served? table due).isSome := by
  cases quest with
  | listing => rfl
  | quote pair | exchange wallet pair debit amount =>
    have quoted := (covered pair rfl).isSome_quote
    rwa [served?, Option.isSome_map]

/-- A look into the cache finds the rates of the table that it was refreshed with, up to the end of
its time. -/
theorem found?_refresh (usable : ∃ r ∈ table, r.isUsable) (inTime : now ≤ time + c.ttl) :
    quest.found? (c.refresh time table) now due = quest.served? table due := by
  cases quest with
  | listing =>
    rw [found?, RateCache.getAll_refresh usable, if_pos inTime]
    rfl
  | quote pair | exchange wallet pair debit amount =>
    rw [found?, RateCache.get_refresh, if_pos inTime]
    rfl

/-- A look into a cache that was never refreshed finds nothing. -/
theorem found?_of_not_refreshed (empty : c.snapshot = .none) : quest.found? c now due = none := by
  cases quest with
  | listing =>
    rw [found?, RateCache.getAll_of_not_refreshed empty]
    rfl
  | quote pair | exchange wallet pair debit amount =>
    rw [found?, RateCache.get_of_not_refreshed empty]
    rfl

end Quest

/-! ### A steady source -/

/-- **The source is steady** in the run: it always answers with the same table, which has something
usable, and a rate for each pair that is asked for; and nobody else writes the cache. -/
structure Steady (table : RateTable) (s t : State) (us : List State) : Prop where
  usable : ∃ r ∈ table, r.isUsable
  source : ∀ u ∈ us, u.source.answer = .ok table
  owned : CacheOwned s t
  covered : ∀ {id r pair}, .arrived id r ∈ t.history → r.pair? = some pair → table.Covers pair

namespace Run

/-- The cache is refreshed with the table of the source, and with no other, if the source always
answers with it. -/
theorem table_eq (h : Run s t us) (start : s.Unused)
    (source : ∀ u ∈ us, u.source.answer = .ok table) (owned : CacheOwned s t)
    (hm : .refreshed by_ time table' ∈ t.history) : table' = table := by
  cases by_ with
  | none => exact absurd hm (owned.inside time table')
  | some id =>
    obtain ⟨u, v, inside, -, answers, -⟩ := h.answered_of_refreshed start hm
    have hu : u ∈ us := inside.subset (List.mem_cons_of_mem v List.mem_cons_self)
    cases answers.symm.trans (source u hu)
    rfl

/-- **After a refresh every look finds the rates of the table,** up to the end of its time. -/
theorem found?_of_refreshed (h : Run s t us) (start : s.Unused) (steady : Steady table s t us)
    (hu : u ∈ us) (hm : .refreshed by_ time table' ∈ u.history)
    (inTime : u.clock ≤ time + s.cache.ttl) :
    quest.found? u.cache u.clock due = quest.served? table due := by
  have reach := h.reaches_of_mem hu
  obtain ⟨latest, table'', eq, le, -⟩ := reach.le_latestRefresh start hm
  obtain ⟨by', hm'⟩ := State.mem_of_latestRefresh? eq
  obtain rfl := h.table_eq start steady.source steady.owned
    ((h.reaches_from_mem hu).mem_history hm')
  rw [reach.cache_eq start, eq, RateCache.after]
  exact Quest.found?_refresh steady.usable (by omega)

/-- The table has a rate for whatever a call looks for. -/
theorem isSome_served? (h : Run s t us) (start : s.Unused) (steady : Steady table s t us)
    (hu : u ∈ us) (live : u.calls.get? id = some call) (looks : call.stage.looks? = some quest) :
    (quest.served? table due).isSome := by
  have reach := h.reaches_of_mem hu
  have told := (reach.recorded start id).arrived_of_live live
  have of_ := Quest.isOf_of_looks (reach.isOf start live) looks
  exact Quest.isSome_served? fun pair wants =>
    steady.covered ((h.reaches_from_mem hu).mem_history told) (of_.pair? wants)

/-- **After a refresh nobody asks the source** until its time has passed. -/
theorem lt_of_asks (h : Run s t us) (start : s.Unused) (steady : Steady table s t us) (hu : u ∈ us)
    (asks : Asks id call quest u v) (hm : .refreshed by_ time table' ∈ u.history) :
    time + s.cache.ttl < u.clock := by
  by_contra inTime
  have served : (quest.served? table u.storeDue).isSome :=
    h.isSome_served? start steady hu asks.live (by rw [asks.at_]; rfl)
  have finds : quest.found? u.cache u.clock u.storeDue = quest.served? table u.storeDue :=
    h.found?_of_refreshed start steady hu hm (Nat.le_of_not_lt inTime)
  rw [← finds, asks.misses] at served
  cases served

end Run

/-! ### One fetch at a time -/

namespace Reaches

/-- **No two fetches are in flight together.** -/
theorem eq_of_fetching {j : CallId} {call' : Call} {quest' : Quest} {due' : Nat} (h : Reaches s t)
    (start : s.Unused) (live : t.calls.get? id = some call) (at_ : call.stage = .fetching quest due)
    (live' : t.calls.get? j = some call') (at' : call'.stage = .fetching quest' due') : id = j := by
  have one := h.holder_of_lock start live (by rw [at_]; rfl)
  have other := h.holder_of_lock start live' (by rw [at']; rfl)
  exact Option.some.inj (one.symm.trans other)

/-- **Until it has refreshed the cache the call that fetches keeps the refresh lock,** and stands
where it fetches or where it has the answer. -/
theorem holder_until_refreshed (h : Reaches s u) (start : s.Unused) (asks : Asks f call quest u v)
    (step : Step u v) (k : Reaches v w) (k' : Reaches w t)
    (was : .refreshed (some f) time table ∉ w.history)
    (is : .refreshed (some f) time table ∈ t.history) :
    w.refreshLock.holder = some f ∧ ∃ call, w.calls.get? f = some call ∧
      6 ≤ call.stage.ahead ∧ call.stage.ahead ≤ 7 := by
  have told := (h.recorded start f).arrived_of_live asks.live
  have toldV := (Reaches.single step).mem_history told
  -- it is in progress at `w`, since it refreshes the cache later
  obtain ⟨ws, run⟩ := k'.exists_run
  obtain ⟨before, p, q, passes, hp, hq⟩ := run.happened was is
  obtain ⟨refreshes, -⟩ := passes.step.refreshes_of_mem hp hq
  obtain ⟨later, quest', live, at_⟩ := refreshes.source f rfl
  obtain ⟨now_, live', -, ge⟩ := passes.before.reaches.earlier (k.mem_history toldV) live
  -- and it has asked before, so it is where it fetches or a step further
  obtain ⟨first, live'', -, le⟩ := k.earlier toldV live'
  obtain rfl := Option.some.inj (asks.after.symm.trans live'')
  rw [at_] at ge
  have ge : 6 ≤ now_.stage.ahead := ge
  have le : now_.stage.ahead ≤ 7 := le
  refine ⟨?_, now_, live', ge, le⟩
  have reach := (h.tail step).trans k
  refine reach.holder_of_lock start live' ?_
  generalize now_.stage = stage at ge le
  cases stage with
  | fetching | refreshing => rfl
  | _ => simp [Stage.ahead] at ge le

end Reaches

/-! ### The number of fetches -/

theorem Step.fetches_le (h : Step s t) : s.fetches ≤ t.fetches := by
  rcases h.asks_or with ⟨id, call, quest, asks⟩ | adds
  · rw [asks.fetches_eq]
    exact Nat.le_succ _
  · exact Nat.le_of_eq adds.fetches_eq.symm

theorem Reaches.fetches_le (h : Reaches s t) : s.fetches ≤ t.fetches :=
  h.invariant (P := fun u => s.fetches ≤ u.fetches) (Nat.le_refl _) fun _ _ _ sofar step =>
    Nat.le_trans sofar step.fetches_le

/-- Only by asking the source a call gets to where it keeps the refresh lock. -/
theorem Effect.lock_or_asked (h : Effect s id call (some stage) t)
    (has : stage.refreshShare = .lock) :
    call.stage.refreshShare = .lock ∨ ∃ quest, call.stage = .awaitingRefresh quest ∧
      t.fetches = s.fetches + 1 := by
  cases h with
  | asked at_ => exact .inr ⟨_, at_, List.countP_cons_of_pos rfl⟩
  | answered at_ | refreshed at_ => exact .inl (by rw [at_]; rfl)
  | found _ finds | foundLate _ _ finds | served _ finds => cases finds.refreshShare.symm.trans has
  | read => cases State.refreshShare_afterRead.symm.trans has
  | unserved => cases has
  | _ => cases has

/-- Who keeps the refresh lock has asked the source. -/
theorem Reaches.fetches_pos_of_lock (h : Reaches s t) (start : s.Unused)
    (live : t.calls.get? id = some call) (has : call.stage.refreshShare = .lock) :
    0 < t.fetches := by
  refine h.calls_invariant start (Q := fun u _ call => call.stage.refreshShare = .lock →
    0 < u.fetches) ?_ ?_ ?_ live has
  · intro u id request drawn _ _ has
    cases has
  · intro u v id call _ step _ sofar has
    exact Nat.lt_of_lt_of_le (sofar has) step.fetches_le
  · intro u v id call stage _ step _ sofar effect has
    rcases effect.lock_or_asked has with before | ⟨quest, -, more⟩
    · exact Nat.lt_of_lt_of_le (sofar before) step.fetches_le
    · rw [more]
      exact Nat.succ_pos _

/-- As long as nobody has asked the source, nobody has refreshed the cache. -/
theorem Reaches.latestRefresh?_eq_none (h : Reaches s t) (start : s.Unused)
    (owned : CacheOwned s t) (none_ : t.fetches = 0) : t.latestRefresh? = none := by
  cases latest : t.latestRefresh? with
  | none => rfl
  | some refresh =>
    obtain ⟨time, table⟩ := refresh
    obtain ⟨by_, hm⟩ := State.mem_of_latestRefresh? latest
    cases by_ with
    | none => exact absurd hm (owned.inside time table)
    | some id =>
      obtain ⟨us, run⟩ := h.exists_run
      obtain ⟨past, u, v, passes, was, is⟩ := run.happened (by simp [start.history]) hm
      obtain ⟨refreshes, -⟩ := passes.step.refreshes_of_mem was is
      obtain ⟨call, quest, live, at_⟩ := refreshes.source id rfl
      have pos := passes.before.reaches.fetches_pos_of_lock start live (by rw [at_]; rfl)
      have le := passes.later.fetches_le
      omega

/-! ### The first fetch -/

/-- **The first fetch of the run:** in the step from `u` the call asks the source, which nobody did
before, and at the given time it refreshes the cache with the answer. -/
structure FirstFetch (s t : State) (us : List State) (f : CallId) (u : State) (time : Nat) :
    Prop where
  asks : ∃ past v call quest, Passes s t us past u v ∧ Asks f call quest u v
  first : u.fetches = 0
  refreshes : ∃ table, .refreshed (some f) time table ∈ t.history

namespace Run

/-- **The first fetch is the only one** up to the end of the time to live after its refresh. -/
theorem fetches_eq_one (h : Run s t us) (start : s.Unused) (steady : Steady table s t us)
    (fetch : FirstFetch s t us f u time) (inTime : t.clock ≤ time + s.cache.ttl) :
    t.fetches = 1 := by
  obtain ⟨past, v, call, quest, passes, asks⟩ := fetch.asks
  obtain ⟨table', hm⟩ := fetch.refreshes
  have one : v.fetches = 1 := by rw [asks.fetches_eq, fetch.first]
  refine h.invariant_after (P := fun w => w.fetches = 1) passes one
    fun {ws w x} inner mid sofar => ?_
  rcases inner.step.asks_or with ⟨j, call', quest', asks'⟩ | adds
  · exfalso
    by_cases refreshed : .refreshed (some f) time table' ∈ w.history
    · -- after the refresh the next fetch is too late
      have late := h.lt_of_asks start steady inner.mem asks' refreshed
      have passed := inner.later.clock_le
      omega
    · -- and before it the lock is taken
      obtain ⟨holds, there, live, -, le⟩ := passes.before.reaches.holder_until_refreshed start asks
        passes.step mid inner.later refreshed hm
      obtain rfl := Option.some.inj (holds.symm.trans asks'.turn)
      obtain rfl := Option.some.inj (live.symm.trans asks'.live)
      rw [asks'.at_] at le
      exact absurd le (by simp [Stage.ahead])
  · rw [adds.fetches_eq, sofar]

end Run

/-- What a call looks for under the refresh lock in its next step. -/
def Stage.looksLocked? : Stage → Option Quest
  | .awaitingRefresh quest | .serving quest => some quest
  | _ => none

theorem Stage.looks?_of_locked (h : stage.looksLocked? = some quest) :
    stage.looks? = some quest := by
  cases stage <;> cases h <;> rfl

/-- **A look into the cache** leads on by what it finds. If it finds nothing the call asks for the
refresh lock, or it asks the source, or it ends. -/
theorem Effect.of_looks (h : Effect s id call next t) (looks : call.stage.looks? = some quest) :
    (∃ stage, next = some stage ∧ quest.found? s.cache s.clock s.storeDue = some stage) ∨
      quest.found? s.cache s.clock s.storeDue = none ∧
        (call.stage = .consulting quest ∨
          call.stage = .awaitingRefresh quest ∧ t.fetches = s.fetches + 1 ∨
          call.stage = .serving quest) := by
  cases h with
  | found at_ finds | foundLate at_ _ finds | served at_ finds =>
    rw [at_] at looks
    obtain rfl := Option.some.inj looks
    exact .inl ⟨_, rfl, Quest.found?_of_finds finds⟩
  | missed at_ misses =>
    rw [at_] at looks
    obtain rfl := Option.some.inj looks
    exact .inr ⟨misses, .inl at_⟩
  | asked at_ _ misses =>
    rw [at_] at looks
    obtain rfl := Option.some.inj looks
    exact .inr ⟨misses, .inr (.inl ⟨at_, List.countP_cons_of_pos rfl⟩)⟩
  | unserved at_ misses =>
    rw [at_] at looks
    obtain rfl := Option.some.inj looks
    exact .inr ⟨misses, .inr (.inr at_)⟩
  | created at_ | uncreated at_ | viewed at_ | sought at_ | invalid at_ | queued at_ | admitted at_
  | timedOut at_ | located at_ | unlocated at_ | read at_ | vanished at_ | answered at_
  | unanswered at_ | refreshed at_ | broken at_ | taken at_ | untaken at_ | committed at_
  | rejected at_ | silent at_ | announced at_ | published at_ | finished at_ =>
    rw [at_] at looks
    cases looks

/-- Who looks under the refresh lock holds it. -/
theorem Reaches.turn_of_looksLocked (h : Reaches s t) (start : s.Unused)
    (live : t.calls.get? id = some call) (moves : t.step? id = some u)
    (looks : call.stage.looksLocked? = some quest) : t.refreshLock.holder = some id := by
  cases at_ : call.stage with
  | serving => exact h.holder_of_lock start live (by rw [at_]; rfl)
  | awaitingRefresh =>
    -- without the lock the call would wait
    by_contra waits
    simp [State.step?, live, at_, State.recheck?, waits] at moves
  | _ =>
    rw [at_] at looks
    cases looks

namespace Passes

/-- Before anybody has asked the source, a look under the refresh lock is the one that asks. -/
theorem fetches_of_looksLocked (passes : Passes s t us past u v) (start : s.Unused)
    (owned : CacheOwned s t) (none_ : u.fetches = 0)
    (live : u.calls.get? id = some call) (effect : Effect u id call next v)
    (looks : call.stage.looksLocked? = some quest) : v.fetches = 1 := by
  have reach := passes.before.reaches
  have never := reach.latestRefresh?_eq_none start (owned.earlier passes.later) none_
  have misses : quest.found? u.cache u.clock u.storeDue = none := by
    rw [reach.cache_eq start, never]
    exact Quest.found?_of_not_refreshed owned.empty
  rcases effect.of_looks (Stage.looks?_of_locked looks) with
    ⟨stage, -, finds⟩ | ⟨-, at_ | asks | at_⟩
  · cases misses.symm.trans finds
  · rw [at_] at looks
    cases looks
  · rw [asks.2, none_]
  · -- who is past its fetch has asked
    have pos := reach.fetches_pos_of_lock start live (by rw [at_]; rfl)
    omega

/-- **Each look under the refresh lock** is the one that starts the first fetch, or it comes after
the refresh. -/
theorem refreshed_of_looksLocked {p q : State} (passes : Passes s t us past p q)
    (start : s.Unused) (owned : CacheOwned s t) (fetch : FirstFetch s t us f u time)
    (live : p.calls.get? id = some call) (effect : Effect p id call next q)
    (looks : call.stage.looksLocked? = some quest) :
    (p = u ∧ id = f) ∨ ∃ table, .refreshed (some f) time table ∈ p.history := by
  obtain ⟨past', v, call', quest', passes', asks⟩ := fetch.asks
  obtain ⟨table', hm⟩ := fetch.refreshes
  have turn := passes.before.reaches.turn_of_looksLocked start live (effect.step?_eq live) looks
  by_cases refreshed : .refreshed (some f) time table' ∈ p.history
  · exact .inr ⟨table', refreshed⟩
  rcases passes'.before_or_after passes with same | after | before
  · -- the two steps are the same
    subst same
    obtain ⟨rest, rfl⟩ := passes.before.eq_cons
    obtain ⟨rest', eq⟩ := passes'.before.eq_cons
    obtain ⟨rfl, -⟩ := List.cons.inj eq
    exact .inl ⟨rfl, Option.some.inj (turn.symm.trans asks.turn)⟩
  · -- between the fetch and its refresh the lock is with the call that fetches
    obtain ⟨holds, there, live', ge, le⟩ := passes'.before.reaches.holder_until_refreshed start asks
      passes'.step after passes.later refreshed hm
    obtain rfl := Option.some.inj (holds.symm.trans turn)
    obtain rfl := Option.some.inj (live'.symm.trans live)
    generalize there.stage = stage at ge le looks
    cases stage with
    | awaitingRefresh => simp [Stage.ahead] at le
    | serving => simp [Stage.ahead] at ge
    | _ => cases looks
  · -- before the first fetch there is no other
    have none_ : q.fetches = 0 := Nat.le_zero.1 (fetch.first ▸ before.fetches_le)
    have still : p.fetches = 0 := Nat.le_zero.1 (none_ ▸ passes.step.fetches_le)
    have one := passes.fetches_of_looksLocked start owned still live effect looks
    omega

end Passes

/-! ### All together -/

/-- **Misses share one fetch** in the run from `s` to `t`, whose source answers with the table. -/
structure FetchShared (table : RateTable) (s t : State) (us : List State) : Prop where
  /-- At most one fetch is in flight. -/
  single : ∀ {id j call call' quest quest' due due'}, t.calls.get? id = some call →
    call.stage = .fetching quest due → t.calls.get? j = some call' →
    call'.stage = .fetching quest' due' → id = j
  /-- After a refresh no fetch starts until the time to live has passed. -/
  rested : ∀ {past u v id call quest by_ time table'}, Passes s t us past u v →
    Asks id call quest u v → .refreshed by_ time table' ∈ u.history →
    time + s.cache.ttl < u.clock
  /-- Up to that time the first fetch is the only one. -/
  once : ∀ {f u time}, FirstFetch s t us f u time → t.clock ≤ time + s.cache.ttl → t.fetches = 1
  /-- Of all looks under the refresh lock up to that time, one starts the first fetch. Each other
  one, the last look of the call that fetches among them, finds the rates of the table, and with
  them the call goes on or ends. -/
  shared : ∀ {f u time past p q id call quest}, FirstFetch s t us f u time →
    Passes s t us past p q → p.step? id = some q → p.calls.get? id = some call →
    call.stage.looksLocked? = some quest → p.clock ≤ time + s.cache.ttl →
    (p = u ∧ id = f) ∨ ∃ stage, quest.served? table p.storeDue = some stage ∧
      q.calls.get? id = some { call with stage } ∧
      ∀ {outcome outcome'}, stage = .ending outcome → .ended id outcome' ∈ t.history →
        outcome' = outcome

/-- **Misses share one fetch** in every run with a steady source. -/
theorem Run.fetchShared (h : Run s t us) (start : s.Unused) (steady : Steady table s t us) :
    FetchShared table s t us where
  single := h.reaches.eq_of_fetching start
  rested passes asks hm := h.lt_of_asks start steady passes.mem asks hm
  once fetch inTime := h.fetches_eq_one start steady fetch inTime
  shared {f u time past p q id call quest} fetch passes moves live looks inTime := by
    obtain ⟨call', live', next, effect⟩ := State.step?_effect moves
    obtain rfl := Option.some.inj (live'.symm.trans live)
    rcases passes.refreshed_of_looksLocked start steady.owned fetch live effect looks with
      same | ⟨table', hm⟩
    · exact .inl same
    · have looks := Stage.looks?_of_locked looks
      have something : (quest.served? table p.storeDue).isSome :=
        h.isSome_served? start steady passes.mem live looks
      obtain ⟨stage, served⟩ := Option.isSome_iff_exists.1 something
      have finds := (h.found?_of_refreshed start steady passes.mem hm inTime).trans served
      rcases effect.of_looks looks with ⟨stage', rfl, finds'⟩ | ⟨misses, -⟩
      · obtain rfl := Option.some.inj (finds'.symm.trans finds)
        have after := effect.calls_self live
        refine .inr ⟨_, served, after, fun {outcome outcome'} at_ ended => ?_⟩
        subst at_
        have reach := passes.before.reaches.tail passes.step
        exact reach.ended_of_ending start after rfl passes.after ended
      · cases misses.symm.trans finds

/-! ### A throng of misses -/

namespace State

theorem notice_source (s : State) (ns : List Notice) : (s.notice ns).source = s.source := by
  rw [notice_eq]

theorem drop_source (s : State) (id : CallId) : (s.drop id).source = s.source := by
  unfold drop
  split <;> rfl

end State

/-- The source stays as it is, unless it is replaced. -/
theorem State.source_of_turn? {turn : Turn} (h : s.turn? turn = some t)
    (keeps : ∀ source, turn ≠ .outside (.setSource source)) : t.source = s.source := by
  cases turn with
  | call id =>
    obtain ⟨call, -, next, effect⟩ := State.step?_effect h
    exact effect.surroundings.1
  | outside m =>
    unfold State.turn? at h
    dsimp only at h
    split at h
    · split at h
      · cases h
      · obtain rfl := Option.some.inj h
        rfl
    · obtain rfl := Option.some.inj h
      cases m with
      | setSource source => exact absurd rfl (keeps source)
      | drop id => exact State.drop_source ..
      | refreshCache table => exact State.notice_source ..
      | _ => rfl

/-- Whether rates are asked for these pairs only. -/
def State.asksOnlyFor (s : State) (pairs : List CurrencyPair) : Bool :=
  s.history.all fun o => match o with
    | .arrived _ r => r.pair?.all fun pair => pair ∈ pairs
    | _ => true

theorem State.mem_of_asksOnlyFor {pairs : List CurrencyPair} {r : Request} {pair : CurrencyPair}
    (h : s.asksOnlyFor pairs) (hm : .arrived id r ∈ s.history) (wants : r.pair? = some pair) :
    pair ∈ pairs := by
  have only := List.all_eq_true.1 h _ hm
  simpa [wants] using only

/-- A table with the rate of USD in RUB. -/
def single : RateTable := [⟨⟨.usd, .rub⟩, 90.0⟩]

theorem isUsable_single : ∃ r ∈ single, r.isUsable :=
  ⟨_, List.mem_singleton_self _, by decide +kernel⟩

/-- A service for two mutations at once, with nothing in it, whose source takes a while. -/
def stocked : State :=
  .initial .epoch ⟨2, none, [], []⟩ 60000 State.defaultThreshold ⟨single, none, 5⟩ ⟨0, none⟩
    .accepting

theorem unused_stocked : stocked.Unused :=
  State.unused_initial (show Gate.create? 2 none = some ⟨2, none, [], []⟩ from rfl)

/-- A deposit of 100 USD. Then a listing, a quote in the direction of the table, one in the other
direction and an exchange all miss; the first of them fetches the rates, and all go on. -/
def thronging : List Turn :=
  let user := Uuid.ofNat 1
  let turns (id : CallId) (n : Nat) : List Turn := List.replicate n (.call id)
  .outside (.arrive 0 (.create user) (.ofNat 2)) :: turns 0 2 ++
  .outside (.arrive 1 (.deposit user "USD" 100.0) (.ofNat 3)) :: turns 1 8 ++
  .outside (.arrive 2 .listing (.ofNat 4)) :: turns 2 2 ++
  .outside (.arrive 3 (.quote ⟨.usd, .rub⟩) (.ofNat 5)) :: turns 3 2 ++
  .outside (.arrive 4 (.quote ⟨.rub, .usd⟩) (.ofNat 6)) :: turns 4 2 ++
  .outside (.arrive 5 (.exchange user "USD" "RUB" 60.0) (.ofNat 7)) :: turns 5 5 ++
  turns 2 1 ++ .outside (.tick 5) :: turns 2 4 ++ turns 3 2 ++ turns 4 2 ++ turns 5 5

set_option maxRecDepth 10000 in
theorem isSome_thronging : (stocked.follow? thronging).isSome := by decide +kernel

/-- The service after all have got their rates. -/
def thronged : State := (stocked.follow? thronging).get isSome_thronging

theorem follow?_thronging : stocked.follow? thronging = some thronged := (Option.some_get _).symm

/-- All of the throng is answered, after one fetch, and the run is one in which misses share a
fetch. -/
theorem fetchShared_thronged :
    thronged.fetches = 1 ∧
      ([3, 4, 5].map fun id => (thronged.rateOf? id).isSome) = [true, true, true] ∧
      ∃ us, Run stocked thronged us ∧ FetchShared single stocked thronged us := by
  refine ⟨by decide +kernel, by decide +kernel, ?_⟩
  -- nobody replaces the source
  have kept {turn : Turn} {w x : State} (hm : turn ∈ thronging) (moves : w.turn? turn = some x)
      (before : w.source = stocked.source) : x.source = stocked.source := by
    refine (State.source_of_turn? moves fun source eq => ?_).trans before
    subst eq
    simp [thronging] at hm
  obtain ⟨us, run, same⟩ := Run.start.exists_follow (P := fun u => u.source = stocked.source)
    (fun u hu => by rw [List.mem_singleton.1 hu]) follow?_thronging kept
  have owned : CacheOwned stocked thronged :=
    cacheOwned_of_not_isRefreshedOutside rfl (by decide +kernel)
  have only : thronged.asksOnlyFor [⟨.usd, .rub⟩, ⟨.rub, .usd⟩] := by decide +kernel
  refine ⟨us, run, run.fetchShared unused_stocked ⟨isUsable_single, fun u hu => ?_, owned, ?_⟩⟩
  · rw [same u hu]
    rfl
  · intro id r pair hm wants
    refine ⟨_, List.mem_singleton_self _, by decide +kernel, ?_⟩
    have two := State.mem_of_asksOnlyFor only hm wants
    rcases List.mem_cons.1 two with rfl | two
    · exact .inl rfl
    · obtain rfl := List.mem_singleton.1 two
      exact .inr rfl

end Purse.Service
