import Purse.Proofs.Service.Linearization
import Purse.Proofs.Service.Refreshes

/-!
# No rate is stale

A rate is looked up once and then carried: into the answer to a quote, or through the store into the
row and the answer of an exchange. So behind every rate that is answered or applied there is a look
into the cache (`Run.lookedUp`), and what a look finds is what the table of the latest refresh
quotes, within the time to live of that refresh (`Reaches.quoted_of_get`). Nothing is said of the
source at the time of the answer: it may quote another rate by then, or be gone.

A fetch that fails ends the call that made it and changes nothing else (`State.step?_of_error`).
What the cache serves depends on the latest refresh and the time alone, so it goes on serving up to
the same deadline (`Reaches.get_of_latest`). `RatesCurrent` puts this together.
-/

namespace Purse

/-- The pair whose rate the request needs. -/
def Request.pair? : Request → Option CurrencyPair
  | quote pair => some pair
  | exchange _ sold bought amount =>
    match Order.parseExchange sold bought amount with
    | .ok (.exchange pair _) => some pair
    | _ => none
  | _ => none

theorem Request.pair?_of_order {r : Request} {pair : CurrencyPair} {debit : MinorUnits}
    (h : r.order? = some (.ok (.exchange pair debit))) : r.pair? = some pair := by
  obtain ⟨user, sold, bought, amount, rfl, -⟩ := Request.order?_eq_exchange h
  rw [pair?, Option.some.inj h]

/-- The rate that an exchange is made at. -/
def Change.rate? : Change → Option Float
  | exchange _ _ _ rate => some rate
  | _ => none

/-- The rate that an answer names. -/
def Answer.rate? : Answer → Option Float
  | rate x => some x
  | exchanged _ x _ _ => some x
  | _ => none

@[simp] theorem Change.rate?_answer {change : Change} {row : Wallet} :
    (change.answer row).rate? = change.rate? := by
  cases change <;> rfl

namespace Service

variable {s t u v : State} {us : List State} {id : CallId} {call : Call} {next : Option Stage}
  {stage : Stage} {quest : Quest} {pair : CurrencyPair} {x : Float} {r : Request}

/-! ### Where a rate comes from -/

/-- The pair whose rate is wanted. -/
def Quest.pair? : Quest → Option CurrencyPair
  | .listing => none
  | .quote pair | .exchange _ pair _ _ => some pair

namespace Stage

/-- What the call looks for in the cache in its next step. -/
def looks? : Stage → Option Quest
  | .consulting quest | .awaitingRefresh quest | .serving quest => some quest
  | _ => none

/-- The rate that the call has found and carries on. -/
def rate? : Stage → Option Float
  | .storing _ change _ | .writing _ change | .committed change _ => change.rate?
  | .publishing answer _ | .ending (.ok answer) => answer.rate?
  | _ => none

end Stage

/-- A call looks for what its request asks for. -/
theorem Quest.isOf_of_looks (h : stage.IsOf r) (looks : stage.looks? = some quest) :
    quest.IsOf r := by
  cases stage <;> cases looks <;> exact h

/-- A quest is for the pair of the request. -/
theorem Quest.IsOf.pair? (h : quest.IsOf r) (wants : quest.pair? = some pair) :
    r.pair? = some pair := by
  cases quest with
  | listing => cases wants
  | quote p =>
    cases wants
    cases r <;> cases h
    rfl
  | exchange wallet p debit amount =>
    cases wants
    exact Request.pair?_of_order h.1

/-- In the step from `u` to `v` the call looks into the cache for the rate of the pair, and finds
it. -/
structure LooksUp (id : CallId) (pair : CurrencyPair) (x : Float) (u v : State) : Prop where
  moves : u.step? id = some v
  looks : ∃ call quest, u.calls.get? id = some call ∧ call.stage.looks? = some quest ∧
    quest.pair? = some pair
  found : u.cache.get u.clock pair = some x

/-- In a step of the run through the states the call found the rate of the pair. -/
def LookedUp (us : List State) (id : CallId) (pair : CurrencyPair) (x : Float) : Prop :=
  ∃ u v, [v, u] <:+: us ∧ LooksUp id pair x u v

theorem LookedUp.mono {vs : List State} (h : LookedUp us id pair x) (k : us <:+: vs) :
    LookedUp vs id pair x := by
  obtain ⟨u, v, inside, looks⟩ := h
  exact ⟨u, v, inside.trans k, looks⟩

theorem Quest.Finds.rate {cache : RateCache} {now due : Nat} (h : quest.Finds cache now due stage)
    (carries : stage.rate? = some x) : ∃ pair, quest.pair? = some pair ∧
      cache.get now pair = some x := by
  cases h with
  | listing | unconvertible => cases carries
  | quote held | exchange held =>
    cases carries
    exact ⟨_, rfl, held⟩

theorem Quest.rate?_missing : (Stage.ending quest.missing).rate? = none := by
  cases quest <;> rfl

/-- **A rate that a call carries** it has carried before, or it has just found it in the cache. -/
theorem Effect.rate (h : Effect s id call (some stage) t) (carries : stage.rate? = some x) :
    call.stage.rate? = some x ∨ ∃ quest pair, call.stage.looks? = some quest ∧
      quest.pair? = some pair ∧ s.cache.get s.clock pair = some x := by
  cases h with
  | found at_ finds | foundLate at_ _ finds | served at_ finds =>
    obtain ⟨pair, wants, held⟩ := finds.rate carries
    exact .inr ⟨_, pair, by rw [at_]; rfl, wants, held⟩
  | taken at_ | committed at_ | published at_ =>
    rw [at_]
    exact .inl carries
  | silent at_ | announced at_ =>
    rw [at_]
    exact .inl (Change.rate?_answer.symm.trans carries)
  | unserved => cases Quest.rate?_missing.symm.trans carries
  | read =>
    -- an exchange has yet to look for its rate, and nothing else needs one
    unfold State.afterRead at carries
    split at carries
    · cases carries
    · cases carries
    · cases carries
    · split at carries <;> cases carries
  | _ => cases carries

/-- **A call that carries a rate has looked it up,** for the pair of its request. -/
theorem Run.lookedUp (h : Run s t us) (start : s.Unused) (live : t.calls.get? id = some call)
    (carries : call.stage.rate? = some x) :
    ∃ pair, call.request.pair? = some pair ∧ LookedUp us id pair x := by
  refine h.calls_invariant start (Q := fun us _ id call => ∀ x, call.stage.rate? = some x →
    ∃ pair, call.request.pair? = some pair ∧ LookedUp us id pair x) ?_ ?_ ?_ live x carries
  · intro us u id request drawn _ _ x carries
    cases carries
  · intro us u v id call _ _ _ sofar x carries
    obtain ⟨pair, asks, looked⟩ := sofar x carries
    exact ⟨pair, asks, looked.mono (List.suffix_cons v us).isInfix⟩
  · intro us u v id call stage run step live sofar effect x carries
    rcases effect.rate carries with before | ⟨quest, pair, looks, wants, found⟩
    · obtain ⟨pair, asks, looked⟩ := sofar x before
      exact ⟨pair, asks, looked.mono (List.suffix_cons v us).isInfix⟩
    · -- the call has just looked
      have of_ := Quest.isOf_of_looks (run.reaches.isOf start live) looks
      obtain ⟨rest, rfl⟩ := run.eq_cons
      exact ⟨pair, of_.pair? wants, u, v, (List.prefix_append [v, u] rest).isInfix,
        effect.step?_eq live, ⟨call, quest, live, looks, wants⟩, found⟩

/-- The rate was found in the cache in a step of the run, and was current then. -/
def FoundCurrent (s : State) (us : List State) (id : CallId) (pair : CurrencyPair) (x : Float) :
    Prop :=
  ∃ u v, [v, u] <:+: us ∧ LooksUp id pair x u v ∧ Quoted s.cache.ttl u pair x

theorem Run.foundCurrent (h : Run s t us) (start : s.Unused) (owned : CacheOwned s t)
    (looked : LookedUp us id pair x) : FoundCurrent s us id pair x := by
  obtain ⟨u, v, inside, looks⟩ := looked
  have hu : u ∈ us := inside.subset (List.mem_cons_of_mem v List.mem_cons_self)
  exact ⟨u, v, inside, looks, (h.reaches_of_mem hu).quoted_of_get start
    (owned.earlier (h.reaches_from_mem hu)) looks.found⟩

/-- A rate that was answered was looked up before. -/
theorem Run.lookedUp_of_ended (h : Run s t us) (start : s.Unused) {answer : Answer}
    (asked : .arrived id r ∈ t.history) (hm : .ended id (.ok answer) ∈ t.history)
    (names : answer.rate? = some x) : ∃ pair, r.pair? = some pair ∧ LookedUp us id pair x := by
  obtain ⟨past, u, call, passes, live, at_, -⟩ := h.ended start hm
  obtain rfl := h.reaches.request_eq start asked passes.before.reaches live passes.later
  obtain ⟨pair, asks, looked⟩ := passes.before.lookedUp start live (by rw [at_]; exact names)
  have inside : past <:+: us := ((List.suffix_cons _ past).trans passes.suffix).isInfix
  exact ⟨pair, asks, looked.mono inside⟩

/-- A rate that was applied to a row was looked up before. -/
theorem Run.lookedUp_of_committed (h : Run s t us) (start : s.Unused) {debit credit : MinorUnits}
    {row : Wallet} (hm : .committed id (.exchange pair debit credit x) row ∈ t.history) :
    LookedUp us id pair x := by
  obtain ⟨past, u, v, call, next, passes, live, moves, effect, was, is⟩ :=
    h.did start hm rfl (by simp) (by simp)
  rcases effect.committed_mem is with old | ⟨wallet, at_, -, -⟩
  · exact absurd old was
  obtain ⟨pair', asks, looked⟩ := passes.before.lookedUp start live (by rw [at_]; rfl)
  -- the pair of the change is the pair of the request
  have of_ := passes.before.reaches.isOf start live
  rw [at_] at of_
  obtain ⟨order, parsed, rfl, -⟩ := of_
  obtain rfl := Option.some.inj ((Request.pair?_of_order parsed).symm.trans asks)
  have inside : past <:+: us := ((List.suffix_cons _ past).trans passes.suffix).isInfix
  exact looked.mono inside

/-- **A rate that was answered was current** when it was looked up. -/
theorem Run.current_of_ended (h : Run s t us) (start : s.Unused) (owned : CacheOwned s t)
    {answer : Answer} (asked : .arrived id r ∈ t.history) (hm : .ended id (.ok answer) ∈ t.history)
    (names : answer.rate? = some x) :
    ∃ pair, r.pair? = some pair ∧ FoundCurrent s us id pair x := by
  obtain ⟨pair, asks, looked⟩ := h.lookedUp_of_ended start asked hm names
  exact ⟨pair, asks, h.foundCurrent start owned looked⟩

/-- **A rate that was applied to a row was current** when it was looked up. -/
theorem Run.current_of_committed (h : Run s t us) (start : s.Unused) (owned : CacheOwned s t)
    {debit credit : MinorUnits} {row : Wallet}
    (hm : .committed id (.exchange pair debit credit x) row ∈ t.history) :
    FoundCurrent s us id pair x :=
  h.foundCurrent start owned (h.lookedUp_of_committed start hm)

/-! ### Fetches that fail -/

/-- A call that gets a fault from the source ends with it, and leaves the cache alone. -/
theorem State.step?_of_error {due : Nat} {fault : PartnerFault}
    (live : s.calls.get? id = some call) (at_ : call.stage = .fetching quest due)
    (fails : s.source.answer = .error fault) (moves : s.step? id = some t) :
    t = (s.endRefresh id).goto id (.ending (.error (.partner fault))) := by
  simp only [step?, live, at_, fetch?, fails] at moves
  split at moves
  · exact (Option.some.inj moves).symm
  · cases moves

/-- **What is served depends on the latest refresh and the time alone:** a rate that is served is
served until the deadline of its refresh, or until the next one. -/
theorem Reaches.get_of_latest (h : Reaches s t) (start : s.Unused) (owned : CacheOwned s t)
    (k : Reaches t u) (same : u.latestRefresh? = t.latestRefresh?)
    (serves : t.cache.get t.clock pair = some x) :
    ∃ time table, t.latestRefresh? = some (time, table) ∧
      (u.clock ≤ time + s.cache.ttl → u.cache.get u.clock pair = some x) := by
  obtain ⟨-, time, table, latest, -, -, -, quotes⟩ := h.quoted_of_get start owned serves
  refine ⟨time, table, latest, fun inTime => ?_⟩
  rw [(h.trans k).cache_eq start, same, latest, RateCache.after, RateCache.get_refresh,
    if_pos inTime, quotes]

/-! ### All together -/

/-- **The rates of a run are current,** whatever the source answers and when. -/
structure RatesCurrent (s t : State) (us : List State) : Prop where
  /-- A rate that is answered, to a quote or to an exchange, was found in the cache for the pair of
  the request. It was then what the table of the latest refresh quoted, and that refresh was no
  longer ago than the time to live. -/
  answered : ∀ {id r answer x}, .arrived id r ∈ t.history → .ended id (.ok answer) ∈ t.history →
    answer.rate? = some x → ∃ pair, r.pair? = some pair ∧ FoundCurrent s us id pair x
  /-- So it is with a rate that was applied to a row, whether or not its caller got the answer. -/
  applied : ∀ {id pair debit credit x row},
    .committed id (.exchange pair debit credit x) row ∈ t.history → FoundCurrent s us id pair x
  /-- A refresh is made with the table that the source gave to the call. -/
  sourced : ∀ {id time table}, .refreshed (some id) time table ∈ t.history → Answered us id table
  /-- No call asks the source twice. -/
  once : ∀ id, t.fetchesOf id ≤ 1
  /-- A fetch that fails leaves the cache and its time as they are, and the call ends with the fault
  of the source. -/
  failed : ∀ {past u v id call quest due fault}, Passes s t us past u v →
    u.step? id = some v → u.calls.get? id = some call → call.stage = .fetching quest due →
    u.source.answer = .error fault →
    v.cache = u.cache ∧ v.latestRefresh? = u.latestRefresh? ∧
      v.calls.get? id = some { call with stage := .ending (.error (.partner fault)) } ∧
      ∀ outcome, .ended id outcome ∈ t.history → outcome = .error (.partner fault)
  /-- A rate that the cache serves it serves until the deadline of the latest refresh, as long as
  there is no other. -/
  lasting : ∀ {u v pair x}, u ∈ us → Reaches u v → v.latestRefresh? = u.latestRefresh? →
    u.cache.get u.clock pair = some x →
    ∃ time table, u.latestRefresh? = some (time, table) ∧
      (v.clock ≤ time + s.cache.ttl → v.cache.get v.clock pair = some x)

/-- **Every rate that is used is current,** in every run in which the service alone writes the
cache. -/
theorem Run.ratesCurrent (h : Run s t us) (start : s.Unused) (owned : CacheOwned s t) :
    RatesCurrent s t us where
  answered asked hm names := h.current_of_ended start owned asked hm names
  applied hm := h.current_of_committed start owned hm
  sourced hm := h.answered_of_refreshed start hm
  once id := (h.reaches.fetchesOf_le start id).1
  failed {past u v id call quest due fault} passes moves live at_ fails := by
    obtain rfl := State.step?_of_error live at_ fails moves
    have after := State.goto_calls_self (.ending (.error (.partner fault)))
      (show (u.endRefresh id).calls.get? id = some call from live)
    have reach := passes.before.reaches.tail passes.step
    exact ⟨rfl, rfl, after, fun outcome hm =>
      reach.ended_of_ending start after rfl passes.after hm⟩
  lasting hu later same serves :=
    (h.reaches_of_mem hu).get_of_latest start (owned.earlier (h.reaches_from_mem hu)) later same
      serves

/-! ### A source that fails -/

/-- Whether the cache was ever refreshed from outside. -/
def State.isRefreshedOutside (s : State) : Bool :=
  s.history.any fun o => match o with | .refreshed none _ _ => true | _ => false

theorem cacheOwned_of_not_isRefreshedOutside (empty : s.cache.snapshot = .none)
    (h : ¬ t.isRefreshedOutside) : CacheOwned s t :=
  ⟨empty, fun _ _ hm => h (List.any_eq_true.2 ⟨_, hm, rfl⟩)⟩

/-- The rate that the call was answered. -/
def State.rateOf? (s : State) (id : CallId) : Option Float :=
  s.history.findSome? fun o => match o with
    | .ended j (.ok answer) => if j = id then answer.rate? else none
    | _ => none

/-- A quote of RUB in USD makes the service fetch a rate of 90 for the opposite direction, and an
exchange is made at it. Then the source fails. A quote of EUR in USD ends with the fault, and a
quote of USD in RUB is answered as before. -/
def faltering : List Turn :=
  let user := Uuid.ofNat 1
  let turns (id : CallId) (n : Nat) : List Turn := List.replicate n (.call id)
  .outside (.setSource ⟨[⟨⟨.usd, .rub⟩, 90.0⟩], none, 0⟩) ::
  .outside (.arrive 0 (.create user) (.ofNat 2)) :: turns 0 2 ++
  .outside (.arrive 1 (.deposit user "USD" 100.0) (.ofNat 3)) :: turns 1 8 ++
  .outside (.arrive 2 (.quote ⟨.rub, .usd⟩) (.ofNat 4)) :: turns 2 7 ++
  .outside (.arrive 3 (.exchange user "USD" "RUB" 60.0) (.ofNat 5)) :: turns 3 9 ++
  .outside (.setSource ⟨[], some (.reported "rate source unreachable"), 0⟩) ::
  .outside (.arrive 4 (.quote ⟨.eur, .usd⟩) (.ofNat 6)) :: turns 4 5 ++
  .outside (.arrive 5 (.quote ⟨.usd, .rub⟩) (.ofNat 7)) :: turns 5 3

set_option maxRecDepth 10000 in
theorem isSome_faltering : (vacant.follow? faltering).isSome := by decide +kernel

/-- The service after its source has failed. -/
def faltered : State := (vacant.follow? faltering).get isSome_faltering

theorem reaches_faltered : Reaches vacant faltered :=
  reaches_of_follow? (Option.some_get _).symm

/-- One quote fails, the exchange and the other quotes are answered, and all rates are current. -/
theorem ratesCurrent_faltered :
    faltered.hasFailed 4 (.partner (.reported "rate source unreachable")) ∧
      ([2, 3, 5].map fun id => (faltered.rateOf? id).isSome) = [true, true, true] ∧
      ∃ us, Run vacant faltered us ∧ RatesCurrent vacant faltered us := by
  refine ⟨by decide +kernel, by decide +kernel, ?_⟩
  obtain ⟨us, run⟩ := reaches_faltered.exists_run
  have owned : CacheOwned vacant faltered :=
    cacheOwned_of_not_isRefreshedOutside rfl (by decide +kernel)
  exact ⟨us, run, run.ratesCurrent unused_vacant owned⟩

end Service

end Purse
