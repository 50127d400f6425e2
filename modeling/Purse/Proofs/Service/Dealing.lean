import Purse.Proofs.Service.Obstacles
import Purse.Proofs.Service.Oversubscription

/-!
# How an exchange comes out

An exchange that meets nobody fails for the first obstacle in its way, or it is made. The pieces of a
call on its own are put together from the last to the first: the locked change of the row
(`Exchanged.exists_comes_of_storing`), the rate before it (`Exchanged.exists_comes_of_consulting`),
the arguments, the gate and the row before that (`Exchanged.exists_comes`).

For the service as it is this gives the whole contract of an exchange (`State.AtRest.contract`): when
it fails and why, what it writes, when it asks the source, and what happens to the cache.
-/

namespace Purse.Service

variable {s t : State} {k k' : Scene} {x : Terms} {e : WalletError} {early : Bool}
  {pair : CurrencyPair} {row : Wallet} {debit : MinorUnits} {outcome : Outcome} {id : CallId}
  {drawn : Uuid}

/-! ### The locked change of the row -/

/-- **The locked change of the row is authoritative:** it is refused for the obstacle that is left, or
it is made. It finds the balance wanting if nobody looked before. -/
theorem Obstacle.fromRate_cases {rate : Float} {credit : MinorUnits} (sound : k.store.Sound)
    (debits : x.debit? = some debit) (trades : x.pair? = some pair)
    (there : k.store.get x.user = .ok row) (finds : k.rate? pair = some rate)
    (credits : MinorUnits.ofConverted? x.amount rate = some credit)
    (looked : early → ¬ (row.balance pair.sold).units < debit.units) :
    (∃ e, first? k x (fromRate early) = some e ∧
      k.store.mutate k.now row.id (.exchange pair.sold debit pair.bought credit) = .error e) ∨
    ∃ next, first? k x (fromRate early) = none ∧
      k.store.mutate k.now row.id (.exchange pair.sold debit pair.bought credit) =
        .ok ({ k.store with rows := k.store.rows.insert row.id next }, next) := by
  obtain ⟨-, -, differ⟩ := Terms.pair?_eq_some trades
  have debit_pos : 0 < debit.units := MinorUnits.ofAmount?_pos debits
  have credit_pos : 0 < credit.units := MinorUnits.ofAmount?_pos credits
  rw [first?_fromRate_of_credit debits trades there finds credits,
    MemoryStore.mutate_of_there (sound.get?_of_get there)]
  by_cases short : (row.balance pair.sold).units < debit.units
  · -- nobody has looked at the balance before
    have late : early = false := Bool.eq_false_iff.2 fun early => looked early short
    refine .inl ⟨_, if_pos ⟨late, short⟩, ?_⟩
    rw [Mutation.applyTo_exchange_of_short differ debit_pos short]
    rfl
  rw [if_neg fun both => short both.2]
  by_cases full : MinorUnits.greatest < (row.balance pair.bought).units + credit.units
  · refine .inl ⟨_, if_pos full, ?_⟩
    rw [Mutation.applyTo_exchange_of_full differ debit_pos credit_pos short full]
    rfl
  · obtain ⟨next, made⟩ := Mutation.exists_applyTo_exchange differ debit_pos credit_pos short full
    refine .inr ⟨next, if_neg full, ?_⟩
    rw [made]
    rfl

/-! ### The way of an exchange -/

/-- Where an exchange goes from looking up its rate. -/
def Scene.resolved (k : Scene) (wallet : Uuid) (pair : CurrencyPair) (debit : MinorUnits)
    (amount : Float) : Stage :=
  match k.rate? pair with
  | some rate => Quest.exchangeAt wallet pair debit amount rate (k.clock + k.conditions.delay)
  | none => .ending (.error (k.rateError pair))

/-- **Looking up the rate of an exchange,** in the cache and then at the source. -/
theorem Solo.comes_of_consulting {c : Solo} {wallet : Uuid} {amount : Float}
    (h : c.Stands s (.consulting (.exchange wallet pair debit amount)))
    (open_ : s.refreshLock = .open_) (instant : s.source.delay = 0) :
    c.Comes s (s.scene.resolved wallet pair debit amount) (s.scene.lookedUp pair) := by
  unfold Scene.resolved Scene.lookedUp Scene.misses
  cases hit : s.scene.cache.get s.scene.clock pair with
  | some rate =>
    rw [Scene.rate?_of_hit hit]
    exact comes_of_hit h (Option.map_eq_some_iff.2 ⟨rate, hit, rfl⟩)
  | none =>
    -- the source decides, and the call looks into the cache once more
    have misses : Quest.found? (.exchange wallet pair debit amount) s.cache s.clock s.storeDue =
        none := Option.map_eq_none_iff.2 hit
    rw [Option.isNone_none, if_pos rfl]
    cases replies : s.scene.source.answer with
    | error fault =>
      rw [Scene.rate?_of_fault hit replies, Scene.fetched, Scene.rateError, replies]
      exact comes_of_fault h open_ misses instant replies
    | ok table =>
      rw [Scene.rate?_of_fetch hit replies, Scene.fetched, Scene.rateError, replies]
      have comes := comes_of_fetch h open_ misses instant replies
      have served : (s.cache.refresh s.clock table).get s.clock pair = table.quote pair := by
        rw [RateCache.get_refresh, if_pos (Nat.le_add_right ..)]
      rw [Quest.found?, served] at comes
      cases quotes : table.quote pair with
      | some rate =>
        rw [quotes] at comes
        exact comes
      | none =>
        rw [quotes] at comes
        exact comes

namespace Exchanged

variable {c : Solo} {rate : Float} {credit : MinorUnits} {due : Nat}

/-- **The last part:** the row is changed under its lock, or the change is refused. -/
theorem exists_comes_of_storing
    (h : c.Stands s (.storing row.id (.exchange pair debit credit rate) due)) (ready : due ≤ s.clock)
    (same : s.scene = k.lookedUp pair) (rest : k.AtRest)
    (passes : Obstacle.first? k x (Obstacle.beforeRate c.early) = none)
    (debits : x.debit? = some debit) (trades : x.pair? = some pair)
    (there : k.store.get x.user = .ok row) (finds : k.rate? pair = some rate)
    (credits : MinorUnits.ofConverted? x.amount rate = some credit)
    (looked : c.early → ¬ (row.balance pair.sold).units < debit.units) :
    ∃ outcome k', c.Comes s (.ending outcome) k' ∧ Exchanged c.early k x k' outcome := by
  have now_at_rest : s.AtRest := by
    rw [State.AtRest, same]
    exact rest.lookedUp pair
  have works : s.conditions.fault = none := congrArg StoreConditions.fault now_at_rest.conditions
  have open_ : s.rowLock row.id = .open_ := now_at_rest.rowLock row.id
  -- the look-up has changed neither the rows nor the time
  have store : s.store = k.store := (congrArg Scene.store same).trans Scene.lookedUp_store
  have now : s.now = k.now := (congrArg Scene.now same).trans Scene.lookedUp_now
  rcases Obstacle.fromRate_cases rest.store debits trades there finds credits looked with
    ⟨e, fails, refused⟩ | ⟨next, passes', writes⟩
  · have contained : s.store.rows.contains row.id :=
      store ▸ (Table.contains_iff ..).2 ⟨row, rest.store.get?_of_get there⟩
    rw [← store, ← now] at refused
    refine ⟨_, _, Solo.comes_of_refusal h ready works contained open_ refused, ?_⟩
    rw [same]
    exact of_fromRate passes trades fails
  · have deal := Deal.made debits trades there finds credits writes
    rw [← store, ← now] at writes
    refine ⟨_, _, Solo.comes_of_write h ready works open_ writes, ?_⟩
    rw [same, store]
    exact of_deal passes trades passes' deal

/-- **The middle part:** the rate is looked up, and the amount converted. -/
theorem exists_comes_of_consulting
    (h : c.Stands s (.consulting (.exchange row.id pair debit x.amount)))
    (same : s.scene = k) (rest : k.AtRest)
    (passes : Obstacle.first? k x (Obstacle.beforeRate c.early) = none)
    (debits : x.debit? = some debit) (trades : x.pair? = some pair)
    (there : k.store.get x.user = .ok row)
    (looked : c.early → ¬ (row.balance pair.sold).units < debit.units) :
    ∃ outcome k', c.Comes s (.ending outcome) k' ∧ Exchanged c.early k x k' outcome := by
  have now_at_rest : s.AtRest := by
    rw [State.AtRest, same]
    exact rest
  obtain ⟨t, goes, stands, scene⟩ :=
    Solo.comes_of_consulting h now_at_rest.refreshLock now_at_rest.instant
  rw [same] at stands scene
  unfold Scene.resolved at stands
  cases finds : k.rate? pair with
  | none =>
    rw [finds] at stands
    exact ⟨_, _, ⟨t, goes, stands, scene⟩,
      of_fromRate passes trades (Obstacle.first?_fromRate_of_none trades finds)⟩
  | some rate =>
    rw [finds] at stands
    dsimp only at stands
    unfold Quest.exchangeAt Change.atRate at stands
    cases credits : MinorUnits.ofConverted? x.amount rate with
    | none =>
      rw [credits] at stands
      exact ⟨_, _, ⟨t, goes, stands, scene⟩,
        of_fromRate passes trades (Obstacle.first?_fromRate_of_nothing trades finds credits)⟩
    | some credit =>
      rw [credits] at stands
      have clock : t.clock = k.clock := (congrArg Scene.clock scene).trans Scene.lookedUp_clock
      have instantly : k.conditions.delay = 0 := congrArg StoreConditions.delay rest.conditions
      obtain ⟨outcome, k', comes, exchanged⟩ := exists_comes_of_storing stands (by omega) scene rest
        passes debits trades there finds credits looked
      exact ⟨outcome, k', comes.of_goes goes, exchanged⟩

/-- Where an exchange goes from reading the row. -/
theorem afterReadWith_exchange {amount : Float} (positive : 0 < debit.units) :
    s.afterReadWith early row amount (some (.exchange pair debit)) =
      if early ∧ (row.balance pair.sold).units < debit.units then
        .ending (.error .insufficientFunds)
      else .consulting (.exchange row.id pair debit amount) := by
  unfold State.afterReadWith
  cases early with
  | false => simp
  | true =>
    simp only [if_true, true_and]
    unfold State.afterRead
    dsimp only
    by_cases short : (row.balance pair.sold).units < debit.units
    · rw [if_pos short, Wallet.debit_eq_insufficientFunds_iff.2 ⟨positive, short⟩]
    · -- what the simulated debit leaves is of no interest, only that it is possible
      obtain ⟨next, debited⟩ := Wallet.exists_debit_eq_ok positive short
      rw [if_neg short, debited]

/-- **An exchange on its own,** from its arrival to its end. -/
theorem exists_comes (h : c.Stands s .arrived) (asks : c.request = x.request)
    (free : 0 < s.gate.free) (rest : s.AtRest) :
    ∃ outcome k', c.Comes s (.ending outcome) k' ∧ Exchanged c.early s.scene x k' outcome := by
  rcases Obstacle.arguments_cases s.scene x with
    ⟨e, fails, asked⟩ | ⟨debit, pair, debits, trades, passes, asked⟩
  · rw [← asks] at asked
    refine ⟨_, _, Solo.comes_of_invalid h asked, of_beforeRate ?_⟩
    rw [Obstacle.beforeRate, Obstacle.first?_append, fails, Option.some_or]
  rw [← asks] at asked
  obtain ⟨u, toRow, located, same⟩ := Solo.comes_of_free h asked free
  have store : u.store = s.store := congrArg Scene.store same
  have for_ : c.request.user? = some x.user := by
    rw [asks]
    rfl
  have amount : c.request.amount = x.amount := by
    rw [asks]
    rfl
  cases there : s.store.get x.user with
  | error e =>
    obtain rfl := MemoryStore.get_eq_error there
    refine ⟨_, _, (Solo.comes_of_unlocated located for_ (store ▸ there)).of_goes toRow, ?_⟩
    rw [same]
    exact of_beforeRate (Obstacle.first?_beforeRate_of_nobody passes there)
  | ok row =>
    have before : Obstacle.first? s.scene x (Obstacle.beforeRate c.early) = _ :=
      Obstacle.first?_beforeRate_of_row passes debits trades there
    have open_ : u.rowLock row.id = .open_ :=
      (congrFun (congrArg Scene.rowLock same) row.id).trans (rest.rowLock row.id)
    obtain ⟨v, toRates, stands, same'⟩ :=
      Solo.comes_of_read located for_ (store ▸ there) (store ▸ rest.store) open_
    rw [afterReadWith_exchange (MinorUnits.ofAmount?_pos debits), amount] at stands
    by_cases short : c.early ∧ (row.balance pair.sold).units < debit.units
    · -- the early look has found the balance wanting
      rw [if_pos short] at stands before
      refine ⟨_, _, ⟨v, toRow.trans toRates, stands, rfl⟩, ?_⟩
      rw [same', same]
      exact of_beforeRate before
    · rw [if_neg short] at stands before
      obtain ⟨outcome, k', comes, exchanged⟩ := exists_comes_of_consulting stands
        (same'.trans same) rest before debits trades there fun early short' => short ⟨early, short'⟩
      exact ⟨outcome, k', comes.of_goes (toRow.trans toRates), exchanged⟩

end Exchanged

/-- **An exchange at rest comes to its end,** and it is known what it comes to. -/
theorem State.AtRest.exists_serve (rest : s.AtRest) (free : 0 < s.gate.free)
    (new : s.isTaken id = false) (early : Bool) (x : Terms) (drawn : Uuid) :
    ∃ t outcome,
      s.serveWith? early id x.request drawn = some (t, ⟨id, x.request, drawn, outcome⟩) ∧
        Exchanged early s.scene x t.scene outcome := by
  let c : Solo := ⟨early, id, x.request, drawn⟩
  obtain ⟨outcome, k', comes, exchanged⟩ := Exchanged.exists_comes (c.stands_arrive s) rfl free rest
  obtain ⟨t, serves, rfl⟩ := c.serveWith?_eq new comes
  exact ⟨t, outcome, serves, exchanged⟩

/-! ### The contract -/

/-- **A row before and after an exchange:** the debit is taken from one balance, the credit is added
to another, and the third is as it was. -/
structure Traded (now : Timestamp) (pair : CurrencyPair) (debit credit : MinorUnits)
    (row next : Wallet) : Prop where
  id_eq : next.id = row.id
  user_eq : next.user = row.user
  updatedAt_eq : next.updatedAt = now
  sold : (next.balance pair.sold).units = (row.balance pair.sold).units - debit.units
  bought : (next.balance pair.bought).units = (row.balance pair.bought).units + credit.units
  third : ∀ c, c ≠ pair.sold → c ≠ pair.bought → next.balance c = row.balance c

theorem Traded.of_applyTo {now : Timestamp} {credit : MinorUnits} {next : Wallet}
    (differ : pair.sold ≠ pair.bought)
    (made : (Mutation.exchange pair.sold debit pair.bought credit).applyTo now row = .ok next) :
    Traded now pair debit credit row next := by
  obtain ⟨moves, stamp⟩ := Mutation.applyTo_spec made
  refine ⟨moves.id_eq, moves.user_eq, stamp, ?_, ?_, fun c notSold notBought => ?_⟩
  · rw [moves.balance_eq, Mutation.credited, Mutation.debited, if_neg differ.symm, if_pos rfl]
    omega
  · rw [moves.balance_eq, Mutation.credited, Mutation.debited, if_pos rfl, if_neg differ]
    omega
  · refine MinorUnits.ext ?_
    rw [moves.balance_eq, Mutation.credited, Mutation.debited, if_neg notBought.symm,
      if_neg notSold.symm]
    omega

/-- **The contract of an exchange** on terms `x` from a state `s`, which ends in `t` with an
outcome. -/
structure Contract (s : State) (x : Terms) (t : State) (outcome : Outcome) : Prop where
  /-- It fails with an error if and only if this is the error of the first obstacle that applies. -/
  fails : ∀ e, outcome = .error e ↔
    Obstacle.first? s.scene x
      [.amount, .sold, .bought, .same, .wallet, .funds, .source, .rate, .product, .room] = some e
  /-- If none applies it is made: it debits what the amount comes to, finds the rate, credits what
  the amount comes to at the rate, and answers with the row that it writes. -/
  succeeds : ∀ answer, outcome = .ok answer → ∃ row next pair debit credit rate,
    answer = .exchanged next rate debit credit ∧
      x.debit? = some debit ∧ x.pair? = some pair ∧ s.store.get x.user = .ok row ∧
      s.scene.rate? pair = some rate ∧ MinorUnits.ofConverted? x.amount rate = some credit ∧
      Traded s.now pair debit credit row next ∧
      t.store = { s.store with rows := s.store.rows.insert row.id next }
  /-- If it fails no row is written. -/
  unwritten : ∀ e, outcome = .error e → t.store = s.store
  /-- The source is asked once if the call gets past the funds and the cache cannot serve the pair,
  and not at all otherwise. -/
  asked : t.fetches = s.fetches + if s.scene.asks true x then 1 else 0
  /-- The cache is refreshed with what the source answers then, and is not touched otherwise. -/
  cache_eq : t.cache =
    if s.scene.asks true x then
      match s.source.answer with
      | .ok table => s.cache.refresh s.clock table
      | .error _ => s.cache
    else s.cache

/-- **An exchange keeps its contract** from every state at rest with a free permit. -/
theorem State.AtRest.contract (rest : s.AtRest) (free : 0 < s.gate.free)
    (new : s.isTaken id = false) (x : Terms) (drawn : Uuid) :
    ∃ t outcome, s.serve? id x.request drawn = some (t, ⟨id, x.request, drawn, outcome⟩) ∧
      Contract s x t outcome := by
  obtain ⟨t, outcome, serves, exchanged⟩ := rest.exists_serve free new true x drawn
  rw [serveWith?_true] at serves
  have scene := exchanged.scene_eq
  refine ⟨t, outcome, serves, exchanged.fails, fun answer same => ?_, exchanged.store_eq, ?_, ?_⟩
  · obtain ⟨debits, trades, there, finds, credits, writes⟩ := exchanged.succeeds answer same
    obtain ⟨-, -, differ⟩ := Terms.pair?_eq_some trades
    obtain ⟨before, held, made, store⟩ := MemoryStore.mutate_eq_ok writes
    obtain rfl := Option.some.inj ((rest.store.get?_of_get there).symm.trans held)
    exact ⟨_, _, _, _, _, _, rfl, debits, trades, there, finds, credits, .of_applyTo differ made,
      store⟩
  · have fetches := congrArg Scene.fetches scene
    change t.fetches = _ at fetches
    rw [fetches]
    split
    · rw [Scene.fetched_eq]
      rfl
    · rfl
  · have cache := congrArg Scene.cache scene
    change t.cache = _ at cache
    rw [cache]
    split
    · show s.scene.fetched.cache = _
      unfold Scene.fetched
      cases replies : s.source.answer with
      | ok table => rw [show s.scene.source.answer = .ok table from replies]; rfl
      | error fault => rw [show s.scene.source.answer = .error fault from replies]; rfl
    · rfl

/-- A service with a wallet of 100 USD and a source that sells them. -/
def dealing : State := { funded with source := ⟨[⟨⟨.usd, .rub⟩, 90.0⟩], none, 0⟩ }

theorem atRest_dealing : dealing.AtRest where
  refreshLock := rfl
  rowLock _ := rfl
  store := unused_funded.store
  instant := rfl
  conditions := rfl

/-- An exchange of 60 USD there meets no obstacle, and asks the source. -/
theorem contract_dealing :
    let x : Terms := ⟨purse.user, "USD", "RUB", 60.0⟩
    dealing.AtRest ∧ 0 < dealing.gate.free ∧ dealing.isTaken 1 = false ∧
      Obstacle.first? dealing.scene x (Obstacle.inOrder true) = none ∧ dealing.scene.asks true x ∧
      ∃ t outcome, dealing.serve? 1 x.request (.ofNat 3) =
          some (t, ⟨1, x.request, .ofNat 3, outcome⟩) ∧ Contract dealing x t outcome :=
  ⟨atRest_dealing, by decide, rfl, by decide +kernel, by decide +kernel,
    atRest_dealing.contract (by decide) rfl _ _⟩

end Purse.Service
