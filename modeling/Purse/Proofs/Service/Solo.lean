import Purse.Proofs.Service.Locks
import Purse.Proofs.Service.Refreshes
import Purse.Proofs.Service.Rows
import Purse.Proofs.Service.Serial
import Purse.Proofs.Service.Stages

/-!
# A call on its own

A call that meets nobody never waits: every lock that it asks for is open. So from its arrival on it
goes from one place to the next without a stop, and what it comes to can be said beforehand. This
module says it piece by piece, each piece from a stage at which the call has no lock to the next such
stage: looking up the rates (`Solo.comes_of_hit`, `comes_of_fault`, `comes_of_fetch`), reading the row
(`Solo.comes_of_read`), writing it (`Solo.comes_of_write`). A piece supposes that the lock which it asks
for is open, and no other. It gives the stage and the `Scene`, by which is meant what the call finds and
what it leaves, the locks included.

The pieces are put together to whole calls by `Solo.serveWith?_eq`: the run that
`State.serve?` computes has enough fuel, since no call takes more steps than there are stages
(`Effect.ahead_lt`).

All this is said of two services at once: the service as it is, and one that leaves out the early look
at the balance when an exchange has read the row.
-/

namespace Purse.Service

variable {s t u v : State} {id : CallId} {call : Call} {stage : Stage} {early : Bool}

/-! ### With and without the early look -/

/-- Whether the call is about to read a row. -/
def Stage.isReading : Stage → Bool
  | reading .. => true
  | _ => false

namespace State

/-- Where a call goes when it has read the row. Without the early look an exchange takes from the row
nothing but its identifier. -/
def afterReadWith (early : Bool) (s : State) (row : Wallet) (amount : Float) : Option Order → Stage
  | some (.exchange pair debit) =>
    if early then s.afterRead row amount (some (.exchange pair debit))
    else .consulting (.exchange row.id pair debit amount)
  | order => s.afterRead row amount order

/-- Reading a row under its lock, with or without the early look. -/
def readWith? (early : Bool) (s : State) (id : CallId) (wallet : Uuid) (amount : Float)
    (order : Option Order) : Option State :=
  if (s.rowLock wallet).holder = some id then
    let released := s.withRowLock wallet (·.withdraw id)
    match s.store.rows.get? wallet with
    | some row => some ((released.record (.read id row)).goto id (s.afterReadWith early row amount order))
    | none => some (released.goto id (.ending (.error .walletNotFound)))
  else none

/-- One step of a call, with or without the early look. -/
def stepWith? (early : Bool) (s : State) (id : CallId) : Option State :=
  match s.calls.get? id with
  | none => none
  | some call =>
    match call.stage with
    | .reading wallet order => s.readWith? early id wallet call.request.amount order
    | _ => s.step? id

/-- The call moves on until it is about to end, with or without the early look. -/
def endWith? (early : Bool) (s : State) (id : CallId) : (fuel : Nat) → Option (State × Outcome)
  | 0 => none
  | fuel + 1 =>
    match (s.calls.get? id).map Call.stage with
    | some (.ending outcome) => some (s, outcome)
    | some _ => (s.stepWith? early id).bind fun t => t.endWith? early id fuel
    | none => none

/-- A call from its arrival to its end, with or without the early look. -/
def serveWith? (early : Bool) (s : State) (id : CallId) (request : Request) (drawn : Uuid) :
    Option (State × Served) :=
  if s.isTaken id then none
  else ((s.arrive id request drawn).endWith? early id 15).map fun e =>
    (e.1.finish id e.2, ⟨id, request, drawn, e.2⟩)

theorem afterReadWith_true (s : State) (row : Wallet) (amount : Float) (order : Option Order) :
    s.afterReadWith true row amount order = s.afterRead row amount order := by
  unfold afterReadWith
  split <;> rfl

theorem readWith?_true (s : State) (id : CallId) (wallet : Uuid) (amount : Float)
    (order : Option Order) : s.readWith? true id wallet amount order = s.read? id wallet amount order := by
  unfold readWith? read?
  by_cases turn : (s.rowLock wallet).holder = some id
  · rw [if_pos turn, if_pos turn]
    cases s.store.rows.get? wallet with
    | none => rfl
    | some row =>
      dsimp only
      rw [afterReadWith_true]
  · rw [if_neg turn, if_neg turn]

/-- **With the early look it is the service as it is,** step by step. -/
theorem stepWith?_true (s : State) (id : CallId) : s.stepWith? true id = s.step? id := by
  unfold stepWith?
  cases live : s.calls.get? id with
  | none =>
    unfold step?
    rw [live]
  | some call =>
    dsimp only
    split
    · next at_ =>
      rw [readWith?_true]
      unfold step?
      rw [live]
      dsimp only
      rw [at_]
    · rfl

theorem endWith?_true (s : State) (id : CallId) (fuel : Nat) :
    s.endWith? true id fuel = s.endAlone? id fuel := by
  induction fuel generalizing s with
  | zero => rfl
  | succ fuel ih =>
    have rest : (fun t : State => t.endWith? true id fuel) = fun t => t.endAlone? id fuel := funext ih
    rw [endWith?, endAlone?, stepWith?_true]
    -- both take the same step, and go on alike
    generalize (fun t : State => t.endWith? true id fuel) = f at rest ⊢
    subst rest
    rfl

/-- So are whole calls. -/
theorem serveWith?_true (s : State) (id : CallId) (request : Request) (drawn : Uuid) :
    s.serveWith? true id request drawn = s.serve? id request drawn := by
  unfold serveWith? serve?
  rw [endWith?_true]

/-- Only the reading of a row knows of the early look. -/
theorem stepWith?_of_not_reading (live : s.calls.get? id = some call)
    (elsewhere : call.stage.isReading = false) : s.stepWith? early id = s.step? id := by
  unfold stepWith?
  rw [live]
  dsimp only
  split
  · next at_ =>
    rw [at_] at elsewhere
    cases elsewhere
  · rfl

end State

/-! ### What others can see of a state -/

/-- **The scene:** what a call on its own finds and what it leaves, and how often the source was asked.
The gate and the receiver of events are left out: the permit is given back in the end, and no outcome
depends on an event. -/
structure Scene where
  clock : Nat
  origin : Timestamp
  refreshLock : Lock CallId
  rowLock : Uuid → Lock CallId
  store : MemoryStore
  cache : RateCache
  conditions : StoreConditions
  source : RateSource
  fetches : Nat

namespace State

def scene (s : State) : Scene where
  clock := s.clock
  origin := s.origin
  refreshLock := s.refreshLock
  rowLock := s.rowLock
  store := s.store
  cache := s.cache
  conditions := s.conditions
  source := s.source
  fetches := s.fetches

@[simp] theorem goto_scene (s : State) (id : CallId) (stage : Stage) :
    (s.goto id stage).scene = s.scene := rfl

@[simp] theorem finish_scene (s : State) (id : CallId) (outcome : Outcome) :
    (s.finish id outcome).scene = s.scene := rfl

/-- Notices say nothing of the source. -/
@[simp] theorem notice_scene (s : State) (ns : List Notice) : (s.notice ns).scene = s.scene := by
  induction ns generalizing s with
  | nil => rfl
  | cons n ns ih => exact ih (s.record (.noticed n))

/-- The source was asked once more. -/
theorem record_fetchStarted_scene (s : State) (id : CallId) (time : Nat) :
    (s.record (.fetchStarted id time)).scene = { s.scene with fetches := s.fetches + 1 } := by
  unfold scene fetches
  rw [record_history, List.countP_cons_of_pos rfl]
  rfl

theorem refreshCache_scene (s : State) (by_ : Option CallId) (table : RateTable) :
    (s.refreshCache by_ table).scene = { s.scene with cache := s.cache.refresh s.clock table } :=
  notice_scene ..

@[simp] theorem fail_scene (s : State) (id : CallId) (change : Change) (e : WalletError) :
    (s.fail id change e).scene = s.scene := notice_scene ..

@[simp] theorem publish_scene (s : State) (id : CallId) (answer : Answer) (event : WalletEvent) :
    (s.publish id answer event).scene = s.scene := by
  rw [publish_eq]
  exact notice_scene ..

end State

/-! ### The way of a call that never waits -/

theorem State.ahead_afterReadWith_lt {row : Wallet} {amount : Float} {order : Option Order} :
    (s.afterReadWith early row amount order).ahead < 10 := by
  unfold afterReadWith
  split
  · split
    · exact ahead_afterRead_lt
    · simp [Stage.ahead]
  · exact ahead_afterRead_lt

/-- How many stages may still come for a call; none for a call that is gone. -/
def State.ahead (s : State) (id : CallId) : Nat := ((s.calls.get? id).map (·.stage.ahead)).getD 0

theorem State.ahead_of_live (live : s.calls.get? id = some call) : s.ahead id = call.stage.ahead := by
  rw [ahead, live]
  rfl

/-- A lock that was open is open again when it is given back. -/
theorem withdraw_request_open (id : CallId) : (Lock.open_.request id).withdraw id = .open_ := by
  simp [Lock.withdraw, Lock.request, Lock.open_]

/-- The state in which a call has asked for the lock of a row. -/
def State.askRow (s : State) (id : CallId) (wallet : Uuid) (stage : Stage) : State :=
  (s.withRowLock wallet (·.request id)).goto id stage

/-- If the lock was open, the call has it. -/
theorem State.askRow_holder {wallet : Uuid} (open_ : s.rowLock wallet = .open_) (id : CallId)
    (stage : Stage) : ((s.askRow id wallet stage).rowLock wallet).holder = some id := by
  show ((s.withRowLock wallet (·.request id)).rowLock wallet).holder = some id
  rw [State.withRowLock_rowLock, if_pos rfl, open_]
  rfl

/-- When it gives the lock back, all are as before. -/
theorem State.askRow_withdraw_scene {wallet : Uuid} (open_ : s.rowLock wallet = .open_) (id : CallId)
    (stage : Stage) :
    ((s.askRow id wallet stage).withRowLock wallet (·.withdraw id)).scene = s.scene := by
  have again : ((s.askRow id wallet stage).withRowLock wallet (·.withdraw id)).rowLock = s.rowLock := by
    funext other
    rw [State.withRowLock_rowLock]
    show (if wallet = other then ((s.withRowLock wallet (·.request id)).rowLock other).withdraw id
      else (s.withRowLock wallet (·.request id)).rowLock other) = s.rowLock other
    rw [State.withRowLock_rowLock]
    split
    · next same => rw [← same, open_, withdraw_request_open]
    · rfl
  show { s.scene with
    rowLock := ((s.askRow id wallet stage).withRowLock wallet (·.withdraw id)).rowLock } = s.scene
  rw [again]
  rfl

/-- A call on its own: with the early look or without, its name, what it asks for, and what was drawn
for it. -/
structure Solo where
  early : Bool
  id : CallId
  request : Request
  drawn : Uuid

namespace Solo

variable {c : Solo}

/-- The call at a stage. -/
def at_ (c : Solo) (stage : Stage) : Call := ⟨c.request, c.drawn, stage⟩

/-- The call is at the stage. -/
def Stands (c : Solo) (s : State) (stage : Stage) : Prop := s.calls.get? c.id = some (c.at_ stage)

/-- The call goes from one state to another, each step leading to a later stage. -/
inductive Goes (c : Solo) (s : State) : State → Prop
  | start : Goes c s s
  | step {t u : State} : Goes c s t → t.stepWith? c.early c.id = some u → u.ahead c.id < t.ahead c.id →
      Goes c s u

/-- **The call comes to a stage,** in a state with the given scene. -/
def Comes (c : Solo) (s : State) (stage : Stage) (scene : Scene) : Prop :=
  ∃ t, c.Goes s t ∧ c.Stands t stage ∧ t.scene = scene

theorem Goes.trans (h : c.Goes s t) (k : c.Goes t u) : c.Goes s u := by
  induction k with
  | start => exact h
  | step _ moves later ih => exact ih.step moves later

theorem Comes.of_goes {scene : Scene} (h : c.Goes s t) (k : c.Comes t stage scene) :
    c.Comes s stage scene := by
  obtain ⟨u, goes, stands, same⟩ := k
  exact ⟨u, h.trans goes, stands, same⟩

/-- A step that only the reading of a row could make different. -/
theorem Goes.of_effect {next : Stage} (h : c.Goes s t) (stands : c.Stands t stage)
    (effect : Effect t c.id (c.at_ stage) (some next) u)
    (elsewhere : stage.isReading = false) : c.Goes s u := by
  have later : u.ahead c.id < t.ahead c.id := by
    rw [State.ahead_of_live stands, State.ahead_of_live (effect.calls_self stands)]
    exact effect.ahead_lt
  refine h.step ?_ later
  rw [State.stepWith?_of_not_reading stands elsewhere]
  exact effect.step?_eq stands

/-- **The computed run goes the same way,** and its fuel lasts. -/
theorem Goes.endWith?_eq {fuel : Nat} (h : c.Goes s t) (enough : s.ahead c.id < fuel) :
    ∃ rest, t.ahead c.id < rest ∧ s.endWith? c.early c.id fuel = t.endWith? c.early c.id rest := by
  induction h with
  | start => exact ⟨fuel, enough, rfl⟩
  | @step t u _ moves later ih =>
    obtain ⟨rest, lasts, same⟩ := ih
    obtain ⟨rest, rfl⟩ := Nat.exists_eq_add_one_of_ne_zero (Nat.ne_of_gt (Nat.zero_lt_of_lt lasts))
    refine ⟨rest, by omega, same.trans ?_⟩
    -- what goes on is not at its last stage
    cases live : t.calls.get? c.id with
    | none =>
      have nothing : t.ahead c.id = 0 := by
        rw [State.ahead, live]
        rfl
      omega
    | some call =>
      rw [State.ahead_of_live live] at later
      rw [State.endWith?, live, Option.map_some]
      split
      · next ends =>
        rw [Option.some.inj ends] at later
        exact absurd later (Nat.not_lt_zero _)
      · rw [moves, Option.bind_some]
      · next gone => cases gone

/-- **A whole call:** if it comes to its last stage, then the computed run ends there. -/
theorem serveWith?_eq {scene : Scene} {outcome : Outcome} (new : s.isTaken c.id = false)
    (comes : c.Comes (s.arrive c.id c.request c.drawn) (.ending outcome) scene) :
    ∃ t, s.serveWith? c.early c.id c.request c.drawn =
        some (t, ⟨c.id, c.request, c.drawn, outcome⟩) ∧ t.scene = scene := by
  obtain ⟨t, goes, stands, rfl⟩ := comes
  -- there are fewer stages than the run has fuel
  have enough : (s.arrive c.id c.request c.drawn).ahead c.id < 15 := by
    rw [State.ahead_of_live (State.arrive_calls_self ..)]
    simp [Stage.ahead]
  obtain ⟨rest, lasts, same⟩ := goes.endWith?_eq enough
  obtain ⟨rest, rfl⟩ := Nat.exists_eq_add_one_of_ne_zero (Nat.ne_of_gt (Nat.zero_lt_of_lt lasts))
  have ends : t.endWith? c.early c.id (rest + 1) = some (t, outcome) := by
    unfold State.endWith?
    rw [show t.calls.get? c.id = _ from stands]
    rfl
  refine ⟨t.finish c.id outcome, ?_, State.finish_scene ..⟩
  unfold State.serveWith?
  rw [new, if_neg Bool.false_ne_true, same, ends]
  rfl

/-! ### From stage to stage -/

section Pieces

variable {stage' : Stage} {order : Option Order} {user : Uuid} {row : Wallet} {quest : Quest}
  {table : RateTable}

/-- One step. -/
theorem Stands.next (h : c.Stands s stage) (effect : Effect s c.id (c.at_ stage) (some stage') t)
    (elsewhere : stage.isReading = false) : c.Goes s t ∧ c.Stands t stage' :=
  ⟨Goes.start.of_effect h effect elsewhere, effect.calls_self h⟩

theorem stands_arrive (c : Solo) (s : State) :
    c.Stands (s.arrive c.id c.request c.drawn) .arrived := State.arrive_calls_self ..

/-- **Arguments that do not pass** end the call. -/
theorem comes_of_invalid {e : WalletError} (h : c.Stands s .arrived)
    (asks : c.request.order? = some (.error e)) : c.Comes s (.ending (.error e)) s.scene := by
  obtain ⟨goes, stands⟩ := h.next (.invalid rfl asks) rfl
  exact ⟨_, goes, stands, rfl⟩

/-- **At a free gate** a mutation is admitted at once. -/
theorem comes_of_free {order : Order} (h : c.Stands s .arrived)
    (asks : c.request.order? = some (.ok order)) (free : 0 < s.gate.free) :
    c.Comes s (.locating (some order)) s.scene := by
  obtain ⟨toGate, queued⟩ := h.next (.queued rfl asks) rfl
  -- whoever asks for a permit while one is free has it at once
  have holds : (s.gate.request (.call c.id) (s.gate.deadlineFrom s.clock)).holds (.call c.id) := by
    unfold Gate.request
    rw [if_pos free]
    exact decide_eq_true List.mem_cons_self
  obtain ⟨through, stands⟩ := queued.next (.admitted rfl holds) rfl
  exact ⟨_, toGate.trans through, stands, rfl⟩

/-- **A user without a wallet** ends the call. -/
theorem comes_of_unlocated {e : WalletError} (h : c.Stands s (.locating order))
    (for_ : c.request.user? = some user) (fails : s.store.get user = .error e) :
    c.Comes s (.ending (.error e)) s.scene := by
  obtain ⟨goes, stands⟩ := h.next (.unlocated rfl for_ fails) rfl
  exact ⟨_, goes, stands, rfl⟩

theorem afterReadWith_congr {early : Bool} (due : t.storeDue = s.storeDue) (row : Wallet)
    (amount : Float) (order : Option Order) :
    t.afterReadWith early row amount order = s.afterReadWith early row amount order := by
  unfold State.afterReadWith State.afterRead
  rw [due]

/-- **The row of a user is read,** with or without the early look. -/
theorem comes_of_read (h : c.Stands s (.locating order)) (for_ : c.request.user? = some user)
    (there : s.store.get user = .ok row) (sound : s.store.Sound)
    (open_ : s.rowLock row.id = .open_) :
    c.Comes s (s.afterReadWith c.early row c.request.amount order) s.scene := by
  have held : s.store.rows.get? row.id = some row := sound.get?_of_get there
  -- the lock of the row is asked for, and held at once
  let located := s.askRow c.id row.id (.reading row.id order)
  obtain ⟨toRow, asks⟩ : c.Goes s located ∧ c.Stands located (.reading row.id order) :=
    h.next (.located rfl for_ there) rfl
  have turn : (located.rowLock row.id).holder = some c.id := State.askRow_holder open_ ..
  let stage' := s.afterReadWith c.early row c.request.amount order
  let read := ((located.withRowLock row.id (·.withdraw c.id)).record (.read c.id row)).goto c.id stage'
  have moves : located.stepWith? c.early c.id = some read := by
    unfold State.stepWith? State.readWith?
    rw [show located.calls.get? c.id = _ from asks]
    dsimp only [Solo.at_]
    rw [if_pos turn, show located.store.rows.get? row.id = some row from held]
    dsimp only
    rw [afterReadWith_congr (show located.storeDue = s.storeDue from rfl)]
  have stands : c.Stands read stage' := State.goto_calls_self _ asks
  have later : read.ahead c.id < located.ahead c.id := by
    rw [State.ahead_of_live asks, State.ahead_of_live stands]
    exact State.ahead_afterReadWith_lt
  exact ⟨read, toRow.step moves later, stands, State.askRow_withdraw_scene open_ ..⟩

/-! ### Looking up rates -/

/-- **A hit in the cache.** -/
theorem comes_of_hit (h : c.Stands s (.consulting quest))
    (finds : quest.found? s.cache s.clock s.storeDue = some stage) : c.Comes s stage s.scene := by
  obtain ⟨goes, stands⟩ := h.next (.found rfl (Quest.finds_of_found? finds)) rfl
  exact ⟨_, goes, stands, rfl⟩

/-- **A miss:** the call gets the refresh lock, looks again in vain, and asks the source. -/
theorem goes_of_miss (h : c.Stands s (.consulting quest)) (open_ : s.refreshLock = .open_)
    (misses : quest.found? s.cache s.clock s.storeDue = none) :
    ∃ t, c.Goes s t ∧ c.Stands t (.fetching quest (s.clock + s.source.delay)) ∧
      t.scene = { s.scene with
        refreshLock := Lock.open_.request c.id, fetches := s.fetches + 1 } := by
  -- the lock is open, so whoever asks for it has it
  let waits := ({ s with refreshLock := s.refreshLock.request c.id } : State).goto c.id
    (.awaitingRefresh quest)
  obtain ⟨toLock, stands⟩ : c.Goes s waits ∧ c.Stands waits (.awaitingRefresh quest) :=
    h.next (.missed rfl misses) rfl
  have lock : waits.refreshLock = Lock.open_.request c.id := congrArg (·.request c.id) open_
  have turn : waits.refreshLock.holder = some c.id := by
    rw [lock]
    rfl
  -- nobody has refreshed the cache meanwhile, so the second look is as vain as the first
  let asks := (waits.record (.fetchStarted c.id waits.clock)).goto c.id
    (.fetching quest (waits.clock + waits.source.delay))
  obtain ⟨toSource, stands'⟩ :
      c.Goes waits asks ∧ c.Stands asks (.fetching quest (s.clock + s.source.delay)) :=
    stands.next (.asked rfl turn misses) rfl
  refine ⟨asks, toLock.trans toSource, stands', ?_⟩
  rw [← lock]
  exact State.record_fetchStarted_scene waits c.id waits.clock

/-- **The source fails:** so does the call, and the cache is as it was. -/
theorem comes_of_fault {fault : PartnerFault} (h : c.Stands s (.consulting quest))
    (open_ : s.refreshLock = .open_) (misses : quest.found? s.cache s.clock s.storeDue = none)
    (instant : s.source.delay = 0) (replies : s.source.answer = .error fault) :
    c.Comes s (.ending (.error (.partner fault))) { s.scene with fetches := s.fetches + 1 } := by
  obtain ⟨t, goes, stands, scene⟩ := goes_of_miss h open_ misses
  have clock : t.clock = s.clock := congrArg Scene.clock scene
  have source : t.source = s.source := congrArg Scene.source scene
  obtain ⟨goes', stands'⟩ := stands.next
    (.unanswered rfl (by omega) (source ▸ replies)) rfl
  refine ⟨_, goes.trans goes', stands', ?_⟩
  -- with the lock given back, nothing is left of the call but that it asked
  show { t.scene with refreshLock := t.scene.refreshLock.withdraw c.id } = _
  rw [scene, withdraw_request_open, ← open_]
  rfl

/-- The last look into the cache, after which the refresh lock is open again. -/
theorem comes_of_serving (h : c.Stands s (.serving quest))
    (lock : s.refreshLock = Lock.open_.request c.id) :
    c.Comes s ((quest.found? s.cache s.clock s.storeDue).getD (.ending quest.missing))
      { s.scene with refreshLock := .open_ } := by
  have given : (s.endRefresh c.id).scene = { s.scene with refreshLock := .open_ } := by
    show { s.scene with refreshLock := s.refreshLock.withdraw c.id } = _
    rw [lock, withdraw_request_open]
  cases finds : quest.found? s.cache s.clock s.storeDue with
  | some stage =>
    obtain ⟨goes, stands⟩ := h.next (.served rfl (Quest.finds_of_found? finds)) rfl
    exact ⟨_, goes, stands, given⟩
  | none =>
    obtain ⟨goes, stands⟩ := h.next (.unserved rfl finds) rfl
    exact ⟨_, goes, stands, given⟩

/-- **The source answers:** the cache holds its table, and the call finds there what it wants or
nothing. -/
theorem comes_of_fetch (h : c.Stands s (.consulting quest)) (open_ : s.refreshLock = .open_)
    (misses : quest.found? s.cache s.clock s.storeDue = none) (instant : s.source.delay = 0)
    (replies : s.source.answer = .ok table) :
    c.Comes s
      ((quest.found? (s.cache.refresh s.clock table) s.clock s.storeDue).getD (.ending quest.missing))
      { s.scene with cache := s.cache.refresh s.clock table, fetches := s.fetches + 1 } := by
  obtain ⟨t, goes, stands, scene⟩ := goes_of_miss h open_ misses
  have clock : t.clock = s.clock := congrArg Scene.clock scene
  have cache : t.cache = s.cache := congrArg Scene.cache scene
  have source : t.source = s.source := congrArg Scene.source scene
  -- the answer is there at once, and goes into the cache
  let has := t.goto c.id (.refreshing quest table)
  obtain ⟨toTable, hasTable⟩ : c.Goes t has ∧ c.Stands has (.refreshing quest table) :=
    stands.next (.answered rfl (by omega) (source ▸ replies)) rfl
  let full := (has.refreshCache (some c.id) table).goto c.id (.serving quest)
  obtain ⟨toCache, serving⟩ : c.Goes has full ∧ c.Stands full (.serving quest) :=
    hasTable.next (.refreshed rfl) rfl
  -- besides, only the lock is not yet as it was
  have scene' : full.scene = { s.scene with
      refreshLock := Lock.open_.request c.id
      cache := s.cache.refresh s.clock table
      fetches := s.fetches + 1 } := by
    show ((has.refreshCache (some c.id) table).goto c.id (.serving quest)).scene = _
    rw [State.goto_scene, State.refreshCache_scene, State.goto_scene]
    show { t.scene with cache := t.cache.refresh t.clock table } = _
    rw [cache, clock, scene]
  have comes := comes_of_serving serving (congrArg Scene.refreshLock scene')
  rw [show quest.found? full.cache full.clock full.storeDue =
      quest.found? full.scene.cache full.scene.clock
        (full.scene.clock + full.scene.conditions.delay) from rfl, scene', ← open_] at comes
  exact comes.of_goes ((goes.trans toTable).trans toCache)

/-! ### Writing the row -/

section Write

variable {wallet : Uuid} {change : Change} {due : Nat} {store : MemoryStore}

/-- A mutation is taken up, and the call has the lock of the row. -/
theorem goes_of_taken (h : c.Stands s (.storing wallet change due)) (ready : due ≤ s.clock)
    (works : s.conditions.fault = none) (there : s.store.rows.contains wallet) :
    c.Goes s (s.askRow c.id wallet (.writing wallet change)) ∧
      c.Stands (s.askRow c.id wallet (.writing wallet change)) (.writing wallet change) :=
  h.next (.taken rfl ready works there) rfl

/-- A call whose change is made ends with its answer, whether an event is published or not. -/
theorem comes_of_committed (h : c.Stands s (.committed change row)) :
    c.Comes s (.ending (.ok (change.answer row))) s.scene := by
  by_cases small : c.request.amount < s.threshold
  · obtain ⟨goes, stands⟩ := h.next (.silent rfl small) rfl
    exact ⟨_, goes, stands, rfl⟩
  · obtain ⟨goes, publishing⟩ := h.next (.announced rfl small) rfl
    obtain ⟨goes', stands⟩ := publishing.next (.published rfl) rfl
    exact ⟨_, goes.trans goes', stands, State.publish_scene ..⟩

/-- **The change is made.** -/
theorem comes_of_write (h : c.Stands s (.storing wallet change due)) (ready : due ≤ s.clock)
    (works : s.conditions.fault = none) (open_ : s.rowLock wallet = .open_)
    (done : s.store.mutate s.now wallet change.mutation = .ok (store, row)) :
    c.Comes s (.ending (.ok (change.answer row))) { s.scene with store } := by
  obtain ⟨before, there, -⟩ := MemoryStore.mutate_eq_ok done
  obtain ⟨goes, writing⟩ := goes_of_taken h ready works ((Table.contains_iff ..).2 ⟨before, there⟩)
  obtain ⟨goes', committed⟩ :=
    writing.next (.committed rfl (State.askRow_holder open_ ..) done) rfl
  obtain ⟨t, goes'', stands, scene⟩ := comes_of_committed committed
  -- but for the rows all is as before
  have same := congrArg (fun k : Scene => { k with store }) (State.askRow_withdraw_scene open_ c.id
    (.writing wallet change))
  exact ⟨t, (goes.trans goes').trans goes'', stands, scene.trans same⟩

/-- **The change is refused:** nothing is written. -/
theorem comes_of_refusal {e : WalletError} (h : c.Stands s (.storing wallet change due))
    (ready : due ≤ s.clock) (works : s.conditions.fault = none)
    (there : s.store.rows.contains wallet) (open_ : s.rowLock wallet = .open_)
    (fails : s.store.mutate s.now wallet change.mutation = .error e) :
    c.Comes s (.ending (.error e)) s.scene := by
  obtain ⟨goes, writing⟩ := goes_of_taken h ready works there
  obtain ⟨goes', stands⟩ :=
    writing.next (.rejected rfl (State.askRow_holder open_ ..) fails) rfl
  refine ⟨_, goes.trans goes', stands, ?_⟩
  rw [State.fail_scene]
  exact State.askRow_withdraw_scene open_ ..

end Write

end Pieces

end Solo

/-! ### Where nobody is in the way -/

/-- **A scene at rest:** no lock is taken, the rows are sound, and neither the source nor the store
takes any time or is out of order. The cache, the rows, the clock and the answer of the source may be
anything. -/
structure Scene.AtRest (k : Scene) : Prop where
  refreshLock : k.refreshLock = .open_
  rowLock : ∀ wallet, k.rowLock wallet = .open_
  store : k.store.Sound
  instant : k.source.delay = 0
  conditions : k.conditions = ⟨0, none⟩

/-- A state whose scene is at rest. -/
abbrev State.AtRest (s : State) : Prop := s.scene.AtRest

/-- **Between calls a service is at rest,** whatever happened before. -/
theorem Reaches.atRest (h : Reaches s t) (start : s.Unused) (idle : ∀ id, t.calls.get? id = none)
    (instant : t.source.delay = 0) (conditions : t.conditions = ⟨0, none⟩) : t.AtRest := by
  have free {lock : State → Lock CallId} {share : Stage → Share}
      (booked : ∀ id, Booked lock share t id) (id : CallId) : (lock t).holder ≠ some id := by
    intro holds
    obtain ⟨call, live, -⟩ := (booked id).live_of_holder holds
    cases (idle id).symm.trans live
  refine ⟨?_, fun wallet => ?_, h.store_sound start.store, instant, conditions⟩
  · exact Lock.Sound.eq_open (refreshLock_goesBy.sound h start.refreshLock)
      (free fun id => (h.locked start id).refresh)
  · exact Lock.Sound.eq_open ((rowLock_goesBy wallet).sound h (start.rowLocks wallet))
      (free fun id => (h.locked start id).row wallet)

end Purse.Service
