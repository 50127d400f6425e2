import Purse.Service.State

/-!
# The steps of the service

`State.step?` moves one call on by one step, or says that the call has to wait. A step touches one
shared part: it asks for a permit or a lock, reads or writes a row, the cache, the source or the
receiver of events, or gives something back. Any interleaving of such steps is a run, together with
the `Move`s from outside: new calls, calls given up, time passing and changes of what is around the
service.

A permit or lock that is given back goes at once to whoever waited longest; the call that got it
finds out at its next step.
-/

namespace Purse.Service

namespace Quest

/-- Where a call goes when an exchange has found its rate: on to the store, or to its end if nothing
can be credited. -/
def exchangeAt (wallet : Uuid) (pair : CurrencyPair) (debit : MinorUnits) (amount rate : Float) (due : Nat) : Stage :=
  match Change.atRate pair debit amount rate with
  | .ok change => .storing wallet change due
  | .error e => .ending (.error e)

/-- **Looking into the cache:** where the call goes if it finds what it wants. A mutation that is
sent to the store begins at the time `due`. -/
def found? (quest : Quest) (cache : RateCache) (now due : Nat) : Option Stage :=
  match quest with
  | .listing => (cache.getAll now).map fun rs => .ending (.ok (.rates rs))
  | .quote pair => (cache.get now pair).map fun x => .ending (.ok (.rate x))
  | .exchange wallet pair debit amount =>
    (cache.get now pair).map fun x => exchangeAt wallet pair debit amount x due

/-- How a call ends that finds nothing even after a refresh. -/
def missing : Quest → Outcome
  | .listing => .ok (.rates [])
  | .quote pair | .exchange _ pair _ _ => .error (.rateUnavailable pair.sold.symbol pair.bought.symbol)

end Quest

namespace State

/-- When a mutation begins that is sent to the store now. -/
def storeDue (s : State) : Nat := s.clock + s.conditions.delay

/-- Beginning a mutation: its arguments are checked, then a permit is asked for. -/
def begin (s : State) (id : CallId) (order : Except WalletError Order) : State :=
  match order with
  | .error e => s.goto id (.ending (.error e))
  | .ok order =>
    { s with gate := s.gate.request (.call id) (s.gate.deadlineFrom s.clock) }.goto id (.queued order)

/-- The first step of a call. -/
def start (s : State) (id : CallId) (call : Call) : State :=
  match call.request with
  | .create user =>
    let row := Wallet.create call.drawn user s.now
    match s.store.create row with
    | .ok store => ({ s with store }.record (.created id row)).goto id (.ending (.ok (.wallet row)))
    | .error e => s.goto id (.ending (.error e))
  | .view _ => s.goto id (.locating none)
  | .deposit _ currency amount => s.begin id (Order.parseDeposit currency amount)
  | .withdraw _ currency amount => s.begin id (Order.parseWithdraw currency amount)
  | .exchange _ sold bought amount => s.begin id (Order.parseExchange sold bought amount)
  | .quote pair => s.goto id (.consulting (.quote pair))
  | .listing => s.goto id (.consulting .listing)

/-- At the gate: going on if a permit has come, giving up if the deadline has passed. -/
def admit? (s : State) (id : CallId) (order : Order) : Option State :=
  if s.gate.holds (.call id) then some (s.goto id (.locating (some order)))
  else if s.gate.isOverdue (.call id) s.clock then
    some ({ s with gate := s.gate.leave (.call id) }.goto id (.ending (.error .cancelled)))
  else none

/-- Finding the user's row and asking for its lock. -/
def locate (s : State) (id : CallId) (user : Uuid) (order : Option Order) : State :=
  match s.store.get user with
  | .ok row => (s.withRowLock row.id (·.request id)).goto id (.reading row.id order)
  | .error e => s.goto id (.ending (.error e))

/-- Where a call goes when it has read the row: a view is answered, a deposit or a withdrawal goes
to the store, an exchange that the balance does not allow ends, and any other looks for its rate. -/
def afterRead (s : State) (row : Wallet) (amount : Float) : Option Order → Stage
  | none => .ending (.ok (.wallet row))
  | some (.deposit currency units) => .storing row.id (.deposit currency units) s.storeDue
  | some (.withdraw currency units) => .storing row.id (.withdraw currency units) s.storeDue
  | some (.exchange pair debit) =>
    match row.debit pair.sold debit with
    | .ok _ => .consulting (.exchange row.id pair debit amount)
    | .error e => .ending (.error e)

/-- Reading a row under its lock, and giving the lock back. -/
def read? (s : State) (id : CallId) (wallet : Uuid) (amount : Float) (order : Option Order) : Option State :=
  if (s.rowLock wallet).holder = some id then
    let released := s.withRowLock wallet (·.withdraw id)
    match s.store.rows.get? wallet with
    | some row => some ((released.record (.read id row)).goto id (s.afterRead row amount order))
    | none => some (released.goto id (.ending (.error .walletNotFound)))
  else none

/-- Looking into the cache, and asking for the refresh lock if that is no use. -/
def consult (s : State) (id : CallId) (quest : Quest) : State :=
  match Quest.found? quest s.cache s.clock s.storeDue with
  | some stage => s.goto id stage
  | none => { s with refreshLock := s.refreshLock.request id }.goto id (.awaitingRefresh quest)

/-- The state with the refresh lock given back by a call. -/
def endRefresh (s : State) (id : CallId) : State :=
  { s with refreshLock := s.refreshLock.withdraw id }

/-- With the refresh lock, looking into the cache again, since another call may have refreshed it
meanwhile, and asking the source if that is no use either. -/
def recheck? (s : State) (id : CallId) (quest : Quest) : Option State :=
  if s.refreshLock.holder = some id then
    match Quest.found? quest s.cache s.clock s.storeDue with
    | some stage => some ((s.endRefresh id).goto id stage)
    | none =>
      some ((s.record (.fetchStarted id s.clock)).goto id (.fetching quest (s.clock + s.source.delay)))
  else none

/-- The answer of the source, when it is due. -/
def fetch? (s : State) (id : CallId) (quest : Quest) (due : Nat) : Option State :=
  if due ≤ s.clock then
    match s.source.answer with
    | .ok table => some (s.goto id (.refreshing quest table))
    | .error fault => some ((s.endRefresh id).goto id (.ending (.error (.partner fault))))
  else none

/-- The state with the cache refreshed, by a call or from outside. -/
def refreshCache (s : State) (by_ : Option CallId) (table : RateTable) : State :=
  ({ s with cache := s.cache.refresh s.clock table }.record (.refreshed by_ s.clock table)).notice
    (Notice.ofTable table)

/-- The last look into the cache, and giving the refresh lock back. -/
def serve (s : State) (id : CallId) (quest : Quest) : State :=
  let stage := (Quest.found? quest s.cache s.clock s.storeDue).getD (.ending quest.missing)
  (s.endRefresh id).goto id stage

/-- The end of a mutation that failed. -/
def fail (s : State) (id : CallId) (change : Change) (e : WalletError) : State :=
  (s.notice (Notice.ofFailure change.kind e)).goto id (.ending (.error e))

/-- The store takes a mutation up, when it is due: it fails, or finds the row and asks for its
lock. -/
def take? (s : State) (id : CallId) (wallet : Uuid) (change : Change) (due : Nat) : Option State :=
  if due ≤ s.clock then
    match s.conditions.fault with
    | some fault => some (s.fail id change (.storage fault))
    | none =>
      if s.store.rows.contains wallet then
        some ((s.withRowLock wallet (·.request id)).goto id (.writing wallet change))
      else some (s.fail id change .walletNotFound)
  else none

/-- **Changing a row** under its lock, and giving the lock back: the row is written as a whole or
not at all. -/
def write? (s : State) (id : CallId) (wallet : Uuid) (change : Change) : Option State :=
  if (s.rowLock wallet).holder = some id then
    let released := s.withRowLock wallet (·.withdraw id)
    match s.store.mutate s.now wallet change.mutation with
    | .ok (store, row) =>
      some (({ released with store }.record (.committed id change row)).goto id (.committed change row))
    | .error e => some (released.fail id change e)
  else none

/-- Giving the permit back after a commit. An amount below the threshold needs no event. -/
def conclude (s : State) (id : CallId) (call : Call) (change : Change) (row : Wallet) : State :=
  let answer := change.answer row
  let amount := call.request.amount
  let stage :=
    if amount < s.threshold then .ending (.ok answer)
    else .publishing answer (.committed call.drawn change.kind row amount change.currencyText s.now)
  { s with gate := s.gate.release (.call id) }.goto id stage

/-- Offering an event. A refusal is noticed and changes nothing else. -/
def publish (s : State) (id : CallId) (answer : Answer) (event : WalletEvent) : State :=
  let (sink, refusal) := s.sink.offer s.offered (event.key, event)
  let notices := match refusal with
    | some fault => [Notice.publishFailed event.kind event.id event.wallet (.partner fault)]
    | none => []
  (({ s with sink }.record (.published id event.key event refusal)).notice notices).goto id
    (.ending (.ok answer))

/-- The end of a call: it gives its permit back, if it holds one, and is gone. -/
def finish (s : State) (id : CallId) (outcome : Outcome) : State :=
  { s with
    gate := s.gate.release (.call id)
    calls := s.calls.erase id }.record (.ended id outcome)

/-- **One step of a call;** none if there is no such call or it has to wait. -/
def step? (s : State) (id : CallId) : Option State :=
  match s.calls.get? id with
  | none => none
  | some call =>
    match call.stage with
    | .arrived => some (s.start id call)
    | .queued order => s.admit? id order
    | .locating order => call.request.user?.map fun user => s.locate id user order
    | .reading wallet order => s.read? id wallet (call.request.amount) order
    | .consulting quest => some (s.consult id quest)
    | .awaitingRefresh quest => s.recheck? id quest
    | .fetching quest due => s.fetch? id quest due
    | .refreshing quest table => some ((s.refreshCache (some id) table).goto id (.serving quest))
    | .serving quest => some (s.serve id quest)
    | .storing wallet change due => s.take? id wallet change due
    | .writing wallet change => s.write? id wallet change
    | .committed change row => some (s.conclude id call change row)
    | .publishing answer event => some (s.publish id answer event)
    | .ending outcome => some (s.finish id outcome)

/-- **Giving a call up** from outside: it is gone at once, with its places in all queues, and what
it held is free or goes to whoever waited longest. -/
def drop (s : State) (id : CallId) : State :=
  if s.calls.contains id then
    { s with
      refreshLock := s.refreshLock.withdraw id
      rowLocks := s.rowLocks.mapValues (·.withdraw id)
      gate := (s.gate.leave (.call id)).release (.call id)
      calls := s.calls.erase id }.record (.dropped id)
  else s

/-- A new call. -/
def arrive (s : State) (id : CallId) (request : Request) (drawn : Uuid) : State :=
  { s with calls := s.calls.insert id ⟨request, drawn, .arrived⟩ }.record (.arrived id request)

end State

/-- What can happen from outside. -/
inductive Move where
  /-- A call with a new name begins. -/
  | arrive (id : CallId) (request : Request) (drawn : Uuid)
  /-- A call is given up. -/
  | drop (id : CallId)
  /-- Time passes. -/
  | tick (ms : Nat)
  /-- Somebody outside asks for a permit. -/
  | hold (n : Nat)
  /-- Somebody outside gives a permit back. -/
  | release (n : Nat)
  /-- The cache is refreshed from outside. -/
  | refreshCache (table : RateTable)
  /-- The source would answer something else from now on. -/
  | setSource (source : RateSource)
  /-- The store works differently from now on. -/
  | setConditions (conditions : StoreConditions)
  /-- The receiver of events changes. -/
  | setSink (sink : Sink)

/-- The state after a move from outside. -/
def State.move (s : State) : Move → State
  | .arrive id request drawn => s.arrive id request drawn
  | .drop id => s.drop id
  | .tick ms => { s with clock := s.clock + ms }
  | .hold n => { s with gate := s.gate.request (.outside n) none }
  | .release n => { s with gate := s.gate.release (.outside n) }
  | .refreshCache table => s.refreshCache none table
  | .setSource source => { s with source }
  | .setConditions conditions => { s with conditions }
  | .setSink sink => { s with sink }

/-- **The steps of a run:** any call moves on, or something happens from outside. A new call has a
name that was never used before. -/
inductive Step : State → State → Prop
  | call {s t : State} (id : CallId) : s.step? id = some t → Step s t
  | arrive {s : State} (id : CallId) (request : Request) (drawn : Uuid) :
      (∀ r, Occurrence.arrived id r ∉ s.history) → Step s (s.move (.arrive id request drawn))
  | outside {s : State} (m : Move) : (∀ id request drawn, m ≠ .arrive id request drawn) → Step s (s.move m)

/-- What a run can lead to. -/
inductive Reaches : State → State → Prop
  | refl (s : State) : Reaches s s
  | tail {s t u : State} : Reaches s t → Step t u → Reaches s u

end Purse.Service
