import Purse.Event.Channel
import Purse.Gate
import Purse.Lock
import Purse.Notice
import Purse.Rate.Cache
import Purse.Service.Request
import Purse.Settings
import Purse.Store.Memory

/-!
# The state of the service

The service is a machine. Its state holds the shared parts (gate, locks, rows, cache) and every call
in progress, each at a `Stage`: a place where a call touches one shared part, or where it can wait.
What has happened so far is kept as a list of occurrences, so that statements about whole runs are
statements about one state.

Around the service are a source of rates, a receiver of events and the conditions under which the
store works. They are part of the state too, and may change at any time.
-/

namespace Purse.Service

/-- The name of a call. -/
abbrev CallId := Nat

/-- Who can hold a permit: a call, or somebody outside the service. -/
inductive Party where
  | call (id : CallId)
  | outside (n : Nat)
deriving DecidableEq

/-- What a call wants rates for. -/
inductive Quest where
  /-- All rates. -/
  | listing
  /-- The rate of a pair. -/
  | quote (pair : CurrencyPair)
  /-- The rate of an exchange in a wallet, with what is to be debited and the amount as given. -/
  | exchange (wallet : Uuid) (pair : CurrencyPair) (debit : MinorUnits) (amount : Float)

/-- Where a call is. -/
inductive Stage where
  /-- It has not begun. -/
  | arrived
  /-- It stands at the gate, waiting or just admitted. -/
  | queued (order : Order)
  /-- It is about to look for the user's wallet, to show it or to carry out an order. -/
  | locating (order : Option Order)
  /-- It has asked for the lock of a row that it wants to read. -/
  | reading (wallet : Uuid) (order : Option Order)
  /-- It is about to look into the cache. -/
  | consulting (quest : Quest)
  /-- It has asked for the refresh lock. -/
  | awaitingRefresh (quest : Quest)
  /-- It holds the refresh lock and waits for the source, which answers at a given time. -/
  | fetching (quest : Quest) (due : Nat)
  /-- It holds the refresh lock and the source's answer. -/
  | refreshing (quest : Quest) (table : RateTable)
  /-- It holds the refresh lock and has refreshed the cache. -/
  | serving (quest : Quest)
  /-- Its mutation is with the store, which begins at a given time. -/
  | storing (wallet : Uuid) (change : Change) (due : Nat)
  /-- It has asked for the lock of a row that it wants to write. -/
  | writing (wallet : Uuid) (change : Change)
  /-- Its mutation is committed; the row is as it was written. -/
  | committed (change : Change) (row : Wallet)
  /-- It is about to publish an event. -/
  | publishing (answer : Answer) (event : WalletEvent)
  /-- It is about to end. -/
  | ending (outcome : Outcome)

namespace Stage

/-- Whether the call's mutation is with the store. -/
def isMutating : Stage → Bool
  | storing .. | writing .. => true
  | _ => false

/-- Whether the call is between its admission and the end of its mutation. -/
def isAdmitted : Stage → Bool
  | locating (some _) | reading _ (some _) | storing .. | writing .. | committed .. => true
  | consulting (.exchange ..) | awaitingRefresh (.exchange ..) | fetching (.exchange ..) _ |
    refreshing (.exchange ..) _ | serving (.exchange ..) => true
  | _ => false

/-- When the call goes on by itself, if it waits for a time. -/
def due? : Stage → Option Nat
  | fetching _ due | storing _ _ due => some due
  | _ => none

end Stage

/-- A call in progress. -/
structure Call where
  request : Request
  /-- The identifier drawn for the call: that of the new wallet, or of the event. -/
  drawn : Uuid
  stage : Stage

/-- The source of rates: what it would answer now, and how long an answer takes. -/
structure RateSource where
  table : RateTable
  fault : Option PartnerFault
  delay : Nat

namespace RateSource

/-- What the source answers now. -/
def answer (s : RateSource) : Except PartnerFault RateTable :=
  match s.fault with
  | some fault => .error fault
  | none => .ok s.table

end RateSource

/-- Under which conditions mutations are carried out: how long one takes before the row is looked
at, and whether it fails then. A wallet is created or looked up at once, and that fails only for
what the rows say. -/
structure StoreConditions where
  delay : Nat
  fault : Option StorageFault

/-- What subscribers of events get: the key and the event. -/
abbrev Published := String × WalletEvent

/-- The name of a subscriber of events. -/
abbrev SubscriberId := Nat

/-- The receiver of events. -/
inductive Sink where
  /-- A receiver that refuses some events: the `n`-th one offered is refused for a reason, or
  not. -/
  | scripted (refusal : Nat → Option PartnerFault)
  /-- An event bus. -/
  | bus (channel : Channel SubscriberId Published)

namespace Sink

/-- A receiver that takes everything. -/
def accepting : Sink := scripted fun _ => none

/-- A receiver that takes nothing. -/
def refusing (fault : PartnerFault) : Sink := scripted fun _ => some fault

/-- Offering the `n`-th event: the receiver after that, and why it was refused, if it was. -/
def offer (sink : Sink) (n : Nat) (p : Published) : Sink × Option PartnerFault :=
  match sink with
  | scripted refusal => (sink, refusal n)
  | bus channel =>
    match channel.publish p with
    | .ok next => (bus next, none)
    | .error fault => (sink, some fault)

end Sink

/-- Something that happened. -/
inductive Occurrence where
  | arrived (id : CallId) (request : Request)
  /-- A wallet was added. -/
  | created (id : CallId) (row : Wallet)
  /-- A row was read under its lock. -/
  | read (id : CallId) (row : Wallet)
  /-- A row was changed under its lock; it is as it was written. -/
  | committed (id : CallId) (change : Change) (row : Wallet)
  /-- The source was asked. -/
  | fetchStarted (id : CallId) (time : Nat)
  /-- The cache was refreshed, by a call or from outside. -/
  | refreshed (id : Option CallId) (time : Nat) (table : RateTable)
  /-- An event was offered, and refused for a reason or not. -/
  | published (id : CallId) (key : String) (event : WalletEvent) (refusal : Option PartnerFault)
  | noticed (notice : Notice)
  | ended (id : CallId) (outcome : Outcome)
  /-- A call was given up from outside. -/
  | dropped (id : CallId)

/-- **The state of the service** and of what is around it. -/
structure State where
  /-- Milliseconds since the start. -/
  clock : Nat
  /-- The time of the start. -/
  origin : Timestamp
  gate : Gate Party
  /-- Held by the one call that may ask the source. -/
  refreshLock : Lock CallId
  /-- The lock of each row that was ever locked. -/
  rowLocks : Table Uuid (Lock CallId)
  store : MemoryStore
  cache : RateCache
  /-- The least amount worth an event. -/
  threshold : Float
  conditions : StoreConditions
  source : RateSource
  sink : Sink
  calls : Table CallId Call
  /-- What has happened, the latest first. -/
  history : List Occurrence

namespace State

/-- The threshold of a service that is not told another. -/
def defaultThreshold : Float := 30000.0

/-- A service that has not been called, with nothing in its store and its cache. -/
def initial (origin : Timestamp) (gate : Gate Party) (ttl : Nat) (threshold : Float) (source : RateSource)
    (conditions : StoreConditions) (sink : Sink) : State where
  clock := 0
  origin
  gate
  refreshLock := .open_
  rowLocks := .empty
  store := .empty
  cache := .create ttl
  threshold
  conditions
  source
  sink
  calls := .empty
  history := []

/-- A service on given settings, with a gate made from them, that serves the table of the
settings. -/
def ofSettings (c : Settings) (origin : Timestamp) (gate : Gate Party) (conditions : StoreConditions) (delay : Nat)
    (sink : Sink) : State :=
  initial origin gate c.rateCache.ttl c.events.notifyThreshold ⟨c.rates.table, none, delay⟩ conditions sink

/-- A service on given settings, if a gate can be made from them. -/
def ofSettings? (c : Settings) (origin : Timestamp) (conditions : StoreConditions) (delay : Nat) (sink : Sink) :
    Option State :=
  c.gate?.map fun gate => ofSettings c origin gate conditions delay sink

/-- The time of day. -/
def now (s : State) : Timestamp := s.origin.afterMillis s.clock

def rowLock (s : State) (wallet : Uuid) : Lock CallId := (s.rowLocks.get? wallet).getD .open_

/-- The state with the lock of a row changed. -/
def withRowLock (s : State) (wallet : Uuid) (f : Lock CallId → Lock CallId) : State :=
  { s with rowLocks := s.rowLocks.insert wallet (f (s.rowLock wallet)) }

/-- The state after something happened. -/
def record (s : State) (o : Occurrence) : State := { s with history := o :: s.history }

/-- The state after some notices were written. -/
def notice (s : State) (ns : List Notice) : State :=
  ns.foldl (fun s n => s.record (.noticed n)) s

/-- The state with a call at another stage. -/
def goto (s : State) (id : CallId) (stage : Stage) : State :=
  { s with calls := s.calls.modify id fun call => { call with stage } }

/-- The number of events offered so far. -/
def offered (s : State) : Nat :=
  s.history.countP fun o => match o with | .published .. => true | _ => false

/-- The number of times that the source was asked. -/
def fetches (s : State) : Nat :=
  s.history.countP fun o => match o with | .fetchStarted .. => true | _ => false

/-- The number of mutations that are with the store. -/
def mutating (s : State) : Nat :=
  s.calls.values.countP fun call => call.stage.isMutating

end State

end Purse.Service
