import Purse.Database.Rates
import Purse.Database.Wallets
import Purse.Service.Request
import Purse.Settings

/-!
# The service over a database, for one caller

A caller who has the service to himself finds every permit and every lock free and the cache as the
last request left it, so a request is served from its beginning to its end: its arguments are
checked, the wallet is looked up, an exchange that the balance does not allow ends there, the rate
is found, and the mutation is one transaction. Nobody subscribes to events here.
-/

namespace Purse

/-- A service over a database: its rates, and the database. Times are milliseconds of a clock of its
own. -/
structure DatabaseService where
  database : Database
  cache : RateCache
  /-- The table of a service that does not take its rates from the database. -/
  fixed : Option FixedRates

namespace DatabaseService

/-- A service on given settings that has just been started. -/
def start (c : Settings) (db : Database) : DatabaseService where
  database := db
  cache := c.rateCache
  fixed := match c.rates.source with
    | .database => none
    | .fixed => some c.fixedRates

/-- Something that a service does: the service changes, and there is a result or a failure. -/
abbrev Action (α : Type) := ExceptT WalletError (StateM DatabaseService) α

/-- Something done to the database. -/
def onDatabase {α : Type} (f : Database → Database × Except WalletError α) : Action α :=
  ExceptT.mk fun s =>
    let (db, r) := f s.database
    (r, { s with database := db })

/-- The table that the source of rates gives now. -/
def fetch : Action RateTable := do
  match (← get).fixed with
  | some source => pure source.getAll
  | none => onDatabase fun db =>
    let (db, r, _) := db.getAllRates
    (db, r)

/-- What a look into the cache finds, after a refresh if it finds nothing at first. -/
def consult {α : Type} (now : Nat) (found? : RateCache → Option α) : Action (Option α) := do
  match found? (← get).cache with
  | some a => pure (some a)
  | none =>
    let table ← fetch
    modify fun s => { s with cache := s.cache.refresh now table }
    pure (found? (← get).cache)

def rate (now : Nat) (p : CurrencyPair) : Action Float := do
  match ← consult now fun cache => cache.get now p with
  | some x => pure x
  | none => throw (.rateUnavailable p.sold.symbol p.bought.symbol)

/-- A change of the row of a wallet, which has been read. -/
def change (time : Timestamp) (row : Wallet) (c : Change) : Action Answer := do
  let written ← onDatabase fun db =>
    let m := db.mutate time row.id c.mutation
    (m.database, m.result)
  pure (c.answer written)

/-- Carrying out an order on the wallet of a user. -/
def carryOut (now : Nat) (time : Timestamp) (user : Uuid) (amount : Float) (order : Order) : Action Answer := do
  let row ← onDatabase fun db => db.getWallet user
  match order with
  | .deposit currency units => change time row (.deposit currency units)
  | .withdraw currency units => change time row (.withdraw currency units)
  | .exchange pair debit => do
    let _ ← (row.debit pair.sold debit : Except WalletError Wallet)
    let rate ← rate now pair
    change time row (← Change.atRate pair debit amount rate)

/-- **Serving a request,** at a time of the clock and of the day. A new wallet gets the identifier
`drawn`. -/
def serve (now : Nat) (time : Timestamp) (drawn : Uuid) : Request → Action Answer
  | .create user => do
    let row := Wallet.create drawn user time
    onDatabase fun db => db.createWallet row
    pure (.wallet row)
  | .view user => do pure (.wallet (← onDatabase fun db => db.getWallet user))
  | .deposit user currency amount => do
    carryOut now time user amount (← Order.parseDeposit currency amount)
  | .withdraw user currency amount => do
    carryOut now time user amount (← Order.parseWithdraw currency amount)
  | .exchange user sold bought amount => do
    carryOut now time user amount (← Order.parseExchange sold bought amount)
  | .quote pair => do pure (.rate (← rate now pair))
  | .listing => do pure (.rates ((← consult now fun cache => cache.getAll now).getD []))

end DatabaseService

end Purse
