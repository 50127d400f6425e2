import Purse.Rate
import Purse.Table
import Purse.Wallet

/-!
# The database

A relational database as one connection sees it: the committed tables, an open transaction with its
own copy of them, and statements that read or change what the connection sees. `commit` publishes
the copy as a whole.

Statements can fail. What fails is part of the database (`Database.faults`), so that every statement
of a protocol can be made to fail; a statement that fails changes nothing, except that a failing
`commit` loses its transaction. Every statement sent is written down.

The columns of a wallet are checked when a row is added: balances against the constraint on each of
them, the timestamp against what its column can hold (`Tables.holdsTime`). Left out are other
connections, and so whatever makes a statement wait, and that a column cuts a timestamp to whole
microseconds: a row is read with the timestamp that was written.
-/

namespace Purse

/-- The statements that this library sends. -/
inductive Statement where
  | begin_
  | commit
  | rollback
  | createWallets
  | createRates
  | insertWallet
  | lockWallet
  | selectWallet
  | updateWallet
  | selectRate
  | selectRates
deriving DecidableEq, Repr

namespace Statement

def all : List Statement :=
  [begin_, commit, rollback, createWallets, createRates, insertWallet, lockWallet, selectWallet, updateWallet,
    selectRate, selectRates]

def name : Statement → String
  | begin_ => "begin"
  | commit => "commit"
  | rollback => "rollback"
  | createWallets => "create_wallets"
  | createRates => "create_exchange_rates"
  | insertWallet => "insert_wallet"
  | lockWallet => "lock_wallet"
  | selectWallet => "select_wallet"
  | updateWallet => "update_wallet"
  | selectRate => "select_rate"
  | selectRates => "select_rates"

def ofName? (s : String) : Option Statement := all.find? fun (st : Statement) => st.name = s

end Statement

/-- A row of the table of rates. Its symbols may be any text. -/
structure RateRow where
  sold : String
  bought : String
  rate : Float

/-- The contents of the tables. -/
structure Tables where
  wallets : Table Uuid Wallet
  rates : List RateRow

namespace RateRow

/-- Whether a row of rates comes no later than another, by the bytes of its symbols. -/
def le (a b : RateRow) : Bool :=
  a.sold < b.sold || (a.sold = b.sold && !(b.bought < a.bought))

end RateRow

namespace Tables

/-- The first balance below zero, which no row may have. -/
def negativeBalance? (w : Wallet) : Option Currency :=
  Currency.all.find? fun (c : Currency) => (w.balance c).units < 0

def columnName : Currency → String
  | .usd => "usd"
  | .rub => "rub"
  | .eur => "eur"

/-- The failure of a row whose balance is below zero. -/
def negativeRow (c : Currency) : DatabaseError :=
  .rejected "23514"
    ("new row for relation \"wallets\" violates check constraint \"wallets_" ++ columnName c ++ "_check\"")

/-- The failure of a row whose identifier or user is taken. -/
def takenRow (constraint : String) : DatabaseError :=
  .rejected DatabaseError.uniqueViolation
    ("duplicate key value violates unique constraint \"" ++ constraint ++ "\"")

/-- What is sent for an instant: microseconds since the start of 2000, cut off toward it. -/
def sentTime (t : Timestamp) : Int :=
  ((t.seconds - 946684800) * Timestamp.nanosPerSecond + t.nanos).tdiv 1000

/-- Whether the column of timestamps can hold an instant. It begins with 24 November 4714 BC, and
ends with the year 294276. -/
def holdsTime (t : Timestamp) : Bool :=
  -211813488000000000 ≤ sentTime t && sentTime t < 9223371331200000000

/-- The failure of a row whose timestamp the column cannot hold. -/
def untimelyRow : DatabaseError := .rejected "22008" "timestamp out of range"

def ofUser? (t : Tables) (user : Uuid) : Option Wallet :=
  t.wallets.values.find? fun (w : Wallet) => w.user = user

/-- Why a row cannot be added, if it cannot: a timestamp that is out of range, a balance below zero,
or an identifier or user that is taken. -/
def obstacle? (t : Tables) (w : Wallet) : Option DatabaseError :=
  if !holdsTime w.updatedAt then some untimelyRow
  else
    match negativeBalance? w with
    | some c => some (negativeRow c)
    | none =>
      if t.wallets.contains w.id then some (takenRow "wallets_pkey")
      else if (t.ofUser? w.user).isSome then some (takenRow "wallets_user_id_key")
      else none

/-- A row with the balances and the timestamp of another. -/
def withBalancesOf (row values : Wallet) : Wallet :=
  { row with usd := values.usd, rub := values.rub, eur := values.eur, updatedAt := values.updatedAt }

end Tables

/-- A database, as one connection sees it. -/
structure Database where
  /-- Whether the tables have been created. -/
  migrated : Bool
  committed : Tables
  /-- The copy that an open transaction works on. -/
  transaction : Option Tables
  /-- The statements that fail, and how. -/
  faults : Table Statement DatabaseError
  /-- The statements sent so far, the latest first. -/
  sent : List Statement

namespace Database

/-- What a statement leads to: the database after it, and the reply or the failure. -/
abbrev Reply (α : Type) := Database × Except DatabaseError α

/-- A database with these contents and no failures. -/
def create (migrated : Bool) (wallets : List Wallet) (rates : List RateRow) : Database :=
  ⟨migrated, ⟨.ofList (wallets.map fun w => (w.id, w)), rates⟩, none, .empty, []⟩

/-- The database behind a pool of connections that has been closed: no statement reaches it. -/
def closed (db : Database) : Database :=
  { db with faults := .ofList (Statement.all.map fun st => (st, .poolClosed)) }

/-- What the connection sees: the copy of an open transaction, or what is committed. -/
def visible (db : Database) : Tables := db.transaction.getD db.committed

/-- The database with what the connection sees replaced. -/
def write (db : Database) (t : Tables) : Database :=
  match db.transaction with
  | some _ => { db with transaction := some t }
  | none => { db with committed := t }

/-- Sending a statement: it fails if it is to fail, and otherwise has its effect. -/
def send {α : Type} (db : Database) (st : Statement) (effect : Database → Reply α) : Reply α :=
  let db := { db with sent := st :: db.sent }
  match db.faults.get? st with
  | some e => (db, .error e)
  | none => effect db

/-- The failure of a statement that needs a table which has not been created. -/
def missingTable (table : String) : DatabaseError :=
  .rejected "42P01" ("relation \"" ++ table ++ "\" does not exist")

/-- An effect that needs a table. -/
def needing {α : Type} (table : String) (effect : Database → Reply α) (db : Database) : Reply α :=
  if db.migrated then effect db else (db, .error (missingTable table))

/-! ### Transactions -/

/-- Opening a transaction. It begins with a copy of what is committed. -/
def begin_ (db : Database) : Reply Unit :=
  db.send .begin_ fun db => ({ db with transaction := some db.committed }, .ok ())

/-- Publishing what the transaction did. The transaction is over even if that fails. -/
def commit (db : Database) : Reply Unit :=
  let (db, r) := db.send .commit fun db => ({ db with committed := db.visible }, .ok ())
  ({ db with transaction := none }, r)

/-- Undoing what the transaction did. -/
def rollback (db : Database) : Reply Unit :=
  db.send .rollback fun db => ({ db with transaction := none }, .ok ())

/-- Walking away from an open transaction. It is undone; a connection on which even that fails is
thrown away, and its transaction with it. -/
def abandon (db : Database) : Database :=
  { (db.rollback).1 with transaction := none }

/-! ### Tables -/

/-- Creating the table of wallets, and with it the table of rates. -/
def createWallets (db : Database) : Reply Unit :=
  db.send .createWallets fun db => ({ db with migrated := true }, .ok ())

/-- Creating the table of rates, if it is still missing. -/
def createRates (db : Database) : Reply Unit :=
  db.send .createRates fun db => ({ db with migrated := true }, .ok ())

/-- Adding a row. -/
def insertWallet (db : Database) (w : Wallet) : Reply Unit :=
  db.send .insertWallet <| needing "wallets" fun db =>
    match db.visible.obstacle? w with
    | some e => (db, .error e)
    | none => (db.write { db.visible with wallets := db.visible.wallets.insert w.id w }, .ok ())

/-- The row with an identifier, locked until the transaction is over. -/
def lockWallet (db : Database) (id : Uuid) : Reply (Option Wallet) :=
  db.send .lockWallet <| needing "wallets" fun db => (db, .ok (db.visible.wallets.get? id))

/-- The row of a user. -/
def selectWallet (db : Database) (user : Uuid) : Reply (Option Wallet) :=
  db.send .selectWallet <| needing "wallets" fun db => (db, .ok (db.visible.ofUser? user))

/-- Writing balances and timestamp of the row with an identifier. The timestamp is the time of day at
which the statement is sent, and the column can hold that. -/
def updateWallet (db : Database) (id : Uuid) (values : Wallet) : Reply Unit :=
  db.send .updateWallet <| needing "wallets" fun db =>
    match db.visible.wallets.get? id, Tables.negativeBalance? values with
    | some _, some c => (db, .error (Tables.negativeRow c))
    | some row, none =>
      (db.write { db.visible with wallets := db.visible.wallets.insert id (Tables.withBalancesOf row values) }, .ok ())
    | none, _ => (db, .ok ())

/-- The rate of the row with these two symbols. -/
def selectRate (db : Database) (p : CurrencyPair) : Reply (Option Float) :=
  db.send .selectRate <| needing "exchange_rates" fun db =>
    let row := db.visible.rates.find? fun (r : RateRow) => r.sold = p.sold.symbol && r.bought = p.bought.symbol
    (db, .ok (row.map RateRow.rate))

/-- All rows of rates, sorted. -/
def selectRates (db : Database) : Reply (List RateRow) :=
  db.send .selectRates <| needing "exchange_rates" fun db => (db, .ok (db.visible.rates.mergeSort RateRow.le))

/-- The committed rows of wallets, sorted by user. -/
def committedRows (db : Database) : List Wallet :=
  db.committed.wallets.values.mergeSort fun a b => a.user.le b.user

end Database

end Purse
