import Purse.Rate
import Purse.Timestamp
import Purse.Uuid
import Purse.Wallet

/-!
# Events

An event tells that a large mutation of a wallet was committed. It carries the amount as the caller
asked for it, in units of the (sold) currency. Events are a side channel: whether one is received
changes nothing.
-/

namespace Purse

/-- What kind of mutation an event tells of. -/
inductive EventKind where
  | deposit
  | withdraw
  | exchange
deriving DecidableEq, Repr

namespace EventKind

def all : List EventKind := [deposit, withdraw, exchange]

def name : EventKind → String
  | deposit => "deposit"
  | withdraw => "withdraw"
  | exchange => "exchange"

/-- The name of a kind in messages. -/
def title : EventKind → String
  | deposit => "Deposit"
  | withdraw => "Withdraw"
  | exchange => "Exchange"

def ofName? (s : String) : Option EventKind :=
  all.find? fun (k : EventKind) => k.name = s

end EventKind

/-- The notice of a committed mutation. -/
structure WalletEvent where
  id : Uuid
  kind : EventKind
  user : Uuid
  wallet : Uuid
  /-- The requested amount, in units of the (sold) currency. -/
  amount : Float
  /-- The symbol of the currency, or the text of the pair. -/
  currency : String
  timestamp : Timestamp
  details : Option String

namespace WalletEvent

/-- The event of a mutation that was committed on a row. -/
def committed (id : Uuid) (kind : EventKind) (row : Wallet) (amount : Float) (currency : String)
    (now : Timestamp) : WalletEvent where
  id
  kind
  user := row.user
  wallet := row.id
  amount
  currency
  timestamp := now
  details := none

/-- The key under which an event is published: events of one user share it. -/
def key (e : WalletEvent) : String := e.user.text

end WalletEvent

end Purse
