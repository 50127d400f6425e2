import Purse.Currency
import Purse.Uuid

/-!
# Causes of failure

Every operation fails for one of the causes of `WalletError`; the wording is in `message`. A failure
of the rows' storage or of an outer service keeps its own cause, and `WalletError.publicMessage`
hides it from callers.
-/

namespace Purse

/-- Why a statement sent to a database gave no answer. -/
inductive DatabaseError where
  /-- The statement found no row. -/
  | rowNotFound
  /-- No connection became free in time. -/
  | poolTimedOut
  /-- The pool of connections had been closed. -/
  | poolClosed
  /-- The task that serves the connection had died. -/
  | workerCrashed
  /-- The server sent something that makes no sense. -/
  | protocolViolation (detail : String)
  /-- A row lacks a column. -/
  | columnNotFound (name : String)
  /-- A type is unknown to the server. -/
  | typeNotFound (name : String)
  /-- The connection settings cannot be used. -/
  | badConfiguration (detail : String)
  /-- The server rejected the statement, with a code of five characters and a message. -/
  | rejected (code : String) (detail : String)
deriving DecidableEq, Repr

namespace DatabaseError

/-- The wording of a database failure. -/
def message : DatabaseError → String
  | rowNotFound => "no rows returned by a query that expected to return at least one row"
  | poolTimedOut => "pool timed out while waiting for an open connection"
  | poolClosed => "attempted to acquire a connection on a closed pool"
  | workerCrashed => "attempted to communicate with a crashed background worker"
  | protocolViolation detail => "encountered unexpected or invalid data: " ++ detail
  | columnNotFound name => "no column found for name: " ++ name
  | typeNotFound name => "type named " ++ name ++ " not found"
  | badConfiguration detail => "error with configuration: " ++ detail
  | rejected _ detail => "error returned from database: " ++ detail

/-- The code of a violated uniqueness constraint. -/
def uniqueViolation : String := "23505"

/-- Whether the server rejected the statement for a value that is already taken. -/
def isUniqueViolation : DatabaseError → Bool
  | rejected code _ => code = uniqueViolation
  | _ => false

end DatabaseError

/-- Why the rows could not be read or changed. -/
inductive StorageFault where
  /-- The balance would not fit. -/
  | balanceOverflow (currency : Currency)
  /-- The user has a wallet. -/
  | userTaken (user : Uuid)
  /-- The identifier names another wallet. -/
  | walletTaken (wallet : Uuid)
  /-- The database failed. -/
  | database (error : DatabaseError)
  /-- The store itself says why. -/
  | reported (reason : String)
deriving DecidableEq

def StorageFault.message : StorageFault → String
  | balanceOverflow currency => currency.symbol ++ " balance overflow"
  | userTaken user => "wallet already exists for user " ++ user.text
  | walletTaken wallet => "duplicate wallet id " ++ wallet.text
  | database error => error.message
  | reported reason => reason

/-- Why a partner of the service, a source of rates or a receiver of events, failed. -/
inductive PartnerFault where
  /-- Nobody listens. -/
  | noSubscribers
  /-- The database failed. -/
  | database (error : DatabaseError)
  /-- The other side itself says why. -/
  | reported (reason : String)
deriving DecidableEq

def PartnerFault.message : PartnerFault → String
  | noSubscribers => "no event subscribers"
  | database error => error.message
  | reported reason => reason

/-- Why an operation failed. -/
inductive WalletError where
  /-- The amount is zero, negative, not finite, too large or less than one minor unit. -/
  | invalidAmount
  /-- The symbol names no supported currency. -/
  | unsupportedCurrency (symbol : String)
  /-- An exchange of a currency into itself. -/
  | sameCurrency
  /-- The balance is too low. -/
  | insufficientFunds
  /-- There is no such wallet. -/
  | walletNotFound
  /-- The source has no rate for the pair, even when asked again. -/
  | rateUnavailable (sold bought : String)
  /-- The store failed. -/
  | storage (fault : StorageFault)
  /-- The source of rates or the receiver of events failed. -/
  | partner (fault : PartnerFault)
  /-- The caller's turn at the gate did not come in time. -/
  | cancelled
deriving DecidableEq

namespace WalletError

/-- The wording of a failure. -/
def message : WalletError → String
  | invalidAmount => "invalid amount"
  | unsupportedCurrency symbol => "unsupported currency: " ++ symbol
  | sameCurrency => "cannot exchange a currency into itself"
  | insufficientFunds => "insufficient funds"
  | walletNotFound => "wallet not found"
  | rateUnavailable sold bought => "rate from " ++ sold ++ " to " ++ bought ++ " not found even after refresh"
  | storage fault => "storage error: " ++ fault.message
  | partner fault => "upstream error: " ++ fault.message
  | cancelled => "operation cancelled before admission"

/-- Whether the failure is an answer in the domain's own terms, and not a breakdown of something
around it. -/
def isDomain : WalletError → Bool
  | storage _ | partner _ | cancelled => false
  | _ => true

/-- What a caller outside is told: nothing of the insides of a breakdown. -/
def publicMessage (e : WalletError) : String :=
  if e.isDomain || e = cancelled then e.message else "internal error"

/-- A failed statement as a failure of an operation: a missing row is a missing wallet. -/
def ofDatabase : DatabaseError → WalletError
  | .rowNotFound => walletNotFound
  | error => storage (.database error)

end WalletError

end Purse
