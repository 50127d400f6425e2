import Purse.Event

/-!
# Notices

What is written to the log because somebody should look at it. A notice changes nothing: the
operation that gave rise to it goes on, or fails, as if it had not been written.
-/

namespace Purse

/-- How much a notice matters. -/
inductive Severity where
  | warning
  | error
deriving DecidableEq, Repr

def Severity.name : Severity → String
  | warning => "WARN"
  | error => "ERROR"

/-- Something that somebody should look at. -/
inductive Notice where
  /-- An event could not be published. -/
  | publishFailed (kind : EventKind) (event wallet : Uuid) (cause : WalletError)
  /-- The store broke down during a mutation. -/
  | storageFailed (kind : EventKind) (cause : WalletError)
  /-- A rate from a source is not served. -/
  | rateIgnored (rate : ExchangeRate)
  /-- A row of rates names a currency that is not supported. -/
  | rateRowSkipped (sold bought : String)
  /-- A row could not be written. -/
  | writeFailed (wallet : Uuid) (cause : DatabaseError)
  /-- A transaction could not be rolled back. -/
  | rollbackFailed (wallet : Uuid) (cause : DatabaseError)

namespace Notice

/-- How much the notice matters. -/
def severity : Notice → Severity
  | storageFailed .. | writeFailed .. => .error
  | _ => .warning

/-- The wording of a notice. -/
def message : Notice → String
  | publishFailed kind event wallet cause =>
    "Failed to publish " ++ kind.title ++ " event " ++ event.text ++ " for wallet " ++ wallet.text ++ ": " ++
      cause.message
  | storageFailed kind cause => "Storage failure during " ++ kind.name ++ ": " ++ cause.message
  | rateIgnored rate => "Ignoring unusable rate " ++ rate.text
  | rateRowSkipped sold bought => "Skipping rate row for unsupported pair " ++ sold ++ "->" ++ bought
  | writeFailed wallet cause => "Failed to write wallet " ++ wallet.text ++ ": " ++ cause.message
  | rollbackFailed wallet cause => "Rollback of wallet " ++ wallet.text ++ " failed: " ++ cause.message

/-- The notices of a table that is taken into the cache: one for each unusable entry, in order. -/
def ofTable (t : RateTable) : List Notice := t.unusable.map rateIgnored

/-- The notice of a mutation that failed: only a breakdown of the store is worth one. -/
def ofFailure (kind : EventKind) : WalletError → List Notice
  | .storage fault => [storageFailed kind (.storage fault)]
  | _ => []

end Notice

end Purse
