import Purse.Event
import Purse.Wallet.Document

/-!
# Events as documents

An event is written as a record; its details are left out if there are none. A receiver may be no
more than a log, into which the document is written.
-/

namespace Purse

/-- A line of a log: whom it is for, how much it matters, what it says, and what it carries. -/
structure LogLine where
  target : String
  level : String
  message : String
  fields : List (String × String)
deriving DecidableEq, Repr

namespace WalletEvent

def memberNames : List String :=
  ["event_id", "event", "user_id", "wallet_id", "amount", "currency", "timestamp", "details"]

/-- An event as a record. -/
def toJson (e : WalletEvent) : Json :=
  .ofMembers <| [
    ("event_id", .ofString e.id.text),
    ("event", .ofString e.kind.name),
    ("user_id", .ofString e.user.text),
    ("wallet_id", .ofString e.wallet.text),
    ("amount", .ofDouble e.amount),
    ("currency", .ofString e.currency),
    ("timestamp", .ofString e.timestamp.text)] ++
    (e.details.map fun details => ("details", Json.ofString details)).toList

/-- The event that a record describes. -/
def ofJson? (v : Json) : Option WalletEvent := do
  let [id, kind, user, wallet, amount, currency, timestamp, details] ← v.record? memberNames | none
  pure {
    id := ← Json.required? Json.uuid? id
    kind := ← Json.required? (Json.name? EventKind.ofName?) kind
    user := ← Json.required? Json.uuid? user
    wallet := ← Json.required? Json.uuid? wallet
    amount := ← Json.required? Json.double? amount
    currency := ← Json.required? Json.text? currency
    timestamp := ← Json.required? Json.timestamp? timestamp
    details := ← Json.defaulted? (Json.optional? Json.text?) none details }

def document (e : WalletEvent) : String := e.toJson.compactText

def ofDocument? (s : String) : Option WalletEvent := do ofJson? (← Json.ofText? s)

/-- The line of the log that is all the publishing of an event under a key does, where only the log
receives it. -/
def logLine (e : WalletEvent) (key : String) : LogLine :=
  ⟨"wallet_events", "INFO", "wallet event", [("key", key), ("payload", e.document)]⟩

end WalletEvent

end Purse
