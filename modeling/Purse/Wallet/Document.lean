import Purse.Json.Decode
import Purse.Json.Reader
import Purse.Timestamp.Text
import Purse.Wallet

/-!
# Wallets as documents

A wallet is written as a record of its identifiers, its balances in minor units and its timestamp.
For an operator it is shown with its balances in units of the currency.
-/

namespace Purse

namespace Json

/-- An identifier in any spelling. -/
def uuid? (v : Json) : Option Uuid := do Uuid.ofText? (← v.text?)

def timestamp? (v : Json) : Option Timestamp := do Timestamp.ofText? (← v.text?)

def minorUnits? (v : Json) : Option MinorUnits := do MinorUnits.ofInt? (← v.int?)

end Json

namespace Wallet

def memberNames : List String := ["id", "user_id", "usd", "rub", "eur", "updated_at"]

/-- A wallet as a record. -/
def toJson (w : Wallet) : Json :=
  .ofMembers [
    ("id", .ofString w.id.text),
    ("user_id", .ofString w.user.text),
    ("usd", .ofInt w.usd.units),
    ("rub", .ofInt w.rub.units),
    ("eur", .ofInt w.eur.units),
    ("updated_at", .ofString w.updatedAt.text)]

/-- The wallet that a record describes. -/
def ofJson? (v : Json) : Option Wallet := do
  let [id, user, usd, rub, eur, updatedAt] ← v.record? memberNames | none
  pure {
    id := ← Json.required? Json.uuid? id
    user := ← Json.required? Json.uuid? user
    usd := ← Json.required? Json.minorUnits? usd
    rub := ← Json.required? Json.minorUnits? rub
    eur := ← Json.required? Json.minorUnits? eur
    updatedAt := ← Json.required? Json.timestamp? updatedAt }

def document (w : Wallet) : String := w.toJson.compactText

def ofDocument? (s : String) : Option Wallet := do ofJson? (← Json.ofText? s)

/-- What an operator is shown: the identifiers, and the balances in units of the currency. -/
def overview (w : Wallet) : Json :=
  .ofMembers [
    ("wallet_id", .ofString w.id.text),
    ("user_id", .ofString w.user.text),
    ("balances", .ofMembers (w.majorBalances.map fun (c, x) => (c.symbol, .ofDouble x)))]

end Wallet

end Purse
