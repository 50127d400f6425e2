import Purse.Database
import Purse.Notice

/-!
# Rates in a database

The table of rates as a source. Its symbols may be any text: rows that name a currency which is not
supported are left out, with a notice. Rates that are not usable are kept here; the cache does not
take them.
-/

namespace Purse

/-- The rate of a row, if both its currencies are supported. -/
def RateRow.toRate? (r : RateRow) : Option ExchangeRate := do
  pure ⟨⟨← Currency.ofSymbol? r.sold, ← Currency.ofSymbol? r.bought⟩, r.rate⟩

namespace Database

def getRate (db : Database) (p : CurrencyPair) : Database × Except WalletError (Option Float) :=
  match db.selectRate p with
  | (db, .ok rate) => (db, .ok rate)
  | (db, .error e) => (db, .error (.partner (.database e)))

/-- All rates of supported pairs, in the order of the rows, and what was noticed. -/
def getAllRates (db : Database) : Database × Except WalletError RateTable × List Notice :=
  match db.selectRates with
  | (db, .ok rows) =>
    let skipped := rows.filter fun r => (RateRow.toRate? r).isNone
    (db, .ok (rows.filterMap RateRow.toRate?), skipped.map fun r => .rateRowSkipped r.sold r.bought)
  | (db, .error e) => (db, .error (.partner (.database e)), [])

end Database

end Purse
