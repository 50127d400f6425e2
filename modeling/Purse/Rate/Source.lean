import Purse.Rate

/-!
# Fixed rate tables

The simplest source of rates: a table that never changes. Asked for one pair it answers with the
first entry, usable or not; asked for all rates it gives the table as it is.
-/

namespace Purse

/-- A source that serves a fixed table. -/
structure FixedRates where
  table : RateTable

namespace FixedRates

/-- The rate of the first entry of a pair. -/
def get (s : FixedRates) (p : CurrencyPair) : Option Float :=
  (s.table.find? fun (r : ExchangeRate) => r.pair = p).map ExchangeRate.rate

/-- The whole table. -/
def getAll (s : FixedRates) : RateTable := s.table

end FixedRates

end Purse
