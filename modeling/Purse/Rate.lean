import Purse.Currency
import Purse.Decimal.Layout
import Purse.Table

/-!
# Exchange rates

A rate says how many units of the bought currency one unit of the sold currency fetches. A table of
rates, as a source gives it, is a plain list: a pair may occur several times and a rate may be any
double. What such a table means is its *view*: for every pair the last usable entry.
`RateTable.lookup` and `RateTable.view` say this directly, and are what everything that serves rates
is measured against.
-/

namespace Purse

/-- An ordered pair of currencies. -/
structure CurrencyPair where
  sold : Currency
  bought : Currency
deriving DecidableEq, Repr

namespace CurrencyPair

/-- The pair in the other direction. -/
def reversed (p : CurrencyPair) : CurrencyPair := ⟨p.bought, p.sold⟩

@[simp] theorem reversed_reversed (p : CurrencyPair) : p.reversed.reversed = p := rfl

def text (p : CurrencyPair) : String := p.sold.symbol ++ "->" ++ p.bought.symbol

/-- Every ordered pair, by the sold currency first. -/
def all : List CurrencyPair :=
  Currency.all.flatMap fun sold => Currency.all.map fun bought => ⟨sold, bought⟩

/-- The place of a pair in the order. -/
def index (p : CurrencyPair) : Nat := 3 * p.sold.index + p.bought.index

@[simp] theorem mem_all (p : CurrencyPair) : p ∈ all := by
  rcases p with ⟨_ | _ | _, _ | _ | _⟩ <;> decide

end CurrencyPair

/-- A quoted rate. -/
structure ExchangeRate where
  pair : CurrencyPair
  rate : Float

namespace ExchangeRate

/-- Whether the entry may be served: two different currencies, and a finite rate above zero. -/
def isUsable (r : ExchangeRate) : Bool :=
  r.pair.sold ≠ r.pair.bought && r.rate.isFinite && r.rate > 0.0

/-- The entries sorted by pair; entries of one pair stay in order. -/
def sortByPair (rs : List ExchangeRate) : List ExchangeRate :=
  rs.mergeSort fun a b => a.pair.index ≤ b.pair.index

/-- The text of an entry in messages. -/
def text (r : ExchangeRate) : String := r.pair.text ++ " = " ++ rateText r.rate

end ExchangeRate

/-- A table of rates as a source gives it. -/
abbrev RateTable := List ExchangeRate

namespace RateTable

/-- The rate that a table quotes for a pair: that of its last usable entry. -/
def lookup (t : RateTable) (p : CurrencyPair) : Option Float :=
  (t.reverse.find? fun (r : ExchangeRate) => r.isUsable && r.pair = p).map ExchangeRate.rate

/-- **The view of a table:** one entry for each quoted pair, in the order of pairs. -/
def view (t : RateTable) : List ExchangeRate :=
  CurrencyPair.all.filterMap fun p => (lookup t p).map fun r => ⟨p, r⟩

/-- The entries that are not usable, in order. -/
def unusable (t : RateTable) : List ExchangeRate :=
  t.filter fun r => !r.isUsable

end RateTable

end Purse
