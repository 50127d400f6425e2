/-!
# Currencies

The closed set of supported currencies. Their order, which is also the order of listings, is the
order of `Currency.all`.
-/

namespace Purse

/-- A supported currency. -/
inductive Currency where
  | usd
  | rub
  | eur
deriving DecidableEq, Repr, Inhabited

namespace Currency

/-- Every supported currency, in order. -/
def all : List Currency := [usd, rub, eur]

/-- The upper-case symbol of a currency. -/
def symbol : Currency → String
  | usd => "USD"
  | rub => "RUB"
  | eur => "EUR"

def ofSymbol? (s : String) : Option Currency :=
  all.find? fun (c : Currency) => c.symbol = s

/-- The place of a currency in the order. -/
def index : Currency → Nat
  | usd => 0
  | rub => 1
  | eur => 2

@[simp] theorem mem_all (c : Currency) : c ∈ all := by
  cases c <;> decide

@[simp] theorem ofSymbol?_symbol (c : Currency) : ofSymbol? c.symbol = some c := by
  cases c <;> decide

theorem symbol_of_ofSymbol? {s : String} {c : Currency} (h : ofSymbol? s = some c) : c.symbol = s := by
  simpa using List.find?_some h

theorem index_injective {a b : Currency} (h : a.index = b.index) : a = b := by
  cases a <;> cases b <;> simp_all [index]

end Currency

end Purse
