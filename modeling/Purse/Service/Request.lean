import Purse.Event
import Purse.Rate
import Purse.Wallet.Mutation

/-!
# Requests and answers

What callers ask of the service and what they get. The arguments of a mutation are checked before
anything else is looked at: `Request.order` gives the mutation in the domain's own terms, or the
first thing that is wrong with it.
-/

namespace Purse

/-- What a caller asks for. Currencies and amounts are as the caller gave them. -/
inductive Request where
  | create (user : Uuid)
  | view (user : Uuid)
  | deposit (user : Uuid) (currency : String) (amount : Float)
  | withdraw (user : Uuid) (currency : String) (amount : Float)
  | exchange (user : Uuid) (sold bought : String) (amount : Float)
  | quote (pair : CurrencyPair)
  | listing

namespace Request

/-- The user whose wallet the request is about. -/
def user? : Request → Option Uuid
  | create user | view user | deposit user .. | withdraw user .. | exchange user .. => some user
  | quote _ | listing => none

/-- The amount that a mutation names. -/
def amount : Request → Float
  | deposit _ _ amount | withdraw _ _ amount | exchange _ _ _ amount => amount
  | _ => 0.0

end Request

/-- A mutation with its arguments checked. What an exchange credits depends on the rate. -/
inductive Order where
  | deposit (currency : Currency) (units : MinorUnits)
  | withdraw (currency : Currency) (units : MinorUnits)
  | exchange (pair : CurrencyPair) (debit : MinorUnits)
deriving DecidableEq

/-- A mutation that is ready to be applied to a row; an exchange with the rate that it is made
at. -/
inductive Change where
  | deposit (currency : Currency) (units : MinorUnits)
  | withdraw (currency : Currency) (units : MinorUnits)
  | exchange (pair : CurrencyPair) (debit credit : MinorUnits) (rate : Float)

/-- What a caller gets. -/
inductive Answer where
  | wallet (w : Wallet)
  /-- The row after an exchange, the rate, what was taken and what was given. -/
  | exchanged (w : Wallet) (rate : Float) (debited credited : MinorUnits)
  | rate (x : Float)
  | rates (rs : List ExchangeRate)

/-- How a call ends. -/
abbrev Outcome := Except WalletError Answer

/-- The currency with this symbol. -/
def Currency.parse (s : String) : Except WalletError Currency :=
  match Currency.ofSymbol? s with
  | some c => .ok c
  | none => .error (.unsupportedCurrency s)

def MinorUnits.parse (amount : Float) : Except WalletError MinorUnits :=
  match MinorUnits.ofAmount? amount with
  | some u => .ok u
  | none => .error .invalidAmount

namespace Order

/-- A deposit: the amount is checked first, then the currency. -/
def parseDeposit (currency : String) (amount : Float) : Except WalletError Order := do
  let units ← MinorUnits.parse amount
  let currency ← Currency.parse currency
  pure (deposit currency units)

/-- A withdrawal: the amount is checked first, then the currency. -/
def parseWithdraw (currency : String) (amount : Float) : Except WalletError Order := do
  let units ← MinorUnits.parse amount
  let currency ← Currency.parse currency
  pure (withdraw currency units)

/-- An exchange: the amount is checked first, then the sold currency, then the bought one, then that
they differ. -/
def parseExchange (sold bought : String) (amount : Float) : Except WalletError Order := do
  let debit ← MinorUnits.parse amount
  let sold ← Currency.parse sold
  let bought ← Currency.parse bought
  if sold = bought then throw .sameCurrency
  pure (exchange ⟨sold, bought⟩ debit)

end Order

namespace Change

/-- The mutation of the row. -/
def mutation : Change → Mutation
  | deposit currency units => .deposit currency units
  | withdraw currency units => .withdraw currency units
  | exchange pair debit credit _ => .exchange pair.sold debit pair.bought credit

/-- The kind of event that tells of the change. -/
def kind : Change → EventKind
  | deposit .. => .deposit
  | withdraw .. => .withdraw
  | exchange .. => .exchange

/-- What the event names as its currency: the symbol, or the text of the pair. -/
def currencyText : Change → String
  | deposit currency _ => currency.symbol
  | withdraw currency _ => currency.symbol
  | exchange pair _ _ _ => pair.text

/-- The answer to the caller, given the row as it was written. -/
def answer (row : Wallet) : Change → Answer
  | exchange _ debit credit rate => .exchanged row rate debit credit
  | _ => .wallet row

/-- The exchange of a debit at a rate. What is credited is computed from the amount as the caller
gave it. -/
def atRate (pair : CurrencyPair) (debit : MinorUnits) (amount rate : Float) : Except WalletError Change :=
  match MinorUnits.ofConverted? amount rate with
  | some credit => .ok (exchange pair debit credit rate)
  | none => .error .invalidAmount

end Change

end Purse
