import Purse.Wallet

/-!
# Mutations

A mutation is a change of balances that is applied to a row as a whole. `Mutation.applyTo` computes
the row to be written from the row as it is, or says why there is none; an exchange debits first and
credits then.
-/

namespace Purse

/-- A change of the balances of one wallet. -/
inductive Mutation where
  /-- Credits one currency. -/
  | deposit (currency : Currency) (amount : MinorUnits)
  /-- Debits one currency. -/
  | withdraw (currency : Currency) (amount : MinorUnits)
  /-- Debits one currency and credits another. -/
  | exchange (sold : Currency) (debit : MinorUnits) (bought : Currency) (credit : MinorUnits)
deriving DecidableEq

namespace Mutation

/-- The row with its balances changed, and its timestamp as it was. -/
def change (w : Wallet) : Mutation → Except WalletError Wallet
  | deposit currency amount => w.credit currency amount
  | withdraw currency amount => w.debit currency amount
  | exchange sold debit bought credit =>
    if sold = bought then .error .sameCurrency
    else
      match w.debit sold debit with
      | .ok debited => debited.credit bought credit
      | .error e => .error e

/-- **The row to be written**, stamped with the time of the change. -/
def applyTo (m : Mutation) (now : Timestamp) (w : Wallet) : Except WalletError Wallet :=
  match m.change w with
  | .ok next => .ok (next.stamped now)
  | .error e => .error e

end Mutation

end Purse
