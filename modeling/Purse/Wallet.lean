import Purse.MinorUnits
import Purse.Timestamp
import Purse.WalletError

/-!
# Wallets

A wallet belongs to one user and holds one balance for each currency. Crediting and debiting give a
new wallet or the reason why there is none; no wallet is changed in place, so a failed operation has
nothing to undo.
-/

namespace Purse

/-- The wallet of a user. -/
structure Wallet where
  id : Uuid
  user : Uuid
  usd : MinorUnits
  rub : MinorUnits
  eur : MinorUnits
  updatedAt : Timestamp
deriving DecidableEq

namespace Wallet

/-- A new wallet, with nothing in it. -/
def create (id user : Uuid) (now : Timestamp) : Wallet :=
  ⟨id, user, .zero, .zero, .zero, now⟩

/-- The balance in a currency. -/
def balance (w : Wallet) : Currency → MinorUnits
  | .usd => w.usd
  | .rub => w.rub
  | .eur => w.eur

/-- The wallet with the balance in one currency replaced. -/
def withBalance (w : Wallet) (c : Currency) (u : MinorUnits) : Wallet :=
  match c with
  | .usd => { w with usd := u }
  | .rub => { w with rub := u }
  | .eur => { w with eur := u }

@[simp] theorem balance_withBalance (w : Wallet) (c d : Currency) (u : MinorUnits) :
    (w.withBalance c u).balance d = if c = d then u else w.balance d := by
  cases c <;> cases d <;> rfl

@[simp] theorem id_withBalance (w : Wallet) (c : Currency) (u : MinorUnits) :
    (w.withBalance c u).id = w.id := by cases c <;> rfl

@[simp] theorem user_withBalance (w : Wallet) (c : Currency) (u : MinorUnits) :
    (w.withBalance c u).user = w.user := by cases c <;> rfl

@[simp] theorem updatedAt_withBalance (w : Wallet) (c : Currency) (u : MinorUnits) :
    (w.withBalance c u).updatedAt = w.updatedAt := by cases c <;> rfl

@[simp] theorem balance_create (id user : Uuid) (now : Timestamp) (c : Currency) :
    (create id user now).balance c = .zero := by cases c <;> rfl

/-- The balances in units of the currency, in the order of the currencies. -/
def majorBalances (w : Wallet) : List (Currency × Float) :=
  Currency.all.map fun c => (c, (w.balance c).major)

/-- The wallet with `amount` added to its balance in `c`. -/
def credit (w : Wallet) (c : Currency) (amount : MinorUnits) : Except WalletError Wallet :=
  if amount.isPositive then
    match (w.balance c).add? amount with
    | some next => .ok (w.withBalance c next)
    | none => .error (.storage (.balanceOverflow c))
  else .error .invalidAmount

/-- The wallet with `amount` taken from its balance in `c`. -/
def debit (w : Wallet) (c : Currency) (amount : MinorUnits) : Except WalletError Wallet :=
  if amount.isPositive then
    match (w.balance c).sub? amount with
    | some next => .ok (w.withBalance c next)
    | none => .error .insufficientFunds
  else .error .invalidAmount

/-- The wallet with its time of last change set. -/
def stamped (w : Wallet) (now : Timestamp) : Wallet := { w with updatedAt := now }

@[simp] theorem balance_stamped (w : Wallet) (now : Timestamp) (c : Currency) :
    (w.stamped now).balance c = w.balance c := by cases c <;> rfl

@[simp] theorem id_stamped (w : Wallet) (now : Timestamp) : (w.stamped now).id = w.id := rfl

@[simp] theorem user_stamped (w : Wallet) (now : Timestamp) : (w.stamped now).user = w.user := rfl

end Wallet

end Purse
