import Purse.Table
import Purse.Wallet.Mutation

/-!
# Rows in memory

The rows of all wallets, with an index from users to their wallets. There is at most one wallet for
a user; this is checked where a wallet is created, and nothing else adds a row.
-/

namespace Purse

/-- Wallet rows by identifier, and the identifier of each user's wallet. -/
structure MemoryStore where
  rows : Table Uuid Wallet
  byUser : Table Uuid Uuid

namespace MemoryStore

/-- The store without rows. -/
def empty : MemoryStore := ⟨.empty, .empty⟩

instance : Inhabited MemoryStore := ⟨empty⟩

/-- The number of wallets. -/
def size (s : MemoryStore) : Nat := s.rows.size

/-- The store with a new row. -/
def create (s : MemoryStore) (w : Wallet) : Except WalletError MemoryStore :=
  if s.byUser.contains w.user then .error (.storage (.userTaken w.user))
  else if s.rows.contains w.id then .error (.storage (.walletTaken w.id))
  else .ok ⟨s.rows.insert w.id w, s.byUser.insert w.user w.id⟩

/-- The row of a user's wallet. -/
def get (s : MemoryStore) (user : Uuid) : Except WalletError Wallet :=
  match s.byUser.get? user with
  | none => .error .walletNotFound
  | some id =>
    match s.rows.get? id with
    | none => .error .walletNotFound
    | some w => .ok w

/-- **Applying a mutation to a row:** the store with the row replaced and the row as written. -/
def mutate (s : MemoryStore) (now : Timestamp) (id : Uuid) (m : Mutation) :
    Except WalletError (MemoryStore × Wallet) :=
  match s.rows.get? id with
  | none => .error .walletNotFound
  | some w =>
    match m.applyTo now w with
    | .ok next => .ok ({ s with rows := s.rows.insert id next }, next)
    | .error e => .error e

end MemoryStore

end Purse
