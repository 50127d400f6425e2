import Purse.Database
import Purse.Notice
import Purse.Wallet.Mutation

/-!
# Wallets in a database

Every mutation is one transaction: it locks the row, computes the new one, writes it and commits.
Whatever fails on the way, the transaction is undone and the failure is reported, so that a row is
written as a whole or not at all.

A mutation that the row does not allow is undone expressly. If even that fails the caller still gets
the reason why the mutation was rejected; the failure is only noticed.
-/

namespace Purse.Database

/-- Creating both tables, if they are missing; the second only if the first statement did not
fail. -/
def migrate (db : Database) : Database × Except WalletError Unit :=
  match db.createWallets with
  | (db, .error e) => (db, .error (.ofDatabase e))
  | (db, .ok _) =>
    match db.createRates with
    | (db, .error e) => (db, .error (.ofDatabase e))
    | (db, .ok _) => (db, .ok ())

/-- Adding a wallet. That its identifier or user is taken is told by the code of the failure. -/
def createWallet (db : Database) (w : Wallet) : Database × Except WalletError Unit :=
  match db.insertWallet w with
  | (db, .ok _) => (db, .ok ())
  | (db, .error e) =>
    if e.isUniqueViolation then (db, .error (.storage (.userTaken w.user)))
    else (db, .error (.ofDatabase e))

def getWallet (db : Database) (user : Uuid) : Database × Except WalletError Wallet :=
  match db.selectWallet user with
  | (db, .ok (some w)) => (db, .ok w)
  | (db, .ok none) => (db, .error .walletNotFound)
  | (db, .error e) => (db, .error (.ofDatabase e))

/-- What a mutation leads to: the database after it, the row as written or the failure, and what was
noticed. -/
structure Mutated where
  database : Database
  result : Except WalletError Wallet
  notices : List Notice

/-- Giving up: the transaction is undone, the failure reported. -/
def giveUp (db : Database) (e : WalletError) (notices : List Notice) : Mutated :=
  ⟨db.abandon, .error e, notices⟩

/-- The end of a transaction whose mutation the row does not allow. -/
def reject (db : Database) (id : Uuid) (e : WalletError) : Mutated :=
  match db.rollback with
  | (db, .ok _) => ⟨db, .error e, []⟩
  | (db, .error cause) => giveUp db e [.rollbackFailed id cause]

/-- Writing the new row and committing. -/
def store (db : Database) (id : Uuid) (next : Wallet) : Mutated :=
  match db.updateWallet id next with
  | (db, .error e) => giveUp db (.ofDatabase e) [.writeFailed id e]
  | (db, .ok _) =>
    match db.commit with
    | (db, .error e) => giveUp db (.ofDatabase e) []
    | (db, .ok _) => ⟨db, .ok next, []⟩

/-- **Applying a mutation to the row with an identifier,** in one transaction. -/
def mutate (db : Database) (now : Timestamp) (id : Uuid) (m : Mutation) : Mutated :=
  match db.begin_ with
  | (db, .error e) => ⟨db, .error (.ofDatabase e), []⟩
  | (db, .ok _) =>
    match db.lockWallet id with
    | (db, .error e) => giveUp db (.ofDatabase e) []
    | (db, .ok none) => giveUp db .walletNotFound []
    | (db, .ok (some row)) =>
      match m.applyTo now row with
      | .error e => reject db id e
      | .ok next => store db id next

end Purse.Database
