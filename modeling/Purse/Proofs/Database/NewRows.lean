import Purse.Proofs.Database.Mirror

/-!
# Which new rows a store takes

The rows in memory keep identifiers and users apart, and so do the constraints of the table in the
database. The table asks for more (`Tables.Admits`): no balance is below zero, and the timestamp is
one that its column can hold. Nothing in memory asks for that, so a row that owes money, or one that
is older than the column reaches, is taken there and refused by the database. All other rows are
taken by both or by none (`takes_of_sameRows`).

What stands in the way of a row is known from the rows that are there, so it does not matter which
calls have led to them. The calls matter in one respect: they cannot have brought a row past the
constraints. `Database.Constrained` and `MemoryStore.Sound` say what every call keeps, whatever rows
it brings, and two sides that hold the same rows after any calls are then mirrors of each other.
-/

namespace Purse

/-! ### What every call keeps -/

namespace Database

variable {db : Database} {row : Wallet}

/-- **The constraints hold:** the database works, and no balance is below zero. -/
structure Constrained (db : Database) : Prop where
  well : db.Well
  nonneg : ∀ {id row}, db.committed.wallets.get? id = some row → ∀ c, 0 ≤ (row.balance c).units

theorem constrained_fresh : fresh.Constrained := ⟨well_fresh, fun h => nomatch h⟩

theorem Constrained.resting (h : db.Constrained) (sent : List Statement) :
    Constrained { db with sent } :=
  ⟨h.well.committing db.committed sent, h.nonneg⟩

/-- A row is written whose balances are not below zero. -/
theorem Constrained.writing (h : db.Constrained) {id : Uuid} (nonneg : ∀ c, 0 ≤ (row.balance c).units)
    (sent : List Statement) :
    Constrained { db with
      committed := { db.committed with wallets := db.committed.wallets.insert id row }, sent } where
  well := h.well.committing _ sent
  nonneg {id' row'} there := by
    rw [Table.get?_insert] at there
    split at there
    · exact Option.some.inj there ▸ nonneg
    · exact h.nonneg there

/-- **The constraints hold after every call,** even if the row that it brings does not meet them. -/
theorem Constrained.perform (h : db.Constrained) (now : Timestamp) (call : StoreCall) :
    (db.perform now call).1.Constrained := by
  unfold Database.perform
  cases call with
  | create row =>
    dsimp only
    cases ho : db.committed.obstacle? row with
    | none =>
      rw [h.well.createWallet_of_free ho]
      exact h.writing (Tables.obstacle?_eq_none_iff.1 ho).1.nonneg _
    | some cause =>
      obtain ⟨fault, hd⟩ := h.well.createWallet_of_taken ho
      rw [hd]
      exact h.resting _
  | get user =>
    dsimp only
    rw [h.well.getWallet_eq]
    exact h.resting _
  | mutate wallet m =>
    dsimp only
    have ends := db.mutate_ends now wallet m h.well.closed
    cases hr : (db.mutate now wallet m).result with
    | error e =>
      rw [ends.unchanged h.well.closed hr]
      exact h.resting _
    | ok next =>
      obtain ⟨old, sent, there, applied, hd⟩ := ends.written h.well.closed hr
      rw [hd]
      refine h.writing (fun c => ?_) sent
      rw [Tables.balance_withBalancesOf]
      exact (Mutation.applyTo_spec applied).1.balance_nonneg (h.nonneg there) c

end Database

/-! ### One new row -/

/-- Both sides hold the same accounts under the same identifiers. -/
def SameRows (s : MemoryStore) (db : Database) : Prop :=
  ∀ id, Option.Rel Wallet.SameAccount (s.rows.get? id) (db.committed.wallets.get? id)

/-- **What becomes of a new row** on the two sides. -/
structure Takes (s : MemoryStore) (db : Database) (row : Wallet) : Prop where
  /-- The database takes what the memory takes, but for rows that the table does not admit. -/
  database_iff : (db.createWallet row).2 = .ok () ↔
    (∃ t, s.create row = .ok t) ∧ Tables.Admits row
  /-- Whoever refuses the row is left as he was. -/
  memory_unchanged : ∀ now e, (s.perform now (.create row)).2 = .error e →
    (s.perform now (.create row)).1 = s
  database_unchanged : ∀ e, (db.createWallet row).2 = .error e →
    (db.createWallet row).1.committed = db.committed
  /-- If the database takes the row, the two sides hold the same rows again. -/
  sameRows : ∀ now, (db.createWallet row).2 = .ok () →
    SameRows (s.perform now (.create row)).1 (db.createWallet row).1

section Create

variable {s : MemoryStore} {db : Database} {row : Wallet}

/-- Mirrors of each other take the same rows, of those that the table admits. -/
theorem Mirrors.takes (h : Mirrors s db) (row : Wallet) : Takes s db row where
  database_iff := by
    rw [h.well.createWallet_isOk_iff, h.obstacle_none_iff, MemoryStore.create_isOk_iff, and_comm]
  memory_unchanged _ _ fails := MemoryStore.perform_create_of_error fails
  database_unchanged e fails := by
    cases ho : db.committed.obstacle? row with
    | none =>
      rw [h.well.createWallet_isOk_iff.2 ho] at fails
      cases fails
    | some cause =>
      obtain ⟨fault, hd⟩ := h.well.createWallet_of_taken ho
      rw [hd]
      rfl
  sameRows now taken := by
    have free := h.obstacle_none_iff.1 (h.well.createWallet_isOk_iff.1 taken)
    have kept : Mirrors (s.perform now (.create row)).1 (db.perform now (.create row)).1 :=
      (h.create free.1).1
    exact kept.rows

end Create

/-! ### From the beginning -/

/-- **Both stores take the same new rows, of those that the table admits.** Let any calls have been
made to the empty store, and any to a database whose tables have just been created, at whatever times
and with whatever rows. If both hold the same accounts then, a new row that owes nothing, and whose
timestamp the column can hold, is taken by both or by none; every other one is refused by the
database. -/
theorem takes_of_sameRows (clock clock' : Nat → Timestamp) (calls calls' : List StoreCall)
    (same : SameRows (performAll MemoryStore.perform .empty clock calls).1
      (performAll Database.perform .fresh clock' calls').1) (row : Wallet) :
    Takes (performAll MemoryStore.perform .empty clock calls).1
      (performAll Database.perform .fresh clock' calls').1 row := by
  have sound := performAll_invariant (fun s now call h => h.perform now call)
    MemoryStore.Sound.empty clock calls
  have constrained := performAll_invariant (fun db now call h => h.perform now call)
    Database.constrained_fresh clock' calls'
  refine Mirrors.takes ⟨constrained.well, sound, same, fun {id v} there c => ?_⟩ row
  -- the constraints are those of the database, and the memory holds the same balances
  have rel := same id
  rw [there] at rel
  generalize hd : (performAll Database.perform .fresh clock' calls').1.committed.wallets.get? id =
    found at rel
  cases rel with
  | some account =>
    rw [account.balance_eq c]
    exact constrained.nonneg hd c

/-- A wallet that owes a cent. -/
def owing : Wallet := { Wallet.create (.ofNat 2) (.ofNat 1) .epoch with usd := ⟨-1, by decide, by decide⟩ }

/-- A wallet from the last second before the column of timestamps begins. -/
def ancient : Wallet :=
  Wallet.create (.ofNat 2) (.ofNat 1) { Timestamp.epoch with seconds := -210866803201 }

/-- Where each of two users has a wallet, a third gets one if it owes nothing and is not too old. -/
theorem takes_third :
    let calls : List StoreCall :=
      [.create (.create (.ofNat 4) (.ofNat 3) .epoch), .create (.create (.ofNat 6) (.ofNat 5) .epoch),
        .mutate (.ofNat 4) (.deposit .eur (.ofMajor 5))]
    let memory := (performAll MemoryStore.perform .empty (fun _ => .epoch) calls).1
    let database := (performAll Database.perform .fresh (fun _ => .epoch) calls).1
    SameRows memory database ∧ (∀ row, Takes memory database row) ∧
      (database.createWallet (.create (.ofNat 2) (.ofNat 1) .epoch)).2 = .ok () ∧
      (memory.create owing).isOk ∧ (database.createWallet owing).2.isOk = false ∧
      (memory.create ancient).isOk ∧ (database.createWallet ancient).2.isOk = false := by
  intro calls memory database
  have admitted : ∀ call ∈ calls, call.Admitted := by
    intro call hc
    simp only [calls, List.mem_cons, List.not_mem_nil, or_false] at hc
    rcases hc with rfl | rfl | rfl
    · exact ⟨fun c => by simp, rfl⟩
    · exact ⟨fun c => by simp, rfl⟩
    · trivial
  have same : SameRows memory database :=
    (Mirrors.fresh.performAll (fun _ => .epoch) (fun _ => .epoch) calls admitted).1.rows
  exact ⟨same, takes_of_sameRows _ _ calls calls same, rfl, rfl, rfl, rfl, rfl⟩

/-- **The stores do not take the same rows:** the first row that they disagree about is the first row
of all. -/
theorem not_forall_taken_iff :
    ¬ ∀ (clock clock' : Nat → Timestamp) (calls calls' : List StoreCall),
      SameRows (performAll MemoryStore.perform .empty clock calls).1
        (performAll Database.perform .fresh clock' calls').1 →
      ∀ row,
        (∃ t, (performAll MemoryStore.perform .empty clock calls).1.create row = .ok t) ↔
          ((performAll Database.perform .fresh clock' calls').1.createWallet row).2 = .ok () := by
  intro all
  have same := all (fun _ => .epoch) (fun _ => .epoch) [] [] (fun _ => .none) owing
  have refused : (Database.fresh.createWallet owing).2 ≠ .ok () := by
    intro taken
    have free := Tables.obstacle?_eq_none_iff.1 (Database.well_fresh.createWallet_isOk_iff.1 taken)
    exact absurd (free.1.nonneg .usd) (by decide)
  exact refused (same.1 ⟨_, rfl⟩)

end Purse
