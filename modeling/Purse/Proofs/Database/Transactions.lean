import Purse.Database.Wallets
import Purse.Proofs.Wallet.Mutation

/-!
# Mutations are atomic, whichever statements fail

A mutation sends up to five statements, and each of them can fail. `Database.Ends` lists the ways in
which the mutation can end, with what the database is then: undone (`Database.Undone`), or with one
row written. `Database.mutate_ends` is the one place where the transaction is gone through statement
by statement; each statement has a lemma that says what it does when it fails and when it does not.

What fails is a part of the database, so every statement here is about all sets of failing
statements at once.
-/

namespace Purse

namespace Tables

/-- The contents with the balances and the timestamp of a row written. -/
def withRow (t : Tables) (id : Uuid) (row values : Wallet) : Tables :=
  { t with wallets := t.wallets.insert id (withBalancesOf row values) }

@[simp] theorem balance_withBalancesOf (row values : Wallet) (c : Currency) :
    (withBalancesOf row values).balance c = values.balance c := by cases c <;> rfl

theorem negativeBalance?_eq_none_iff {w : Wallet} :
    negativeBalance? w = none ↔ ∀ c, 0 ≤ (w.balance c).units := by
  unfold negativeBalance?
  rw [List.find?_eq_none]
  constructor
  · intro h c
    simpa using h c (Currency.mem_all c)
  · intro h c _
    simpa using h c

end Tables

namespace Database

variable {db t u : Database} {now : Timestamp} {id : Uuid} {m : Mutation} {row next w : Wallet}
  {st : Statement}

/-! ### Statements -/

/-- The database with a statement written down. -/
def noted (db : Database) (st : Statement) : Database := { db with sent := st :: db.sent }

section Send

variable {α : Type} {effect : Database → Reply α} {cause : DatabaseError}

theorem send_of_fault (h : db.faults.get? st = some cause) :
    db.send st effect = (db.noted st, .error cause) := by
  unfold send
  simp only [h]
  rfl

theorem send_of_works (h : db.faults.get? st = none) : db.send st effect = effect (db.noted st) := by
  unfold send
  simp only [h]
  rfl

end Send

/-- The database with a transaction that has just been opened. -/
def opened (db : Database) : Database := { db.noted .begin_ with transaction := some db.committed }

/-! Each statement has its effect or fails, and then it has none. -/

theorem begin_of_works (works : db.faults.get? .begin_ = none) :
    db.begin_ = (db.opened, .ok ()) :=
  send_of_works works

theorem begin_cases (db : Database) :
    (∃ cause, db.begin_ = (db.noted .begin_, .error cause)) ∨
    db.begin_ = (db.opened, .ok ()) := by
  cases h : db.faults.get? .begin_ with
  | some cause => exact .inl ⟨cause, send_of_fault h⟩
  | none => exact .inr (begin_of_works h)

theorem lockWallet_of_works (works : db.faults.get? .lockWallet = none) (ready : db.migrated) :
    db.lockWallet id = (db.noted .lockWallet, .ok (db.visible.wallets.get? id)) :=
  (send_of_works works).trans (if_pos ready)

theorem lockWallet_cases (db : Database) (id : Uuid) :
    (∃ cause, db.lockWallet id = (db.noted .lockWallet, .error cause)) ∨
    db.lockWallet id = (db.noted .lockWallet, .ok (db.visible.wallets.get? id)) := by
  cases h : db.faults.get? .lockWallet with
  | some cause => exact .inl ⟨cause, send_of_fault h⟩
  | none =>
    by_cases ready : db.migrated
    · exact .inr (lockWallet_of_works h ready)
    · exact .inl ⟨_, (send_of_works h).trans (if_neg ready)⟩

/-- Writing a row that is there fails, or changes it in what the connection sees. -/
theorem updateWallet_cases (values : Wallet) (there : db.visible.wallets.get? id = some row) :
    (∃ cause, db.updateWallet id values = (db.noted .updateWallet, .error cause)) ∨
    db.updateWallet id values =
      ((db.noted .updateWallet).write (db.visible.withRow id row values), .ok ()) := by
  cases h : db.faults.get? .updateWallet with
  | some cause => exact .inl ⟨cause, send_of_fault h⟩
  | none =>
    unfold updateWallet
    rw [send_of_works h]
    by_cases ready : db.migrated
    · rw [needing, if_pos (show (db.noted .updateWallet).migrated from ready)]
      split
      · exact .inl ⟨_, rfl⟩
      · next row' there' _ =>
        cases there.symm.trans there'
        exact .inr rfl
      · next gone => cases there.symm.trans gone
    · rw [needing, if_neg (show ¬ (db.noted .updateWallet).migrated from ready)]
      exact .inl ⟨_, rfl⟩

theorem updateWallet_of_works {values : Wallet} (works : db.faults.get? .updateWallet = none)
    (ready : db.migrated) (there : db.visible.wallets.get? id = some row)
    (allowed : Tables.negativeBalance? values = none) :
    db.updateWallet id values =
      ((db.noted .updateWallet).write (db.visible.withRow id row values), .ok ()) := by
  unfold updateWallet
  rw [send_of_works works, needing, if_pos (show (db.noted .updateWallet).migrated from ready)]
  split
  · next below => cases allowed.symm.trans below
  · next row' there' _ =>
    cases there.symm.trans there'
    rfl
  · next gone => cases there.symm.trans gone

theorem commit_of_works (works : db.faults.get? .commit = none) :
    db.commit =
      ({ db.noted .commit with committed := db.visible, transaction := none }, .ok ()) := by
  rw [commit, send_of_works works]
  rfl

/-- A commit publishes what the connection sees, or fails; either way the transaction is over. -/
theorem commit_cases (db : Database) :
    (∃ cause, db.commit = ({ db.noted .commit with transaction := none }, .error cause)) ∨
    db.commit =
      ({ db.noted .commit with committed := db.visible, transaction := none }, .ok ()) := by
  cases h : db.faults.get? .commit with
  | some cause => exact .inl ⟨cause, by rw [commit, send_of_fault h]⟩
  | none => exact .inr (commit_of_works h)

theorem rollback_cases (db : Database) :
    (∃ cause, db.rollback = (db.noted .rollback, .error cause)) ∨
    db.rollback = ({ db.noted .rollback with transaction := none }, .ok ()) := by
  cases h : db.faults.get? .rollback with
  | some cause => exact .inl ⟨cause, send_of_fault h⟩
  | none => exact .inr (send_of_works h)

/-! ### Transactions that are undone -/

/-- The database as it was, without the transaction that was open. Only the statements that were
sent can be told from it. -/
def Undone (db t : Database) : Prop := t = { db with transaction := none, sent := t.sent }

theorem undone_abandon (db : Database) : db.Undone db.abandon := by
  unfold abandon
  rcases db.rollback_cases with ⟨cause, h⟩ | h <;> rw [h] <;> rfl

/-- Walking away from a transaction undoes what was done in it. -/
theorem Undone.abandon (same : u = { db with transaction := u.transaction, sent := u.sent }) :
    db.Undone u.abandon := by
  unfold Undone
  rw [undone_abandon u, same]

/-! ### The ways a mutation can end -/

/-- **Everything that a mutation can lead to.** -/
inductive Ends (db : Database) (now : Timestamp) (id : Uuid) (m : Mutation) : Mutated → Prop
  -- A statement failed.
  | failed {t : Database} {cause : DatabaseError} {notices : List Notice} (undone : db.Undone t) :
      Ends db now id m ⟨t, .error (.ofDatabase cause), notices⟩
  | missing {t : Database} (gone : db.committed.wallets.get? id = none) (undone : db.Undone t) :
      Ends db now id m ⟨t, .error .walletNotFound, []⟩
  -- The row does not allow the mutation. Whether the rollback fails can only be told from the
  -- notices.
  | rejected {t : Database} {row : Wallet} {e : WalletError} {notices : List Notice}
      (there : db.committed.wallets.get? id = some row) (rejects : m.applyTo now row = .error e)
      (undone : db.Undone t) :
      Ends db now id m ⟨t, .error e, notices⟩
  | committed {row next : Wallet} {sent : List Statement}
      (there : db.committed.wallets.get? id = some row) (applied : m.applyTo now row = .ok next) :
      Ends db now id m
        ⟨{ db with committed := db.committed.withRow id row next, transaction := none, sent },
          .ok next, []⟩

theorem reject_ends {e : WalletError} (there : db.committed.wallets.get? id = some row)
    (rejects : m.applyTo now row = .error e) :
    Ends db now id m ((db.opened.noted .lockWallet).reject id e) := by
  unfold reject
  rcases (db.opened.noted .lockWallet).rollback_cases with ⟨cause, h⟩ | h <;> rw [h]
  · exact .rejected there rejects (.abandon rfl)
  · exact .rejected there rejects rfl

theorem store_ends (there : db.committed.wallets.get? id = some row)
    (applied : m.applyTo now row = .ok next) :
    Ends db now id m ((db.opened.noted .lockWallet).store id next) := by
  have seen : (db.opened.noted .lockWallet).visible.wallets.get? id = some row := there
  unfold store
  rcases updateWallet_cases next seen with ⟨cause, h⟩ | h <;> rw [h] <;> dsimp only
  · exact .failed (.abandon rfl)
  -- the row is written in the transaction only, and becomes visible as a whole or not at all
  · rcases commit_cases ((db.opened.noted .lockWallet).noted .updateWallet |>.write
      ((db.opened.noted .lockWallet).visible.withRow id row next)) with ⟨cause, h⟩ | h <;>
      rw [h] <;> dsimp only
    · exact .failed (.abandon rfl)
    · exact .committed there applied

/-- **A mutation ends in one of these ways.** -/
theorem mutate_ends (db : Database) (now : Timestamp) (id : Uuid) (m : Mutation)
    (closed : db.transaction = none) : Ends db now id m (db.mutate now id m) := by
  unfold mutate
  rcases db.begin_cases with ⟨cause, h⟩ | h <;> rw [h]
  -- without a transaction there is nothing to walk away from
  · exact .failed (by rw [Undone, ← closed]; rfl)
  · dsimp only
    rcases db.opened.lockWallet_cases id with ⟨cause, h⟩ | h <;> rw [h]
    · exact .failed (.abandon rfl)
    · cases there : db.opened.visible.wallets.get? id with
      | none => exact .missing there (.abandon rfl)
      | some row =>
        dsimp only
        -- both ways on have the row locked and the transaction open
        split
        · next rejects => exact reject_ends there rejects
        · next applied => exact store_ends there applied

section Ends

variable {after : Mutated} (h : db.Ends now id m after)
include h

theorem Ends.closed : after.database.transaction = none := by
  cases h with
  | failed undone | missing _ undone | rejected _ _ undone =>
    rw [undone]
  | committed => rfl

/-- What failed has written nothing. -/
theorem Ends.unchanged {e : WalletError} (closed : db.transaction = none)
    (fails : after.result = .error e) : after.database = { db with sent := after.database.sent } := by
  cases h with
  | failed undone | missing _ undone | rejected _ _ undone =>
    rw [Undone, ← closed] at undone
    exact undone
  | committed => cases fails

/-- What was answered has been written. -/
theorem Ends.written (closed : db.transaction = none) (answered : after.result = .ok next) :
    ∃ row sent, db.committed.wallets.get? id = some row ∧ m.applyTo now row = .ok next ∧
      after.database = { db with committed := db.committed.withRow id row next, sent } := by
  cases h with
  | failed | missing | rejected => cases answered
  | @committed row _ sent there applied =>
    cases answered
    exact ⟨row, sent, there, applied, by rw [← closed]⟩

end Ends

/-! ### What the caller is told -/

section Told

variable (begins : db.faults.get? .begin_ = none) (locks : db.faults.get? .lockWallet = none)
  (ready : db.migrated)
include begins locks ready

/-- A mutation that gets as far as the row goes on from there. -/
theorem mutate_of_there (there : db.committed.wallets.get? id = some row) :
    db.mutate now id m =
      match m.applyTo now row with
      | .error e => (db.opened.noted .lockWallet).reject id e
      | .ok next => (db.opened.noted .lockWallet).store id next := by
  have seen : db.opened.visible.wallets.get? id = some row := there
  unfold mutate
  rw [begin_of_works begins]
  dsimp only
  rw [lockWallet_of_works (show db.opened.faults.get? .lockWallet = none from locks)
    (show db.opened.migrated from ready)]
  cases applied : m.applyTo now row <;> simp only [seen, applied]

theorem mutate_of_gone (gone : db.committed.wallets.get? id = none) :
    (db.mutate now id m).result = .error .walletNotFound := by
  have seen : db.opened.visible.wallets.get? id = none := gone
  unfold mutate
  rw [begin_of_works begins]
  dsimp only
  rw [lockWallet_of_works (show db.opened.faults.get? .lockWallet = none from locks)
    (show db.opened.migrated from ready)]
  simp only [seen, giveUp]

/-- The caller learns why the row does not allow the mutation, and not that the rollback failed. -/
theorem mutate_of_rejects {e : WalletError} (there : db.committed.wallets.get? id = some row)
    (rejects : m.applyTo now row = .error e) : (db.mutate now id m).result = .error e := by
  rw [mutate_of_there begins locks ready there, rejects]
  dsimp only
  unfold reject
  -- a rollback that fails is noticed and changes nothing about the answer
  rcases (db.opened.noted .lockWallet).rollback_cases with ⟨cause, h⟩ | h
  · rw [h]
    rfl
  · rw [h]

theorem mutate_of_applied (updates : db.faults.get? .updateWallet = none)
    (commits : db.faults.get? .commit = none) (there : db.committed.wallets.get? id = some row)
    (applied : m.applyTo now row = .ok next) (allowed : Tables.negativeBalance? next = none) :
    (db.mutate now id m).result = .ok next := by
  rw [mutate_of_there begins locks ready there, applied]
  dsimp only
  unfold store
  rw [updateWallet_of_works (show (db.opened.noted .lockWallet).faults.get? .updateWallet = none from updates)
    (show (db.opened.noted .lockWallet).migrated from ready) there allowed]
  dsimp only
  rw [commit_of_works (by exact commits)]

end Told

/-! ### Atomicity -/

/-- **What one mutation does to the database,** whichever statements fail. -/
structure Atomic (db : Database) (now : Timestamp) (id : Uuid) (m : Mutation) (after : Mutated) :
    Prop where
  /-- No transaction is left open for the next call. -/
  closed : after.database.transaction = none
  /-- A call that fails has written nothing. -/
  unchanged : ∀ e, after.result = .error e → after.database = { db with sent := after.database.sent }
  /-- A call that succeeds has written one row. It keeps its identifier and its user, and has the
  balances of the answer, which are those that the mutation gives on the row as it was. -/
  written : ∀ w, after.result = .ok w → ∃ old new,
    db.committed.wallets.get? id = some old ∧ m.applyTo now old = .ok w ∧
      new.id = old.id ∧ new.user = old.user ∧ (∀ c, new.balance c = w.balance c) ∧
      after.database =
        { db with
          committed := { db.committed with wallets := db.committed.wallets.insert id new }
          sent := after.database.sent }
  /-- A mutation that the row does not allow fails for that reason, even if the rollback fails. -/
  rejected : ∀ old e, db.migrated → db.faults.get? .begin_ = none →
    db.faults.get? .lockWallet = none → db.committed.wallets.get? id = some old →
    m.applyTo now old = .error e → after.result = .error e
  /-- A mutation that the row and the table allow succeeds, unless one of its statements fails. -/
  succeeds : ∀ old w, db.migrated →
    (∀ st ∈ [Statement.begin_, .lockWallet, .updateWallet, .commit], db.faults.get? st = none) →
    db.committed.wallets.get? id = some old → m.applyTo now old = .ok w →
    (∀ c, 0 ≤ (w.balance c).units) → after.result = .ok w

/-- **A mutation is atomic under faults.** -/
theorem mutate_atomic (db : Database) (now : Timestamp) (id : Uuid) (m : Mutation)
    (closed : db.transaction = none) : db.Atomic now id m (db.mutate now id m) where
  closed := (mutate_ends db now id m closed).closed
  unchanged _ fails := (mutate_ends db now id m closed).unchanged closed fails
  written w answered := by
    obtain ⟨old, sent, there, applied, h⟩ :=
      (mutate_ends db now id m closed).written closed answered
    refine ⟨old, Tables.withBalancesOf old w, there, applied, rfl, rfl, fun c => by simp, ?_⟩
    rw [h]
    rfl
  rejected _ _ ready begins locks there rejects := mutate_of_rejects begins locks ready there rejects
  succeeds _ _ ready works there applied nonneg :=
    mutate_of_applied (works _ (by simp)) (works _ (by simp)) ready (works _ (by simp))
      (works _ (by simp)) there applied (Tables.negativeBalance?_eq_none_iff.2 nonneg)

/-- A database with a wallet of 5 USD. No transaction can be rolled back expressly. -/
def brittle : Database :=
  { create true [⟨.ofNat 2, .ofNat 1, .ofMajor 5, .zero, .zero, .epoch⟩] [] with
    faults := .ofList [(.rollback, .workerCrashed)] }

/-- A withdrawal of 7 USD is refused for lack of funds and not because of the rollback, and leaves
nothing behind. -/
theorem mutate_atomic_brittle :
    let after := brittle.mutate .epoch (.ofNat 2) (.withdraw .usd (.ofMajor 7))
    after.result = .error .insufficientFunds ∧
      after.notices = [.rollbackFailed (.ofNat 2) .workerCrashed] ∧
      brittle.Atomic .epoch (.ofNat 2) (.withdraw .usd (.ofMajor 7)) after :=
  ⟨rfl, rfl, mutate_atomic brittle _ _ _ rfl⟩

end Database

end Purse
