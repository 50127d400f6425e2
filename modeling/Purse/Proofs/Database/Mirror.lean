import Mathlib.Data.List.Forall2
import Purse.Proofs.Database.Transactions
import Purse.Proofs.Store.Calls

/-!
# The database mirrors the rows in memory

The same calls, one after another, to the rows in memory and to a database that does not fail, get
the same replies: the same wallets up to their timestamps, and failures of the same kind. The
relation kept is `Mirrors`: both sides have the same accounts under the same identifiers. The memory
has an index to find a user's row and to keep users apart, the database a search and its
constraints; `MemoryStore.Sound` is what makes the two agree.

The two sides have clocks of their own.
-/

namespace Purse

/-! ### Calls to the database -/

/-- A call to a database. -/
def Database.perform (db : Database) (now : Timestamp) : StoreCall → Database × StoreReply
  | .create row => ((db.createWallet row).1, (db.createWallet row).2.map fun _ => none)
  | .get user => ((db.getWallet user).1, (db.getWallet user).2.map some)
  | .mutate wallet m => ((db.mutate now wallet m).database, (db.mutate now wallet m).result.map some)

/-- The database on which the tables have just been created. -/
def Database.fresh : Database := (Database.create false [] []).migrate.1

/-- **What the table asks of a row by itself:** no balance is below zero, and the column of
timestamps can hold the row's. -/
structure Tables.Admits (row : Wallet) : Prop where
  nonneg : ∀ c, 0 ≤ (row.balance c).units
  inTime : Tables.holdsTime row.updatedAt

/-- Every new wallet is one that the table admits. -/
def StoreCall.Admitted : StoreCall → Prop
  | .create row => Tables.Admits row
  | _ => True

/-! ### What is compared -/

/-- Equal failures, except that a store may say in its own words why it cannot store. -/
inductive WalletError.SameKind : WalletError → WalletError → Prop
  | equal (e : WalletError) : SameKind e e
  | storage (a b : StorageFault) : SameKind (.storage a) (.storage b)

/-- The same outcome with the same account, or failures of the same kind. -/
inductive SameReply : StoreReply → StoreReply → Prop
  | done : SameReply (.ok none) (.ok none)
  | found {v w : Wallet} (same : v.SameAccount w) : SameReply (.ok (some v)) (.ok (some w))
  | failed {e f : WalletError} (same : e.SameKind f) : SameReply (.error e) (.error f)

/-- What is written to the row is the account that was computed. -/
theorem Wallet.SameAccount.written {m : Mutation} {now : Timestamp} {v w : Wallet}
    (applied : m.applyTo now v = .ok w) : w.SameAccount (Tables.withBalancesOf v w) := by
  have moves := (Mutation.applyTo_spec applied).1
  exact ⟨moves.id_eq, moves.user_eq, fun c => by simp⟩

/-! ### Rows of a user -/

namespace Tables

variable {t : Tables} {row w : Wallet} {user : Uuid}

theorem ofUser?_eq_none_iff :
    t.ofUser? user = none ↔ ∀ id w, t.wallets.get? id = some w → w.user ≠ user := by
  unfold ofUser?
  rw [List.find?_eq_none]
  constructor
  · intro none id w there
    simpa using none w (Table.mem_values_iff.2 ⟨id, there⟩)
  · intro none w hw
    obtain ⟨id, there⟩ := Table.mem_values_iff.1 hw
    simpa using none id w there

theorem of_ofUser?_eq_some (h : t.ofUser? user = some w) :
    w.user = user ∧ ∃ id, t.wallets.get? id = some w := by
  unfold ofUser? at h
  exact ⟨by simpa using List.find?_some h, Table.mem_values_iff.1 (List.mem_of_find?_eq_some h)⟩

/-- What keeps a row out is the server's rejection. -/
theorem rejected_of_obstacle? {cause : DatabaseError} (h : t.obstacle? row = some cause) :
    ∃ code detail, cause = .rejected code detail := by
  unfold obstacle? at h
  split at h
  · cases h
    exact ⟨_, _, rfl⟩
  · split at h
    · cases h
      exact ⟨_, _, rfl⟩
    · split at h
      · cases h
        exact ⟨_, _, rfl⟩
      · split at h
        · cases h
          exact ⟨_, _, rfl⟩
        · cases h

/-- **Nothing keeps a row out** if the table admits it and its identifier and its user are free. -/
theorem obstacle?_eq_none_iff : t.obstacle? row = none ↔
    Admits row ∧ t.wallets.get? row.id = none ∧ t.ofUser? row.user = none := by
  unfold obstacle?
  by_cases inTime : holdsTime row.updatedAt
  · rw [if_neg (by simp [inTime])]
    cases below : negativeBalance? row with
    | some c =>
      have owes : ¬ Admits row := by
        intro admits
        cases below.symm.trans (negativeBalance?_eq_none_iff.2 admits.nonneg)
      simp [owes]
    | none =>
      have admits : Admits row := ⟨negativeBalance?_eq_none_iff.1 below, inTime⟩
      cases h : t.wallets.get? row.id <;> cases h' : t.ofUser? row.user <;>
        simp [Table.contains, h, admits]
  · have untimely : ¬ Admits row := fun admits => inTime admits.inTime
    rw [if_pos (by simp [inTime])]
    simp [untimely]

end Tables

/-! ### A database that does not fail -/

namespace Database

variable {db : Database} {user : Uuid} {row : Wallet}

/-- The tables are there, no statement fails and no transaction is open. -/
structure Well (db : Database) : Prop where
  ready : db.migrated
  works : ∀ st, db.faults.get? st = none
  closed : db.transaction = none

theorem well_fresh : fresh.Well := ⟨rfl, fun _ => rfl, rfl⟩

/-- What is committed and what has been sent play no part in that. -/
theorem Well.committing (h : db.Well) (t : Tables) (sent : List Statement) :
    Well { db with committed := t, sent } :=
  ⟨h.ready, h.works, h.closed⟩

theorem Well.noted (h : db.Well) (st : Statement) : (db.noted st).Well :=
  h.committing db.committed (st :: db.sent)

theorem Well.visible_eq (h : db.Well) : db.visible = db.committed := by
  rw [visible, h.closed]
  rfl

theorem Well.write_eq (h : db.Well) (t : Tables) : db.write t = { db with committed := t } := by
  rw [write, h.closed]

/-- A statement that needs the tables has its effect. -/
theorem Well.send_needing {α : Type} (h : db.Well) (st : Statement) (table : String)
    (effect : Database → Reply α) : db.send st (needing table effect) = effect (db.noted st) := by
  rw [send_of_works (h.works st), needing, if_pos (h.noted st).ready]

/-- A wallet is added if nothing stands in its way. -/
theorem Well.createWallet_of_free (h : db.Well) (free : db.committed.obstacle? row = none) :
    db.createWallet row =
      ({ db.noted .insertWallet with
          committed := { db.committed with wallets := db.committed.wallets.insert row.id row } },
        .ok ()) := by
  have seen : (db.noted .insertWallet).visible = db.committed := (h.noted _).visible_eq
  unfold createWallet insertWallet
  rw [h.send_needing, seen, free]
  dsimp only
  rw [(h.noted _).write_eq]

/-- Otherwise nothing is changed, and the failure is the store's. -/
theorem Well.createWallet_of_taken (h : db.Well) {cause : DatabaseError}
    (taken : db.committed.obstacle? row = some cause) :
    ∃ fault, db.createWallet row = (db.noted .insertWallet, .error (.storage fault)) := by
  have seen : (db.noted .insertWallet).visible = db.committed := (h.noted _).visible_eq
  obtain ⟨code, detail, rfl⟩ := Tables.rejected_of_obstacle? taken
  unfold createWallet insertWallet
  rw [h.send_needing, seen, taken]
  dsimp only
  split
  · exact ⟨_, rfl⟩
  · exact ⟨_, rfl⟩

theorem Well.createWallet_isOk_iff (h : db.Well) :
    (db.createWallet row).2 = .ok () ↔ db.committed.obstacle? row = none := by
  cases ho : db.committed.obstacle? row with
  | none => simp [h.createWallet_of_free ho]
  | some cause =>
    obtain ⟨fault, hd⟩ := h.createWallet_of_taken ho
    simp [hd]

theorem Well.getWallet_eq (h : db.Well) :
    db.getWallet user = (db.noted .selectWallet,
      match db.committed.ofUser? user with
      | some w => .ok w
      | none => .error .walletNotFound) := by
  have seen : (db.noted .selectWallet).visible = db.committed := (h.noted _).visible_eq
  unfold getWallet selectWallet
  rw [h.send_needing, seen]
  cases db.committed.ofUser? user <;> rfl

end Database

/-! ### The relation that is kept -/

/-- **Memory and database hold the same accounts** under the same identifiers. -/
structure Mirrors (s : MemoryStore) (db : Database) : Prop where
  well : db.Well
  sound : s.Sound
  rows : ∀ id, Option.Rel Wallet.SameAccount (s.rows.get? id) (db.committed.wallets.get? id)
  nonneg : ∀ {id row}, s.rows.get? id = some row → ∀ c, 0 ≤ (row.balance c).units

namespace Mirrors

variable {s t : MemoryStore} {db : Database} {now later : Timestamp} {id user : Uuid}
  {v w row : Wallet} {m : Mutation}

theorem fresh : Mirrors .empty .fresh where
  well := Database.well_fresh
  sound := .empty
  rows _ := .none
  nonneg h := nomatch h

theorem there (h : Mirrors s db) (hs : s.rows.get? id = some v) :
    ∃ w, db.committed.wallets.get? id = some w ∧ v.SameAccount w := by
  have same := h.rows id
  rw [hs] at same
  generalize db.committed.wallets.get? id = found at same
  cases same with
  | some same => exact ⟨_, rfl, same⟩

theorem there_symm (h : Mirrors s db) (hd : db.committed.wallets.get? id = some w) :
    ∃ v, s.rows.get? id = some v ∧ v.SameAccount w := by
  have same := h.rows id
  rw [hd] at same
  generalize s.rows.get? id = found at same
  cases same with
  | some same => exact ⟨_, rfl, same⟩

theorem gone_iff (h : Mirrors s db) :
    db.committed.wallets.get? id = none ↔ s.rows.get? id = none := by
  constructor
  · intro gone
    refine Option.eq_none_iff_forall_ne_some.2 fun v hs => ?_
    obtain ⟨w, hd, -⟩ := h.there hs
    cases gone.symm.trans hd
  · intro gone
    refine Option.eq_none_iff_forall_ne_some.2 fun w hd => ?_
    obtain ⟨v, hs, -⟩ := h.there_symm hd
    cases gone.symm.trans hs

/-- A user has a row on one side exactly if he has one on the other: the index leads to the row that
the search finds. -/
theorem ofUser_none_iff (h : Mirrors s db) :
    db.committed.ofUser? user = none ↔ s.byUser.get? user = none := by
  rw [Tables.ofUser?_eq_none_iff]
  constructor
  · intro none
    cases hu : s.byUser.get? user with
    | none => rfl
    | some id =>
      obtain ⟨v, hv, owner⟩ := h.sound.row_of_index hu
      obtain ⟨w, hw, same⟩ := h.there hv
      exact absurd (same.user_eq.symm.trans owner) (none id w hw)
  · intro none id w hw owner
    obtain ⟨v, hv, same⟩ := h.there_symm hw
    have index := h.sound.index_of_row hv
    rw [same.user_eq, owner, none] at index
    cases index

theorem ofUser_symm (h : Mirrors s db) (hd : db.committed.ofUser? user = some w) :
    ∃ v, s.get user = .ok v ∧ v.SameAccount w := by
  obtain ⟨owner, id, hw⟩ := Tables.of_ofUser?_eq_some hd
  obtain ⟨v, hv, same⟩ := h.there_symm hw
  have index := h.sound.index_of_row hv
  rw [same.user_eq, owner] at index
  exact ⟨v, MemoryStore.get_eq_ok_iff.2 ⟨id, index, hv⟩, same⟩

theorem ofUser (h : Mirrors s db) (found : s.get user = .ok v) :
    ∃ w, db.committed.ofUser? user = some w ∧ v.SameAccount w := by
  cases hd : db.committed.ofUser? user with
  | none =>
    obtain ⟨id, index, -⟩ := MemoryStore.get_eq_ok_iff.1 found
    cases index.symm.trans (h.ofUser_none_iff.1 hd)
  | some w =>
    obtain ⟨v', found', same⟩ := h.ofUser_symm hd
    cases found.symm.trans found'
    exact ⟨w, rfl, same⟩

/-! ### The calls -/

/-- Nothing happens to the rows on either side. -/
theorem resting (h : Mirrors s db) (sent : List Statement) : Mirrors s { db with sent } :=
  ⟨h.well.committing db.committed sent, h.sound, h.rows, h.nonneg⟩

/-- Both sides get the same account under the same identifier. -/
theorem writing (h : Mirrors s db) (sound : t.Sound) (ht : t.rows = s.rows.insert id v)
    (same : v.SameAccount w) (nonneg : ∀ c, 0 ≤ (v.balance c).units) (sent : List Statement) :
    Mirrors t
      { db with
        committed := { db.committed with wallets := db.committed.wallets.insert id w }, sent } where
  well := h.well.committing _ sent
  sound := sound
  rows id' := by
    rw [ht, Table.get?_insert, Table.get?_insert]
    split
    · exact .some same
    · exact h.rows id'
  nonneg {id' row} there := by
    rw [ht, Table.get?_insert] at there
    split at there
    · exact Option.some.inj there ▸ nonneg
    · exact h.nonneg there

/-- What keeps a row out of the database keeps it out of the memory, unless the table does not admit
it. -/
theorem obstacle_none_iff (h : Mirrors s db) : db.committed.obstacle? row = none ↔
    Tables.Admits row ∧ s.rows.get? row.id = none ∧ s.byUser.get? row.user = none := by
  rw [Tables.obstacle?_eq_none_iff, h.gone_iff, h.ofUser_none_iff]

theorem create (h : Mirrors s db) (admits : Tables.Admits row) :
    Mirrors (s.perform now (.create row)).1 (db.perform later (.create row)).1 ∧
      SameReply (s.perform now (.create row)).2 (db.perform later (.create row)).2 := by
  unfold MemoryStore.perform Database.perform
  dsimp only
  have obstacle : db.committed.obstacle? row = none ↔ _ := h.obstacle_none_iff
  -- what stands in the way of the row is told apart differently on the two sides, but it stands in
  -- the way of both or of none
  cases hc : s.create row with
  | ok t =>
    obtain ⟨free, fresh, rfl⟩ := MemoryStore.create_eq_ok hc
    rw [h.well.createWallet_of_free (obstacle.2 ⟨admits, fresh, free⟩)]
    exact ⟨h.writing (h.sound.create hc) rfl (.refl row) admits.nonneg _, .done⟩
  | error e =>
    cases ho : db.committed.obstacle? row with
    | none =>
      obtain ⟨t, taken⟩ := MemoryStore.create_isOk_iff.2 (obstacle.1 ho).2
      cases hc.symm.trans taken
    | some cause =>
      obtain ⟨fault, hd⟩ := h.well.createWallet_of_taken ho
      rw [hd]
      obtain rfl | rfl := MemoryStore.create_eq_error hc
      · exact ⟨h.resting _, .failed (.storage ..)⟩
      · exact ⟨h.resting _, .failed (.storage ..)⟩

theorem get (h : Mirrors s db) :
    Mirrors (s.perform now (.get user)).1 (db.perform later (.get user)).1 ∧
      SameReply (s.perform now (.get user)).2 (db.perform later (.get user)).2 := by
  unfold MemoryStore.perform Database.perform
  dsimp only
  rw [h.well.getWallet_eq]
  refine ⟨h.resting _, ?_⟩
  cases hg : s.get user with
  | ok v =>
    obtain ⟨w, hd, same⟩ := h.ofUser hg
    rw [hd]
    exact .found same
  | error e =>
    obtain rfl := MemoryStore.get_eq_error hg
    cases hd : db.committed.ofUser? user with
    | none => exact .failed (.equal _)
    | some w =>
      obtain ⟨v, found, -⟩ := h.ofUser_symm hd
      cases hg.symm.trans found

/-- The row that a mutation would write has no balance that the table refuses. -/
theorem allowed (h : Mirrors s db) (hd : db.committed.wallets.get? id = some row)
    (applied : m.applyTo now row = .ok w) : Tables.negativeBalance? w = none := by
  obtain ⟨v, hv, same⟩ := h.there_symm hd
  have before : ∀ c, 0 ≤ (row.balance c).units := fun c => same.balance_eq c ▸ h.nonneg hv c
  exact Tables.negativeBalance?_eq_none_iff.2
    ((Mutation.applyTo_spec applied).1.balance_nonneg before)

/-- If the database gives a failure it has written nothing. -/
theorem failing (h : Mirrors s db) {e : WalletError} (fails : (db.mutate now id m).result = .error e) :
    Mirrors s (db.mutate now id m).database := by
  rw [(db.mutate_ends now id m h.well.closed).unchanged h.well.closed fails]
  exact h.resting _

theorem mutate (h : Mirrors s db) :
    Mirrors (s.perform now (.mutate id m)).1 (db.perform later (.mutate id m)).1 ∧
      SameReply (s.perform now (.mutate id m)).2 (db.perform later (.mutate id m)).2 := by
  have begins := h.well.works .begin_
  have locks := h.well.works .lockWallet
  unfold MemoryStore.perform Database.perform
  dsimp only
  cases hm : s.mutate now id m with
  | error e =>
    have told : (db.mutate later id m).result = .error e := by
      obtain ⟨gone, rfl⟩ | ⟨v, hv, fails⟩ := MemoryStore.mutate_eq_error hm
      · exact Database.mutate_of_gone begins locks h.well.ready (h.gone_iff.2 gone)
      · obtain ⟨w, hw, same⟩ := h.there hv
        exact Database.mutate_of_rejects begins locks h.well.ready hw (same.applyTo_error fails)
    rw [told]
    exact ⟨h.failing told, .failed (.equal e)⟩
  | ok after =>
    obtain ⟨t, next⟩ := after
    obtain ⟨v, hv, applied, ht⟩ := MemoryStore.mutate_eq_ok hm
    obtain ⟨w, hw, same⟩ := h.there hv
    obtain ⟨next', applied', same'⟩ := same.applyTo_ok later applied
    have told : (db.mutate later id m).result = .ok next' :=
      Database.mutate_of_applied begins locks h.well.ready (h.well.works _) (h.well.works _) hw
        applied' (h.allowed hw applied')
    obtain ⟨row, sent, hw', applied'', hd⟩ :=
      (db.mutate_ends later id m h.well.closed).written h.well.closed told
    rw [told, hd]
    have nonneg := (Mutation.applyTo_spec applied).1.balance_nonneg (h.nonneg hv)
    -- the database writes the balances into its own row, which is the same account as the answer
    refine ⟨?_, .found same'⟩
    exact h.writing (h.sound.mutate hm) (by rw [ht]) (same'.trans (.written applied'')) nonneg sent

/-- **One call keeps the relation** and gets the same reply on both sides. -/
theorem perform (h : Mirrors s db) (call : StoreCall) (ok : call.Admitted) :
    Mirrors (s.perform now call).1 (db.perform later call).1 ∧
      SameReply (s.perform now call).2 (db.perform later call).2 := by
  cases call with
  | create row => exact h.create ok
  | get user => exact h.get
  | mutate wallet m => exact h.mutate

/-- **Calls one after another** keep the relation and get the same replies. -/
theorem performAll (h : Mirrors s db) (clock clock' : Nat → Timestamp) (calls : List StoreCall)
    (ok : ∀ call ∈ calls, call.Admitted) :
    Mirrors (performAll MemoryStore.perform s clock calls).1
        (performAll Database.perform db clock' calls).1 ∧
      List.Forall₂ SameReply (performAll MemoryStore.perform s clock calls).2
        (performAll Database.perform db clock' calls).2 := by
  induction calls generalizing s db clock clock' with
  | nil => exact ⟨h, .nil⟩
  | cons call calls ih =>
    obtain ⟨first, same⟩ := h.perform call (ok call List.mem_cons_self)
    obtain ⟨last, alike⟩ := ih first _ _ fun c hc => ok c (List.mem_cons_of_mem call hc)
    exact ⟨last, .cons same alike⟩

/-- The write of a mutation that the row allows goes through. -/
theorem checked (h : Mirrors s db) (hd : db.committed.wallets.get? id = some row)
    (applied : m.applyTo now row = .ok w) :
    ((db.begin_.1.lockWallet id).1.updateWallet id w).2 = .ok () := by
  have locked : db.begin_.1.lockWallet id = (db.opened.noted .lockWallet, .ok (some row)) := by
    rw [Database.begin_of_works (h.well.works _),
      Database.lockWallet_of_works (show db.opened.faults.get? _ = none from h.well.works _)
        (show db.opened.migrated from h.well.ready)]
    exact congrArg (fun r => (db.opened.noted .lockWallet, Except.ok r)) hd
  rw [locked, Database.updateWallet_of_works
    (show (db.opened.noted .lockWallet).faults.get? _ = none from h.well.works _)
    (show (db.opened.noted .lockWallet).migrated from h.well.ready) hd (h.allowed hd applied)]

end Mirrors

/-! ### From the beginning -/

/-- **What the two sides have in common** after the same calls. -/
structure Agree (memory : MemoryStore × List StoreReply) (database : Database × List StoreReply) :
    Prop where
  /-- Every call had the same outcome. -/
  replies : List.Forall₂ SameReply memory.2 database.2
  /-- The rows hold the same accounts. -/
  rows : ∀ id,
    Option.Rel Wallet.SameAccount (memory.1.rows.get? id) (database.1.committed.wallets.get? id)
  /-- No balance is below zero. -/
  nonneg : ∀ {id row}, database.1.committed.wallets.get? id = some row →
    ∀ c, 0 ≤ (row.balance c).units
  /-- A mutation that the row allows never violates the constraints of the table. -/
  checked : ∀ {id m now row next}, database.1.committed.wallets.get? id = some row →
    Mutation.applyTo m now row = .ok next →
    ((database.1.begin_.1.lockWallet id).1.updateWallet id next).2 = .ok ()

/-- **The database refines the rows in memory.** Any calls, one after another, get the same replies
on a database whose tables have just been created as on the empty store, and leave the same rows;
the calls being arbitrary, this is so after each of them. -/
theorem agree_performAll (clock clock' : Nat → Timestamp) (calls : List StoreCall)
    (ok : ∀ call ∈ calls, call.Admitted) :
    Agree (performAll MemoryStore.perform .empty clock calls)
      (performAll Database.perform .fresh clock' calls) := by
  obtain ⟨mirrors, replies⟩ := Mirrors.fresh.performAll clock clock' calls ok
  refine ⟨replies, mirrors.rows, fun {id row} there c => ?_, fun there applied => ?_⟩
  · obtain ⟨v, hv, same⟩ := mirrors.there_symm there
    exact same.balance_eq c ▸ mirrors.nonneg hv c
  · exact mirrors.checked there applied

/-- Wallets of two users, one with the identifier of the other; then too much is taken, currencies
are exchanged, and a balance overflows. -/
def exercise : List StoreCall :=
  let user := Uuid.ofNat 1
  let other := Uuid.ofNat 3
  let id := Uuid.ofNat 2
  [.create (.create id user .epoch), .create (.create (.ofNat 4) user .epoch),
    .create (.create id other .epoch), .mutate id (.deposit .usd (.ofMajor 5)),
    .mutate id (.withdraw .usd (.ofMajor 7)),
    .mutate id (.exchange .usd (.ofMajor 2) .rub (.ofMajor 180)),
    .mutate id (.deposit .rub ⟨MinorUnits.greatest, by decide, by decide⟩), .get user, .get other]

/-- Both sides refuse the same calls, the third in words of their own. -/
theorem agree_exercise :
    let clock (n : Nat) : Timestamp := Timestamp.epoch.afterMillis n
    let memory := performAll MemoryStore.perform .empty clock exercise
    let database := performAll Database.perform .fresh (fun _ => .epoch) exercise
    memory.2.map Except.isOk = [true, false, false, true, false, true, false, true, false] ∧
      memory.2[2]? = some (.error (.storage (.walletTaken (.ofNat 2)))) ∧
      database.2[2]? = some (.error (.storage (.userTaken (.ofNat 3)))) ∧
      Agree memory database := by
  refine ⟨rfl, rfl, rfl, agree_performAll _ _ _ fun call hc => ?_⟩
  simp only [exercise, List.mem_cons, List.not_mem_nil, or_false] at hc
  rcases hc with rfl | rfl | rfl | rfl | rfl | rfl | rfl | rfl | rfl
  -- the new wallets are empty
  iterate 3 exact ⟨fun c => by simp, rfl⟩
  all_goals trivial

end Purse
