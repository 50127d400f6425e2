import Purse.Proofs.Wallet.Mutation
import Purse.Store.Memory

/-!
# The rows and their index

`MemoryStore.Sound` says that the two tables of a store are one relation read from both ends: a row
is kept under its own identifier, the index leads from its user to it, and whatever the index names
is there. It holds of the empty store and is kept by everything that changes one.

What a change does to the other rows is `MemoryStore.Extends`: rows are never lost and never change
hands.
-/

namespace Purse.MemoryStore

variable {s t u : MemoryStore} {w row : Wallet} {now : Timestamp} {id user : Uuid} {m : Mutation}

/-- **The rows and the index agree.** -/
structure Sound (s : MemoryStore) : Prop where
  /-- A row is kept under its own identifier. -/
  id_of_row : ∀ {id row}, s.rows.get? id = some row → row.id = id
  /-- The index leads from the user of a row to it. -/
  index_of_row : ∀ {id row}, s.rows.get? id = some row → s.byUser.get? row.user = some id
  /-- What the index names is there, and is the user's. -/
  row_of_index : ∀ {user id}, s.byUser.get? user = some id →
    ∃ row, s.rows.get? id = some row ∧ row.user = user

theorem Sound.empty : (empty : MemoryStore).Sound where
  id_of_row h := nomatch h
  index_of_row h := nomatch h
  row_of_index h := nomatch h

/-! ### What the operations give -/

theorem get_eq_ok_iff : s.get user = .ok row ↔
    ∃ id, s.byUser.get? user = some id ∧ s.rows.get? id = some row := by
  unfold get
  split
  · next h => simp [h]
  · next id h =>
    split
    · next hr => simp [h, hr]
    · next hr => simp [h, hr]

/-- A row that is found for a user is found under its own identifier. -/
theorem Sound.get?_of_get (h : s.Sound) (there : s.get user = .ok row) :
    s.rows.get? row.id = some row := by
  obtain ⟨id, -, held⟩ := get_eq_ok_iff.1 there
  rwa [h.id_of_row held]

theorem get_eq_error {e : WalletError} (h : s.get user = .error e) : e = .walletNotFound := by
  unfold get at h
  split at h
  · cases h
    rfl
  · split at h
    · cases h
      rfl
    · cases h

theorem create_eq_error {e : WalletError} (h : s.create w = .error e) :
    e = .storage (.userTaken w.user) ∨ e = .storage (.walletTaken w.id) := by
  unfold create at h
  split at h
  · cases h
    exact .inl rfl
  · split at h
    · cases h
      exact .inr rfl
    · cases h

theorem create_eq_ok (h : s.create w = .ok t) :
    s.byUser.get? w.user = none ∧ s.rows.get? w.id = none ∧
      t = ⟨s.rows.insert w.id w, s.byUser.insert w.user w.id⟩ := by
  unfold create at h
  split at h
  · cases h
  next taken =>
  split at h
  · cases h
  next named =>
  cases h
  exact ⟨Option.not_isSome_iff_eq_none.1 taken, Option.not_isSome_iff_eq_none.1 named, rfl⟩

/-- A row is taken under a new identifier, of a user who has none. -/
theorem create_isOk_iff :
    (∃ t, s.create w = .ok t) ↔ s.rows.get? w.id = none ∧ s.byUser.get? w.user = none := by
  constructor
  · rintro ⟨t, hc⟩
    obtain ⟨free, fresh, -⟩ := create_eq_ok hc
    exact ⟨fresh, free⟩
  · rintro ⟨fresh, free⟩
    unfold create
    simp [Table.contains, fresh, free]

theorem mutate_eq_ok (h : s.mutate now id m = .ok (t, row)) :
    ∃ before, s.rows.get? id = some before ∧ m.applyTo now before = .ok row ∧
      t = { s with rows := s.rows.insert id row } := by
  unfold mutate at h
  split at h
  · cases h
  next before there =>
  split at h
  · next next_ applied =>
    cases h
    exact ⟨before, there, applied, rfl⟩
  · cases h

theorem mutate_eq_error {e : WalletError} (h : s.mutate now id m = .error e) :
    (s.rows.get? id = none ∧ e = .walletNotFound) ∨
      ∃ before, s.rows.get? id = some before ∧ m.applyTo now before = .error e := by
  unfold mutate at h
  split at h
  · next gone =>
    cases h
    exact .inl ⟨gone, rfl⟩
  next before there =>
  split at h
  · cases h
  · next fails =>
    cases h
    exact .inr ⟨before, there, fails⟩

/-- A mutation of a row that is there comes out as it does for the row. -/
theorem mutate_of_there (there : s.rows.get? id = some row) :
    s.mutate now id m =
      (m.applyTo now row).map fun next => ({ s with rows := s.rows.insert id next }, next) := by
  unfold mutate
  rw [there]
  dsimp only
  cases m.applyTo now row with
  | ok next => rfl
  | error e => rfl

/-- Under a name that is new, a wallet is refused only because its user has one. -/
theorem create_eq_error_of_new {e : WalletError} (sound : s.Sound) (h : s.create w = .error e)
    (new : s.rows.get? w.id = none) :
    e = .storage (.userTaken w.user) ∧ ∃ row, s.get w.user = .ok row := by
  unfold create at h
  split at h
  · next taken =>
    cases h
    obtain ⟨id, index⟩ := (Table.contains_iff ..).1 taken
    obtain ⟨row, there, -⟩ := sound.row_of_index index
    exact ⟨rfl, row, get_eq_ok_iff.2 ⟨id, index, there⟩⟩
  · split at h
    · next named =>
      obtain ⟨row, there⟩ := (Table.contains_iff ..).1 named
      cases new.symm.trans there
    · cases h

/-- **The new row is its user's,** and all others have what they had. -/
theorem get_create (sound : s.Sound) (h : s.create w = .ok t) (user : Uuid) :
    t.get user = if w.user = user then .ok w else s.get user := by
  obtain ⟨free, fresh, rfl⟩ := create_eq_ok h
  by_cases mine : w.user = user
  · rw [if_pos mine, get_eq_ok_iff, ← mine]
    exact ⟨w.id, Table.get?_insert_self .., Table.get?_insert_self ..⟩
  · unfold get
    rw [if_neg mine, Table.get?_insert_of_ne _ mine]
    cases index : s.byUser.get? user with
    | none => rfl
    | some id =>
      obtain ⟨row, there, -⟩ := sound.row_of_index index
      have ne : w.id ≠ id := by
        rintro rfl
        rw [fresh] at there
        cases there
      simp only [Table.get?_insert_of_ne _ ne]

/-- **The row that is written is its user's,** and all others have what they had. -/
theorem get_mutate (sound : s.Sound) (h : s.mutate now id m = .ok (t, row)) (user : Uuid) :
    t.get user = if row.user = user then .ok row else s.get user := by
  obtain ⟨before, there, applied, rfl⟩ := mutate_eq_ok h
  have same := (Mutation.applyTo_spec applied).1.user_eq
  by_cases mine : row.user = user
  · rw [if_pos mine, get_eq_ok_iff, ← mine, same]
    exact ⟨id, sound.index_of_row there, Table.get?_insert_self ..⟩
  · unfold get
    rw [if_neg mine]
    cases index : s.byUser.get? user with
    | none => rfl
    | some id' =>
      obtain ⟨row', there', its⟩ := sound.row_of_index index
      have ne : id ≠ id' := by
        rintro rfl
        obtain rfl := Option.some.inj (there.symm.trans there')
        exact mine (same.trans its)
      simp only [Table.get?_insert_of_ne _ ne]

/-! ### Soundness is kept -/

theorem Sound.create (h : s.Sound) (hc : s.create w = .ok t) : t.Sound := by
  obtain ⟨free, fresh, rfl⟩ := create_eq_ok hc
  refine ⟨fun {id row} hr => ?_, fun {id row} hr => ?_, fun {user id} hu => ?_⟩
  · rw [Table.get?_insert] at hr
    split at hr
    · next hid => exact Option.some.inj hr ▸ hid
    · exact h.id_of_row hr
  · rw [Table.get?_insert] at hr
    rw [Table.get?_insert]
    split at hr
    · next hid =>
      obtain rfl := Option.some.inj hr
      rw [if_pos rfl, hid]
    · -- an old row has another user, since the new row's user had none
      have old := h.index_of_row hr
      rw [if_neg fun hu => by rw [← hu, free] at old; cases old]
      exact old
  · rw [Table.get?_insert] at hu
    split at hu
    · next huser =>
      obtain rfl := Option.some.inj hu
      exact ⟨w, Table.get?_insert_self .., huser⟩
    · obtain ⟨row, hr, hrow⟩ := h.row_of_index hu
      refine ⟨row, ?_, hrow⟩
      rw [Table.get?_insert, if_neg fun hid => by rw [← hid, fresh] at hr; cases hr]
      exact hr

theorem Sound.mutate (h : s.Sound) (hm : s.mutate now id m = .ok (t, row)) : t.Sound := by
  obtain ⟨before, there, applied, rfl⟩ := mutate_eq_ok hm
  have moves := (Mutation.applyTo_spec applied).1
  -- the new row has the identifier and the user of the one that it replaces
  have hid := h.id_of_row there
  refine ⟨fun {id' row'} hr => ?_, fun {id' row'} hr => ?_, fun {user id'} hu => ?_⟩
  · rw [Table.get?_insert] at hr
    split at hr
    · next heq =>
      obtain rfl := Option.some.inj hr
      rw [moves.id_eq, hid, heq]
    · exact h.id_of_row hr
  · rw [Table.get?_insert] at hr
    split at hr
    · next heq =>
      obtain rfl := Option.some.inj hr
      rw [moves.user_eq, ← heq]
      exact h.index_of_row there
    · exact h.index_of_row hr
  · obtain ⟨row', hr, hrow⟩ := h.row_of_index hu
    by_cases heq : id = id'
    · subst heq
      obtain rfl := Option.some.inj (there.symm.trans hr)
      exact ⟨row, Table.get?_insert_self .., moves.user_eq.trans hrow⟩
    · exact ⟨row', (Table.get?_insert_of_ne _ heq _).trans hr, hrow⟩

/-! ### Rows stay -/

/-- A later state of a store: every user keeps the wallet that the index names, and every row is
still there. -/
structure Extends (s t : MemoryStore) : Prop where
  index : ∀ {user id}, s.byUser.get? user = some id → t.byUser.get? user = some id
  row : ∀ {id row}, s.rows.get? id = some row →
    ∃ later, t.rows.get? id = some later ∧ later.user = row.user

theorem Extends.refl (s : MemoryStore) : s.Extends s := ⟨id, fun h => ⟨_, h, rfl⟩⟩

theorem Extends.trans (h : s.Extends t) (k : t.Extends u) : s.Extends u := by
  refine ⟨fun hi => k.index (h.index hi), fun hr => ?_⟩
  obtain ⟨mid, hm, hmu⟩ := h.row hr
  obtain ⟨later, hl, hlu⟩ := k.row hm
  exact ⟨later, hl, hlu.trans hmu⟩

theorem extends_create (h : s.create w = .ok t) : s.Extends t := by
  obtain ⟨free, fresh, rfl⟩ := create_eq_ok h
  refine ⟨fun {user id} hu => ?_, fun {id row} hr => ⟨row, ?_, rfl⟩⟩
  · exact (Table.get?_insert_of_ne _ (fun heq => by rw [← heq, free] at hu; cases hu) _).trans hu
  · exact (Table.get?_insert_of_ne _ (fun heq => by rw [← heq, fresh] at hr; cases hr) _).trans hr

theorem extends_mutate (h : s.mutate now id m = .ok (t, row)) : s.Extends t := by
  obtain ⟨before, there, applied, rfl⟩ := mutate_eq_ok h
  refine ⟨fun hu => hu, fun {id' row'} hr => ?_⟩
  by_cases heq : id = id'
  · subst heq
    obtain rfl := Option.some.inj (there.symm.trans hr)
    exact ⟨row, Table.get?_insert_self .., (Mutation.applyTo_spec applied).1.user_eq⟩
  · exact ⟨row', (Table.get?_insert_of_ne _ heq _).trans hr, rfl⟩

end Purse.MemoryStore
