import Purse.Proofs.Store.Memory
import Purse.Proofs.Table

/-!
# Calls to a store

A store is changed by calls that come one after another; `performAll` makes them and collects the
replies. For the rows in memory a call does one of three things (`MemoryStore.perform_cases`): it
adds a row, it writes one anew, or it leaves everything as it is.

What the rows and the index have to do with each other and with the calls is `MemoryStore.Holds`:
the index leads to the rows that were taken, each under its identifier and for its user, and there
are no others. The calls being arbitrary, this is so after each of them
(`MemoryStore.paired_performAll`).
-/

namespace Purse

/-- A call to a store. Deposits, withdrawals and exchanges are its mutations. -/
inductive StoreCall where
  | create (row : Wallet)
  | get (user : Uuid)
  | mutate (wallet : Uuid) (m : Mutation)

/-- What a store replies: a wallet, or that a new one has been added, or why not. -/
abbrev StoreReply := Except WalletError (Option Wallet)

/-- A call to the rows in memory. -/
def MemoryStore.perform (s : MemoryStore) (now : Timestamp) : StoreCall → MemoryStore × StoreReply
  | .create row =>
    match s.create row with
    | .ok t => (t, .ok none)
    | .error e => (s, .error e)
  | .get user => (s, (s.get user).map some)
  | .mutate wallet m =>
    match s.mutate now wallet m with
    | .ok (t, row) => (t, .ok (some row))
    | .error e => (s, .error e)

/-- Calls one after another, each at the next time that the clock shows: the state in the end, and
the replies. -/
def performAll {σ : Type} (perform : σ → Timestamp → StoreCall → σ × StoreReply) :
    σ → (Nat → Timestamp) → List StoreCall → σ × List StoreReply
  | s, _, [] => (s, [])
  | s, clock, call :: calls =>
    let first := perform s (clock 0) call
    let rest := performAll perform first.1 (fun n => clock (n + 1)) calls
    (rest.1, first.2 :: rest.2)

/-- What every call keeps is kept by calls one after another. -/
theorem performAll_invariant {σ : Type} {perform : σ → Timestamp → StoreCall → σ × StoreReply}
    {P : σ → Prop} (step : ∀ s now call, P s → P (perform s now call).1) {s : σ} (start : P s)
    (clock : Nat → Timestamp) (calls : List StoreCall) :
    P (performAll perform s clock calls).1 := by
  induction calls generalizing s clock with
  | nil => exact start
  | cons call calls ih => exact ih (step s (clock 0) call start) fun n => clock (n + 1)

/-- Calls after other calls find the state that those have left. -/
theorem performAll_append {σ : Type} {perform : σ → Timestamp → StoreCall → σ × StoreReply}
    (s : σ) (clock : Nat → Timestamp) (calls later : List StoreCall) :
    (performAll perform s clock (calls ++ later)).1 =
      (performAll perform (performAll perform s clock calls).1
        (fun n => clock (n + calls.length)) later).1 := by
  induction calls generalizing s clock with
  | nil => rfl
  | cons call calls ih => exact ih (perform s (clock 0) call).1 fun n => clock (n + 1)

/-! ### The rows that are taken -/

/-- The row that a call adds, if it is not refused. -/
def StoreCall.taken? : StoreCall → StoreReply → Option Wallet
  | .create row, .ok _ => some row
  | _, _ => none

/-- The rows that calls add, given the replies. -/
def rowsTaken (calls : List StoreCall) (replies : List StoreReply) : List Wallet :=
  (calls.zip replies).filterMap fun made => made.1.taken? made.2

theorem rowsTaken_cons (call : StoreCall) (reply : StoreReply) (calls : List StoreCall)
    (replies : List StoreReply) :
    rowsTaken (call :: calls) (reply :: replies) =
      (call.taken? reply).toList ++ rowsTaken calls replies := by
  unfold rowsTaken
  rw [List.zip_cons_cons, List.filterMap_cons]
  cases call.taken? reply <;> rfl

namespace MemoryStore

variable {s t : MemoryStore} {w row : Wallet} {now : Timestamp} {id user : Uuid} {m : Mutation}
  {rows : List Wallet}

/-- **What a call does:** it adds a row, writes one anew, or leaves everything as it is. -/
theorem perform_cases (s : MemoryStore) (now : Timestamp) (call : StoreCall) :
    (∃ row t, s.create row = .ok t ∧ (s.perform now call).1 = t ∧
      call.taken? (s.perform now call).2 = some row) ∨
    (∃ id m t row, s.mutate now id m = .ok (t, row) ∧ (s.perform now call).1 = t ∧
      call.taken? (s.perform now call).2 = none) ∨
    ((s.perform now call).1 = s ∧ call.taken? (s.perform now call).2 = none) := by
  unfold perform
  cases call with
  | create row =>
    dsimp only
    cases hc : s.create row with
    | ok t => exact .inl ⟨row, t, hc, rfl, rfl⟩
    | error e => exact .inr (.inr ⟨rfl, rfl⟩)
  | get user => exact .inr (.inr ⟨rfl, rfl⟩)
  | mutate id m =>
    dsimp only
    cases hm : s.mutate now id m with
    | ok after => exact .inr (.inl ⟨id, m, after.1, after.2, hm, rfl, rfl⟩)
    | error e => exact .inr (.inr ⟨rfl, rfl⟩)

/-- Rows and index agree after every call, and no row is too odd for that. -/
theorem Sound.perform (h : s.Sound) (now : Timestamp) (call : StoreCall) :
    (s.perform now call).1.Sound := by
  obtain ⟨row, t, hc, ht, -⟩ | ⟨id, m, t, row, hm, ht, -⟩ | ⟨ht, -⟩ := s.perform_cases now call
  · rw [ht]
    exact h.create hc
  · rw [ht]
    exact h.mutate hm
  · rw [ht]
    exact h

/-- Every call leaves the rows where they are, and with their users. -/
theorem extends_perform (s : MemoryStore) (now : Timestamp) (call : StoreCall) :
    s.Extends (s.perform now call).1 := by
  obtain ⟨row, t, hc, ht, -⟩ | ⟨id, m, t, row, hm, ht, -⟩ | ⟨ht, -⟩ := s.perform_cases now call
  · rw [ht]
    exact extends_create hc
  · rw [ht]
    exact extends_mutate hm
  · rw [ht]
    exact .refl s

theorem extends_performAll (s : MemoryStore) (clock : Nat → Timestamp) (calls : List StoreCall) :
    s.Extends (performAll perform s clock calls).1 :=
  performAll_invariant (fun t now call h => h.trans (t.extends_perform now call)) (.refl s) clock
    calls

/-! ### The rows that are held -/

/-- **The tables hold some rows:** as many as these there are, and the index leads to them. -/
structure Holds (s : MemoryStore) (rows : List Wallet) : Prop where
  sound : s.Sound
  size_eq : s.size = rows.length
  /-- The index names the rows by their users. -/
  index_iff : ∀ {user id}, s.byUser.get? user = some id ↔
    ∃ row ∈ rows, row.user = user ∧ row.id = id

theorem holds_empty : (empty : MemoryStore).Holds [] where
  sound := .empty
  size_eq := rfl
  index_iff := by simp [empty]

theorem Holds.create (h : s.Holds rows) (hc : s.create w = .ok t) : t.Holds (rows ++ [w]) := by
  have sound := h.sound.create hc
  obtain ⟨free, fresh, rfl⟩ := create_eq_ok hc
  refine ⟨sound, ?_, fun {user id} => ?_⟩
  · have grown := Table.size_insert_of_none fresh w
    rw [List.length_append, ← h.size_eq]
    exact grown
  · rw [Table.get?_insert]
    split
    · next mine =>
      -- the user had none before, so the new row is his only one
      constructor
      · intro named
        exact ⟨w, List.mem_append_right rows (List.mem_singleton_self w), mine,
          Option.some.inj named⟩
      · rintro ⟨row, hr, his, rfl⟩
        rcases List.mem_append.1 hr with old | new
        · have before := h.index_iff.2 ⟨row, old, his.trans mine.symm, rfl⟩
          cases free.symm.trans before
        · rw [List.mem_singleton.1 new]
    · next other =>
      rw [h.index_iff]
      constructor
      · rintro ⟨row, hr, his⟩
        exact ⟨row, List.mem_append_left [w] hr, his⟩
      · rintro ⟨row, hr, his, named⟩
        rcases List.mem_append.1 hr with old | new
        · exact ⟨row, old, his, named⟩
        · rw [List.mem_singleton.1 new] at his
          exact absurd his other

theorem Holds.mutate (h : s.Holds rows) (hm : s.mutate now id m = .ok (t, row)) : t.Holds rows := by
  have sound := h.sound.mutate hm
  obtain ⟨before, there, -, rfl⟩ := mutate_eq_ok hm
  have same := Table.size_insert_of_some there row
  exact ⟨sound, same.trans h.size_eq, h.index_iff⟩

theorem Holds.perform (h : s.Holds rows) (now : Timestamp) (call : StoreCall) :
    (s.perform now call).1.Holds (rows ++ (call.taken? (s.perform now call).2).toList) := by
  obtain ⟨row, t, hc, ht, added⟩ | ⟨id, m, t, row, hm, ht, none_⟩ | ⟨ht, none_⟩ :=
    s.perform_cases now call
  · rw [added, ht]
    exact h.create hc
  · rw [none_, ht, Option.toList_none, List.append_nil]
    exact h.mutate hm
  · rw [none_, ht, Option.toList_none, List.append_nil]
    exact h

/-- **Calls one after another** add the rows that are taken, and no others. -/
theorem Holds.performAll (h : s.Holds rows) (clock : Nat → Timestamp) (calls : List StoreCall) :
    (performAll MemoryStore.perform s clock calls).1.Holds
      (rows ++ rowsTaken calls (performAll MemoryStore.perform s clock calls).2) := by
  induction calls generalizing s rows clock with
  | nil =>
    have nothing : rowsTaken [] [] = [] := rfl
    rw [Purse.performAll, nothing, List.append_nil]
    exact h
  | cons call calls ih =>
    have last := ih (h.perform (clock 0) call) fun n => clock (n + 1)
    rw [List.append_assoc, ← rowsTaken_cons] at last
    exact last

/-- Whoever has brought a row finds one, and nobody else does. -/
theorem Holds.exists_get_iff (h : s.Holds rows) :
    (∃ row, s.get user = .ok row) ↔ ∃ row ∈ rows, row.user = user := by
  constructor
  · rintro ⟨row, found⟩
    obtain ⟨id, named, -⟩ := get_eq_ok_iff.1 found
    obtain ⟨brought, hr, his, -⟩ := h.index_iff.1 named
    exact ⟨brought, hr, his⟩
  · rintro ⟨brought, hr, his⟩
    have named := h.index_iff.2 ⟨brought, hr, his, rfl⟩
    obtain ⟨row, there, -⟩ := h.sound.row_of_index named
    exact ⟨row, get_eq_ok_iff.2 ⟨brought.id, named, there⟩⟩

/-- A row is refused exactly if its user or its identifier is there already. -/
theorem perform_create_eq_error_iff :
    (∃ e, (s.perform now (.create row)).2 = .error e) ↔
      (∃ id, s.byUser.get? row.user = some id) ∨ ∃ other, s.rows.get? row.id = some other := by
  unfold perform
  dsimp only
  cases hc : s.create row with
  | ok t =>
    obtain ⟨free, fresh, -⟩ := create_eq_ok hc
    simp [free, fresh]
  | error e =>
    refine iff_of_true ⟨e, rfl⟩ ?_
    by_contra absent
    obtain ⟨free, fresh⟩ := not_or.1 absent
    -- with neither there the row would have been taken
    obtain ⟨t, taken⟩ := create_isOk_iff.2 ⟨Option.eq_none_iff_forall_ne_some.2 fun other there =>
      fresh ⟨other, there⟩, Option.eq_none_iff_forall_ne_some.2 fun id named => free ⟨id, named⟩⟩
    cases hc.symm.trans taken

theorem perform_create_of_error {e : WalletError}
    (h : (s.perform now (.create row)).2 = .error e) : (s.perform now (.create row)).1 = s := by
  unfold perform at h ⊢
  dsimp only at h ⊢
  cases hc : s.create row with
  | ok t =>
    rw [hc] at h
    cases h
  | error e => rfl

/-! ### From the beginning -/

/-- The rows in memory after some calls. -/
def after (clock : Nat → Timestamp) (calls : List StoreCall) : MemoryStore :=
  (Purse.performAll perform empty clock calls).1

/-- The rows that were taken on the way. -/
def takenBy (clock : Nat → Timestamp) (calls : List StoreCall) : List Wallet :=
  rowsTaken calls (Purse.performAll perform empty clock calls).2

/-- **Rows and users are paired:** how the two tables stand after some calls. -/
structure Paired (clock : Nat → Timestamp) (calls : List StoreCall) : Prop where
  /-- What the index names is there, under its own identifier and for its user. -/
  row_of_index : ∀ {user id}, (after clock calls).byUser.get? user = some id →
    ∃ row, (after clock calls).rows.get? id = some row ∧ row.id = id ∧ row.user = user
  /-- A row is named by its user, and by nobody else. -/
  index_iff_of_row : ∀ {id row}, (after clock calls).rows.get? id = some row →
    ∀ user, (after clock calls).byUser.get? user = some id ↔ user = row.user
  /-- There are as many rows as were taken. -/
  size_eq : (after clock calls).size = (takenBy clock calls).length
  /-- A row that was there at some time is there still, as the row of the same user. -/
  kept : ∀ {earlier id row}, earlier <+: calls → (after clock earlier).rows.get? id = some row →
    ∃ later, (after clock calls).rows.get? id = some later ∧
      later.id = row.id ∧ later.user = row.user
  /-- A row is refused exactly if its user or its identifier is there, and then nothing changes. -/
  refused_iff : ∀ row now, (∃ e, ((after clock calls).perform now (.create row)).2 = .error e) ↔
    (∃ id, (after clock calls).byUser.get? row.user = some id) ∨
      ∃ other, (after clock calls).rows.get? row.id = some other
  unchanged : ∀ row now e, ((after clock calls).perform now (.create row)).2 = .error e →
    ((after clock calls).perform now (.create row)).1 = after clock calls
  /-- Those find a row who have brought one. -/
  found_iff : ∀ user, (∃ row, (after clock calls).get user = .ok row) ↔
    ∃ row ∈ takenBy clock calls, row.user = user
  /-- The index never leads nowhere. -/
  reached : ∀ {user id}, (after clock calls).byUser.get? user = some id →
    (after clock calls).rows.get? id ≠ none

/-- The rows that were taken are held. -/
theorem holds_after (clock : Nat → Timestamp) (calls : List StoreCall) :
    (after clock calls).Holds (takenBy clock calls) :=
  holds_empty.performAll clock calls

/-- Whatever comes after some calls leaves their rows where they are. -/
theorem extends_after (clock : Nat → Timestamp) (calls later : List StoreCall) :
    (after clock calls).Extends (after clock (calls ++ later)) := by
  unfold after
  rw [performAll_append]
  exact extends_performAll _ _ later

/-- **The two tables stay paired,** whatever rows are brought and whatever is done to them. -/
theorem paired_performAll (clock : Nat → Timestamp) (calls : List StoreCall) :
    Paired clock calls where
  row_of_index {user id} named := by
    have sound := (holds_after clock calls).sound
    obtain ⟨row, there, his⟩ := sound.row_of_index named
    exact ⟨row, there, sound.id_of_row there, his⟩
  index_iff_of_row {id row} there user := by
    have sound := (holds_after clock calls).sound
    constructor
    · intro named
      -- the index leads whoever it leads here to a row of his own, and there is only this one
      obtain ⟨row', there', his⟩ := sound.row_of_index named
      rw [← his, Option.some.inj (there'.symm.trans there)]
    · rintro rfl
      exact sound.index_of_row there
  size_eq := (holds_after clock calls).size_eq
  kept {earlier id row} first there := by
    obtain ⟨later, rfl⟩ := first
    obtain ⟨row', there', same⟩ := (extends_after clock earlier later).row there
    have before := (holds_after clock earlier).sound.id_of_row there
    have now_ := (holds_after clock (earlier ++ later)).sound.id_of_row there'
    exact ⟨row', there', now_.trans before.symm, same⟩
  refused_iff _ _ := perform_create_eq_error_iff
  unchanged _ _ _ := perform_create_of_error
  found_iff _ := (holds_after clock calls).exists_get_iff
  reached {user id} named := by
    obtain ⟨row, there, -⟩ := (holds_after clock calls).sound.row_of_index named
    rw [there]
    exact Option.some_ne_none row

end MemoryStore

end Purse
