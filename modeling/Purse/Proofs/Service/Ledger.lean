import Mathlib.Algebra.Ring.Int.Defs
import Purse.Proofs.Service.Rows

/-!
# The ledger

The history doubles as a ledger: each committed change is entered there with the row that it wrote,
and nothing else changes a row. `State.ledger` lists the mutations that were committed on a wallet,
and `Reaches.balanced` says that they account for its balances: what a row holds is what it held
when it was opened, and what was credited since, less what was debited.

A wallet was opened in the run, or was there when the run began; `Opening` covers both. The
invariant also has to say that nothing is entered for a wallet that is not there yet, since the
first entry must meet an empty ledger.
-/

namespace Purse.Service

variable {s t : State} {wallet : Uuid} {row opening : Wallet} {c : Currency}

/-- The mutation that an occurrence enters in the ledger of a wallet. -/
def Occurrence.entry? (wallet : Uuid) : Occurrence → Option Mutation
  | committed _ change row => if row.id = wallet then some change.mutation else none
  | _ => none

theorem Occurrence.entry?_of_not_isEntry {o : Occurrence} (h : o.isEntry = false) :
    o.entry? wallet = none := by
  cases o with
  | committed => cases h
  | _ => rfl

namespace State

/-- The mutations committed on a wallet, the latest first. -/
def ledger (s : State) (wallet : Uuid) : List Mutation :=
  s.history.filterMap (Occurrence.entry? wallet)

/-- The units credited to a wallet so far. -/
def credited (s : State) (wallet : Uuid) (c : Currency) : Int :=
  ((s.ledger wallet).map (Mutation.credited c)).sum

/-- The units debited from a wallet so far. -/
def debited (s : State) (wallet : Uuid) (c : Currency) : Int :=
  ((s.ledger wallet).map (Mutation.debited c)).sum

theorem ledger_of_kept {new : List Occurrence} (h : t.history = new ++ s.history)
    (kept : ∀ o ∈ new, o.isEntry = false) : t.ledger wallet = s.ledger wallet := by
  have none_ : new.filterMap (Occurrence.entry? wallet) = [] :=
    List.filterMap_eq_nil_iff.2 fun o ho => Occurrence.entry?_of_not_isEntry (kept o ho)
  rw [ledger, h, List.filterMap_append, none_, List.nil_append, ledger]

theorem ledger_of_created {id : CallId} (h : t.history = .created id row :: s.history) :
    t.ledger wallet = s.ledger wallet := by
  rw [ledger, h]
  rfl

theorem ledger_of_committed {id : CallId} {change : Change}
    (h : t.history = .committed id change row :: s.history) :
    t.ledger wallet =
      if row.id = wallet then change.mutation :: s.ledger wallet else s.ledger wallet := by
  rw [ledger, h, List.filterMap_cons, Occurrence.entry?]
  split
  · next heq =>
    split at heq
    · cases heq
    · next hid => rw [if_neg hid, ledger]
  · next m heq =>
    split at heq
    · next hid =>
      cases heq
      rw [if_pos hid, ledger]
    · cases heq

end State

/-- The row that a wallet was opened with: the one that was there at the start, or the one it was
created as. -/
def Opening (s t : State) (wallet : Uuid) (opening : Wallet) : Prop :=
  s.store.rows.get? wallet = some opening ∨ ∃ id, .created id opening ∈ t.history ∧
  opening.id = wallet

theorem Opening.step {u : State} (h : Opening s t wallet opening) (step : Step t u) :
    Opening s u wallet opening := by
  rcases h with h | ⟨id, hm, hid⟩
  · exact .inl h
  · exact .inr ⟨id, (Reaches.single step).mem_history hm, hid⟩

/-- **The ledger and the rows agree.** -/
structure Balanced (s t : State) : Prop where
  /-- Nothing is entered for a wallet that is not there. -/
  blank : ∀ wallet, t.store.rows.get? wallet = none → t.ledger wallet = []
  /-- A row holds what it was opened with, changed by what is entered. -/
  balance : ∀ wallet row, t.store.rows.get? wallet = some row →
    ∃ opening, Opening s t wallet opening ∧ ∀ c, (row.balance c).units =
      (opening.balance c).units + t.credited wallet c - t.debited wallet c

theorem State.Unused.balanced (h : s.Unused) : Balanced s s := by
  have blank (wallet : Uuid) : s.ledger wallet = [] := by
    rw [State.ledger, h.history]
    rfl
  refine ⟨fun wallet _ => blank wallet, fun wallet row hr => ⟨row, .inl hr, fun c => ?_⟩⟩
  simp [State.credited, State.debited, blank]

/-- A row whose ledger is as it was still has the balance that the ledger accounts for. -/
theorem Balanced.balance_of_same {u : State} (h : Balanced s t) (step : Step t u)
    (hr : t.store.rows.get? wallet = some row) (same : u.ledger wallet = t.ledger wallet) :
    ∃ opening, Opening s u wallet opening ∧ ∀ c, (row.balance c).units =
      (opening.balance c).units + u.credited wallet c - u.debited wallet c := by
  obtain ⟨opening, ho, hb⟩ := h.balance wallet row hr
  refine ⟨opening, ho.step step, fun c => ?_⟩
  rw [State.credited, State.debited, same]
  exact hb c

theorem Balanced.kept {u : State} (h : Balanced s t) (step : Step t u) (store : u.store = t.store)
    (history : Adds (fun o => o.isEntry = false) t u) : Balanced s u := by
  obtain ⟨new, hnew, kept⟩ := history
  have same (wallet : Uuid) : u.ledger wallet = t.ledger wallet := State.ledger_of_kept hnew kept
  refine ⟨fun wallet hr => ?_,
    fun wallet row hr => h.balance_of_same step (store ▸ hr) (same wallet)⟩
  rw [same]
  exact h.blank wallet (store ▸ hr)

theorem Balanced.created {u : State} {id : CallId} {name user : Uuid} (h : Balanced s t)
    (step : Step t u) (store : t.store.create (Wallet.create name user t.now) = .ok u.store)
    (history : u.history = .created id (Wallet.create name user t.now) :: t.history) :
    Balanced s u := by
  have same (wallet : Uuid) : u.ledger wallet = t.ledger wallet := State.ledger_of_created history
  obtain ⟨-, fresh, hu⟩ := MemoryStore.create_eq_ok store
  have rows (wallet : Uuid) : u.store.rows.get? wallet =
      if name = wallet then some (Wallet.create name user t.now) else t.store.rows.get? wallet := by
    rw [hu]
    exact Table.get?_insert ..
  refine ⟨fun wallet hr => ?_, fun wallet row hr => ?_⟩
  · rw [rows] at hr
    split at hr
    · cases hr
    · rw [same]
      exact h.blank wallet hr
  · rw [rows] at hr
    split at hr
    · next hid =>
      -- the wallet is opened by this step, with a ledger that is still empty
      obtain rfl := Option.some.inj hr
      refine ⟨_, .inr ⟨id, history ▸ List.mem_cons_self, hid⟩, fun c => ?_⟩
      have empty : t.ledger wallet = [] := h.blank wallet (hid ▸ fresh)
      simp [State.credited, State.debited, same, empty]
    · exact h.balance_of_same step hr (same wallet)

theorem Balanced.committed {u : State} {id : CallId} {name : Uuid} {change : Change}
    {written : Wallet} (h : Balanced s t) (sound : t.store.Sound) (step : Step t u)
    (store : t.store.mutate t.now name change.mutation = .ok (u.store, written))
    (history : u.history = .committed id change written :: t.history) : Balanced s u := by
  obtain ⟨before, there, applied, hu⟩ := MemoryStore.mutate_eq_ok store
  have moves := (Mutation.applyTo_spec applied).1
  have rows (wallet : Uuid) : u.store.rows.get? wallet =
      if name = wallet then some written else t.store.rows.get? wallet := by
    rw [hu]
    exact Table.get?_insert ..
  -- the entry is made for the wallet whose row was changed, since a mutation keeps the identifier
  have hid : written.id = name := moves.id_eq.trans (sound.id_of_row there)
  have entry (wallet : Uuid) : u.ledger wallet =
      if name = wallet then change.mutation :: t.ledger wallet else t.ledger wallet :=
    hid ▸ State.ledger_of_committed history
  refine ⟨fun wallet hr => ?_, fun wallet row hr => ?_⟩
  · rw [rows] at hr
    split at hr
    · cases hr
    · next hne =>
      rw [entry, if_neg hne]
      exact h.blank wallet hr
  · rw [rows] at hr
    split at hr
    · next heq =>
      subst heq
      obtain rfl := Option.some.inj hr
      obtain ⟨opening, ho, hb⟩ := h.balance name before there
      refine ⟨opening, ho.step step, fun c => ?_⟩
      have hc := hb c
      -- the row moves by the mutation's units, and so do the sums
      simp only [State.credited, State.debited, entry, if_true, List.map_cons, List.sum_cons,
        moves.balance_eq]
      simp only [State.credited, State.debited] at hc
      omega
    · next hne => exact h.balance_of_same step hr ((entry wallet).trans (if_neg hne))

theorem Balanced.step {u : State} (h : Balanced s t) (sound : t.store.Sound) (step : Step t u) :
    Balanced s u := by
  cases step.written with
  | kept store history => exact h.kept step store history
  | created store history => exact h.created step store history
  | committed store history => exact h.committed sound step store history

/-- **The ledger accounts for every balance** at every moment of a run. -/
theorem Reaches.balanced (h : Reaches s t) (start : s.Unused) : Balanced s t :=
  h.invariant start.balanced fun _ _ before sofar step =>
    sofar.step (before.store_sound start.store) step

end Purse.Service
