import Mathlib.Algebra.BigOperators.Group.List.Basic
import Mathlib.Algebra.Order.BigOperators.Group.List
import Mathlib.Algebra.Ring.Int.Defs
import Purse.Proofs.Wallet.Refusals

/-!
# Mutations in any order

Whether a mutation is applied depends on the balances that those before it have left, so a list of
mutations may be applied in one order and refused in another. It is applied in every order if the
wallet stands all of it at once (`Mutation.Stands`): what is there covers all that is taken, and
there is room for all that is given. That is more than is needed in general, but no more than what
deposits alone need in any order at all. So deposits that are applied in one order are applied in
every order, and can be withdrawn again in every order (`Mutation.undone_of_deposits`).
-/

namespace Purse.Mutation

variable {m : Mutation} {ms ms' : List Mutation} {w v next : Wallet} {c : Currency}
  {clock : Nat → Timestamp}

/-- Mutations applied one after another, each at the next time that the clock shows, up to the first
that is refused. -/
def applyAll : (Nat → Timestamp) → List Mutation → Wallet → Except WalletError Wallet
  | _, [], w => .ok w
  | clock, m :: ms, w =>
    match m.applyTo (clock 0) w with
    | .ok next => applyAll (fun n => clock (n + 1)) ms next
    | .error e => .error e

theorem applyAll_cons_eq_ok_iff : applyAll clock (m :: ms) w = .ok v ↔
    ∃ next, m.applyTo (clock 0) w = .ok next ∧
      applyAll (fun n => clock (n + 1)) ms next = .ok v := by
  rw [applyAll]
  cases m.applyTo (clock 0) w with
  | ok next => simp
  | error e => simp

/-! ### What mutations come to together -/

/-- The units that mutations add to a currency. -/
def allCredited (c : Currency) (ms : List Mutation) : Int := (ms.map (credited c)).sum

/-- The units that mutations take from a currency. -/
def allDebited (c : Currency) (ms : List Mutation) : Int := (ms.map (debited c)).sum

@[simp] theorem allCredited_nil : allCredited c [] = 0 := rfl

@[simp] theorem allDebited_nil : allDebited c [] = 0 := rfl

@[simp] theorem allCredited_cons : allCredited c (m :: ms) = m.credited c + allCredited c ms := by
  simp [allCredited]

@[simp] theorem allDebited_cons : allDebited c (m :: ms) = m.debited c + allDebited c ms := by
  simp [allDebited]

/-! The order does not matter to that. -/

theorem allCredited_perm (h : ms.Perm ms') : allCredited c ms = allCredited c ms' :=
  (h.map _).sum_eq

theorem allDebited_perm (h : ms.Perm ms') : allDebited c ms = allDebited c ms' :=
  (h.map _).sum_eq

theorem Proper.credited_nonneg (h : m.Proper) (c : Currency) : 0 ≤ m.credited c := by
  by_cases given : ∃ amount, m.credit? = some (c, amount)
  · obtain ⟨amount, gives⟩ := given
    rw [credited_eq gives]
    exact Int.le_of_lt (h.given_pos gives)
  · rw [credited_eq_zero fun amount gives => given ⟨amount, gives⟩]

theorem Proper.debited_nonneg (h : m.Proper) (c : Currency) : 0 ≤ m.debited c := by
  by_cases taken : ∃ amount, m.debit? = some (c, amount)
  · obtain ⟨amount, takes⟩ := taken
    rw [debited_eq takes]
    exact Int.le_of_lt (h.taken_pos takes)
  · rw [debited_eq_zero fun amount takes => taken ⟨amount, takes⟩]

theorem allCredited_nonneg (proper : ∀ m ∈ ms, m.Proper) : 0 ≤ allCredited c ms :=
  List.sum_nonneg fun n hn => by
    obtain ⟨m, hm, rfl⟩ := List.mem_map.1 hn
    exact (proper m hm).credited_nonneg c

theorem allDebited_nonneg (proper : ∀ m ∈ ms, m.Proper) : 0 ≤ allDebited c ms :=
  List.sum_nonneg fun n hn => by
    obtain ⟨m, hm, rfl⟩ := List.mem_map.1 hn
    exact (proper m hm).debited_nonneg c

/-- **What holds of the wallet after some mutations.** -/
structure AllMove (ms : List Mutation) (w v : Wallet) : Prop where
  id_eq : v.id = w.id
  user_eq : v.user = w.user
  balance_eq : ∀ c, (v.balance c).units = (w.balance c).units + allCredited c ms - allDebited c ms
  /-- All of them made sense. -/
  proper : ∀ m ∈ ms, m.Proper

theorem allMove_of_applyAll (h : applyAll clock ms w = .ok v) : AllMove ms w v := by
  induction ms generalizing w clock with
  | nil =>
    rw [applyAll, Except.ok.injEq] at h
    subst h
    refine ⟨rfl, rfl, fun c => ?_, fun m hm => ?_⟩
    · rw [allCredited_nil, allDebited_nil, Int.add_zero, Int.sub_zero]
    · cases hm
  | cons m ms ih =>
    obtain ⟨next, applied, rest⟩ := applyAll_cons_eq_ok_iff.1 h
    obtain ⟨moves, -⟩ := applyTo_spec applied
    obtain ⟨proper, -, -⟩ := allowed_iff.1 (exists_applyTo_iff.1 ⟨next, applied⟩)
    have last := ih rest
    refine ⟨last.id_eq.trans moves.id_eq, last.user_eq.trans moves.user_eq, fun c => ?_, ?_⟩
    · rw [last.balance_eq, moves.balance_eq, allCredited_cons, allDebited_cons]
      omega
    · intro m' hm
      rcases List.mem_cons.1 hm with rfl | later
      · exact proper
      · exact last.proper m' later

theorem AllMove.sameAccount {v' : Wallet} (h : AllMove ms w v) (same : v'.SameAccount v) :
    AllMove ms w v' where
  id_eq := same.id_eq.trans h.id_eq
  user_eq := same.user_eq.trans h.user_eq
  balance_eq c := by rw [same.balance_eq, h.balance_eq]
  proper := h.proper

/-! ### What a wallet stands -/

/-- **A wallet that stands all of some mutations at once.** -/
structure Stands (w : Wallet) (ms : List Mutation) : Prop where
  proper : ∀ m ∈ ms, m.Proper
  /-- What is there covers all that is taken. -/
  covered : ∀ c, allDebited c ms ≤ (w.balance c).units
  /-- There is room for all that is given. -/
  room : ∀ c, (w.balance c).units + allCredited c ms ≤ MinorUnits.greatest

namespace Stands

theorem perm (h : Stands w ms) (same : ms'.Perm ms) : Stands w ms' where
  proper m hm := h.proper m (same.mem_iff.1 hm)
  covered c := allDebited_perm same ▸ h.covered c
  room c := allCredited_perm same ▸ h.room c

theorem allowed (h : Stands w (m :: ms)) : m.Allowed w := by
  have others (m' : Mutation) (hm : m' ∈ ms) : m'.Proper :=
    h.proper m' (List.mem_cons_of_mem m hm)
  refine allowed_iff.2 ⟨h.proper m List.mem_cons_self, fun {c amount} takes => ?_,
    fun {c amount} gives => ?_⟩
  · have covered := h.covered c
    have rest := allDebited_nonneg (c := c) others
    rw [allDebited_cons, debited_eq takes] at covered
    omega
  · have room := h.room c
    have rest := allCredited_nonneg (c := c) others
    rw [allCredited_cons, credited_eq gives] at room
    omega

/-- After the first mutation the wallet stands the others. -/
theorem rest (h : Stands w (m :: ms)) (moves : m.Moves w next) : Stands next ms := by
  have first := h.proper m List.mem_cons_self
  refine ⟨fun m' hm => h.proper m' (List.mem_cons_of_mem m hm), fun c => ?_, fun c => ?_⟩
  · -- what the first has taken is there no longer, but it is no longer to be taken either
    have covered := h.covered c
    have given := first.credited_nonneg c
    rw [allDebited_cons] at covered
    rw [moves.balance_eq]
    omega
  · have room := h.room c
    have taken := first.debited_nonneg c
    rw [allCredited_cons] at room
    rw [moves.balance_eq]
    omega

/-- **What a wallet stands at once is applied one after another.** -/
theorem exists_applyAll (h : Stands w ms) (clock : Nat → Timestamp) :
    ∃ v, applyAll clock ms w = .ok v := by
  induction ms generalizing w clock with
  | nil => exact ⟨w, rfl⟩
  | cons m ms ih =>
    obtain ⟨next, applied⟩ := exists_applyTo_iff.2 h.allowed
    obtain ⟨v, rest⟩ := ih (h.rest (applyTo_spec applied).1) fun n => clock (n + 1)
    exact ⟨v, applyAll_cons_eq_ok_iff.2 ⟨next, applied, rest⟩⟩

end Stands

/-! ### Deposits and their withdrawal -/

section Deposits

variable {ds ds' : List (Currency × MinorUnits)}

/-- Deposits of some amounts. -/
def deposits (ds : List (Currency × MinorUnits)) : List Mutation := ds.map fun d => deposit d.1 d.2

/-- Withdrawals of the same amounts. -/
def withdrawals (ds : List (Currency × MinorUnits)) : List Mutation :=
  ds.map fun d => withdraw d.1 d.2

theorem allDebited_deposits : allDebited c (deposits ds) = 0 := by
  simp [allDebited, deposits, Function.comp_def, debited]

theorem allCredited_withdrawals : allCredited c (withdrawals ds) = 0 := by
  simp [allCredited, withdrawals, Function.comp_def, credited]

/-- What is withdrawn is what is deposited. -/
theorem allDebited_withdrawals : allDebited c (withdrawals ds) = allCredited c (deposits ds) := by
  simp [allDebited, allCredited, withdrawals, deposits, Function.comp_def, credited, debited]

theorem proper_withdraw_iff {amount : MinorUnits} :
    (withdraw c amount).Proper ↔ (deposit c amount).Proper := by
  constructor
  · intro h
    exact ⟨nofun, by rintro _ _ ⟨⟩; exact h.taken_pos rfl, nofun⟩
  · intro h
    exact ⟨by rintro _ _ ⟨⟩; exact h.given_pos rfl, nofun, nofun⟩

/-- Deposits that are applied in one order are stood at once by a wallet that owes nothing. -/
theorem stands_deposits (nonneg : ∀ c, 0 ≤ (w.balance c).units)
    (h : applyAll clock (deposits ds) w = .ok v) : Stands w (deposits ds) := by
  have moved := allMove_of_applyAll h
  refine ⟨moved.proper, fun c => ?_, fun c => ?_⟩
  · rw [allDebited_deposits]
    exact nonneg c
  · -- the balances in the end are words, and nothing was taken on the way
    have total := moved.balance_eq c
    rw [allDebited_deposits, Int.sub_zero] at total
    rw [← total]
    exact (v.balance c).upper

/-- After the deposits the wallet stands their withdrawals. -/
theorem stands_withdrawals (nonneg : ∀ c, 0 ≤ (w.balance c).units)
    (moved : AllMove (deposits ds) w v) : Stands v (withdrawals ds) := by
  refine ⟨fun m hm => ?_, fun c => ?_, fun c => ?_⟩
  · obtain ⟨d, hd, rfl⟩ := List.mem_map.1 hm
    exact proper_withdraw_iff.2 (moved.proper _ (List.mem_map.2 ⟨d, hd, rfl⟩))
  · have total := moved.balance_eq c
    have before := nonneg c
    rw [allDebited_deposits] at total
    rw [allDebited_withdrawals]
    omega
  · rw [allCredited_withdrawals, Int.add_zero]
    exact (v.balance c).upper

/-- **What deposits leave behind:** any order of them leads to the same account, and from there any
order of their withdrawals leads back. -/
structure Undone (w v : Wallet) (ds : List (Currency × MinorUnits)) : Prop where
  /-- Whatever is applied to the wallet, it keeps its name and its user. -/
  kept : ∀ clock ms u, applyAll clock ms w = .ok u → u.id = w.id ∧ u.user = w.user
  /-- In every order the deposits are applied, and lead to the same account. -/
  deposits : ∀ clock ds', ds'.Perm ds →
    ∃ v', applyAll clock (Mutation.deposits ds') w = .ok v' ∧ v'.SameAccount v
  /-- From there the withdrawals are applied in every order, and lead back. -/
  withdrawals : ∀ clock ds' v', ds'.Perm ds → v'.SameAccount v →
    ∃ w', applyAll clock (Mutation.withdrawals ds') v' = .ok w' ∧ w'.SameAccount w

/-- **Deposits can be made in any order and taken back in any order.** -/
theorem undone_of_deposits (nonneg : ∀ c, 0 ≤ (w.balance c).units)
    (h : applyAll clock (deposits ds) w = .ok v) : Undone w v ds where
  kept clock' ms u applied := by
    have moved := allMove_of_applyAll applied
    exact ⟨moved.id_eq, moved.user_eq⟩
  deposits clock' ds' same := by
    have reordered : (deposits ds').Perm (deposits ds) := same.map _
    have stands := (stands_deposits nonneg h).perm reordered
    obtain ⟨v', applied⟩ := stands.exists_applyAll clock'
    have moved := allMove_of_applyAll h
    have moved' := allMove_of_applyAll applied
    refine ⟨v', applied, moved'.id_eq.trans moved.id_eq.symm,
      moved'.user_eq.trans moved.user_eq.symm, fun c => ?_⟩
    ext
    rw [moved'.balance_eq, moved.balance_eq, allCredited_perm reordered, allDebited_perm reordered]
  withdrawals clock' ds' v' same there := by
    have reordered : (withdrawals ds').Perm (withdrawals ds) := same.map _
    have moved := (allMove_of_applyAll h).sameAccount there
    have stands := (stands_withdrawals nonneg moved).perm reordered
    obtain ⟨w', applied⟩ := stands.exists_applyAll clock'
    have back := allMove_of_applyAll applied
    refine ⟨w', applied, back.id_eq.trans moved.id_eq, back.user_eq.trans moved.user_eq,
      fun c => ?_⟩
    ext
    rw [back.balance_eq, moved.balance_eq, allCredited_perm reordered, allDebited_perm reordered,
      allDebited_deposits, allCredited_withdrawals, allDebited_withdrawals]
    omega

end Deposits

/-- A wallet whose dollars leave room for ten cents. -/
def brimming : Wallet :=
  { Wallet.create (.ofNat 2) (.ofNat 1) .epoch with
    usd := ⟨MinorUnits.greatest - 10, by decide, by decide⟩, eur := .ofMajor 7 }

/-- Ten cents in two deposits, and five euros between them, can be put there and taken back. -/
theorem undone_brimming :
    let cents (n : Fin 100) : MinorUnits := ⟨n, by omega, by omega⟩
    let ds := [(.usd, cents 4), (.eur, .ofMajor 5), (.usd, cents 6)]
    (∀ c, 0 ≤ (brimming.balance c).units) ∧
      ∃ v, applyAll (fun _ => .epoch) (deposits ds) brimming = .ok v ∧
        (v.balance .usd).units = MinorUnits.greatest ∧ Undone brimming v ds := by
  intro cents ds
  have nonneg (c : Currency) : 0 ≤ (brimming.balance c).units := by
    cases c <;> decide
  have filled : applyAll (fun _ => .epoch) (deposits ds) brimming = .ok _ := rfl
  exact ⟨nonneg, _, filled, rfl, undone_of_deposits nonneg filled⟩

end Purse.Mutation
