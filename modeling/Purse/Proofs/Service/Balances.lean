import Purse.Proofs.Service.Linearization

/-!
# No overdraft

In a service that began with an empty store no balance is ever negative, in the rows, in what a call
reads, or in what a caller gets. Every row that is shown was stored at some moment
(`Reaches.stored_of_answered`), so it is enough to look at the rows, and a row is only ever changed
as a whole by a mutation that takes no more than there is (`Mutation.inBounds_of_applyTo`).

The check that an exchange makes before it looks for its rate is no part of this: it looks at a
snapshot, which other calls may drain. What protects the row is the check under the lock, and
`Reaches.drained` says how it ends.
-/

namespace Purse

/-- Every balance lies between nothing and the greatest count. -/
def Wallet.InBounds (w : Wallet) : Prop :=
  ∀ c, 0 ≤ (w.balance c).units ∧ (w.balance c).units ≤ MinorUnits.greatest

theorem Wallet.inBounds_create (id user : Uuid) (now : Timestamp) :
    (create id user now).InBounds := by
  intro c
  rw [balance_create]
  exact ⟨Int.le_refl 0, by decide⟩

theorem Mutation.inBounds_of_applyTo {m : Mutation} {now : Timestamp} {w next : Wallet}
    (h : m.applyTo now w = .ok next) (before : w.InBounds) : next.InBounds := by
  intro c
  have moves := (applyTo_spec h).1
  exact ⟨moves.balance_nonneg (fun c => (before c).1) c, (next.balance c).upper⟩

namespace Service

variable {s t : State} {us : List State} {id : CallId} {call : Call} {answer : Answer}
  {row : Wallet}

/-! ### The rows -/

/-- **No row ever leaves its bounds:** a new one holds nothing, and a mutation keeps those of the
row that it changes. -/
theorem Reaches.rows_inBounds (h : Reaches s t)
    (start : ∀ wallet row, s.store.rows.get? wallet = some row → row.InBounds) :
    ∀ wallet row, t.store.rows.get? wallet = some row → row.InBounds := by
  refine h.invariant
    (P := fun u => ∀ wallet row, u.store.rows.get? wallet = some row → row.InBounds) start ?_
  intro u v _ sofar step wallet row hr
  cases step.written with
  | kept store => exact sofar wallet row (store ▸ hr)
  | created store =>
    obtain ⟨-, -, hv⟩ := MemoryStore.create_eq_ok store
    rw [hv, Table.get?_insert] at hr
    split at hr
    · obtain rfl := Option.some.inj hr
      -- a new wallet holds nothing
      exact Wallet.inBounds_create _ _ _
    · exact sofar wallet row hr
  | committed store =>
    obtain ⟨before, there, applied, hv⟩ := MemoryStore.mutate_eq_ok store
    rw [hv, Table.get?_insert] at hr
    split at hr
    · obtain rfl := Option.some.inj hr
      -- a mutation takes no more than there is
      exact Mutation.inBounds_of_applyTo applied (sofar _ _ there)
    · exact sofar wallet row hr

/-! ### What is shown of them -/

/-- A step records a row as read only by reading it. -/
theorem Effect.read_mem {next : Option Stage} (h : Effect s id call next t)
    (hm : .read id row ∈ t.history) :
    .read id row ∈ s.history ∨ ∃ wallet, s.store.rows.get? wallet = some row := by
  cases h with
  | read at_ turn there =>
    rcases List.mem_cons.1 hm with hm | hm
    · cases hm
      exact .inr ⟨_, there⟩
    · exact .inl hm
  | _ => exact .inl (by simpa using hm)

/-- **A row that was read was stored** at that moment. -/
theorem Reaches.stored_of_read (h : Reaches s t) (start : s.Unused)
    (hm : .read id row ∈ t.history) :
    ∃ u wallet, Reaches s u ∧ u.store.rows.get? wallet = some row := by
  obtain ⟨us, run⟩ := h.exists_run
  obtain ⟨past, u, v, call, next, passes, -, -, effect, was, is⟩ :=
    run.did start hm rfl (by simp) (by simp)
  rcases effect.read_mem is with old | ⟨wallet, there⟩
  · exact absurd old was
  · exact ⟨u, wallet, passes.before.reaches, there⟩

theorem Wrote.stored {entry : Occurrence} (h : Wrote us id entry row) (run : Run s t us) :
    ∃ u wallet, Reaches s u ∧ u.store.rows.get? wallet = some row := by
  obtain ⟨u, v, passed, -, -, there⟩ := h
  obtain ⟨wallet, -, hr⟩ := MemoryStore.get_eq_ok_iff.1 there
  exact ⟨v, wallet, run.reaches_of_mem (passed.subset List.mem_cons_self), hr⟩

/-- **A row that a caller got was stored** at some moment of the run. -/
theorem Reaches.stored_of_answered (h : Reaches s t) (start : s.Unused)
    (hm : .ended id (.ok answer) ∈ t.history) (shows : answer.row? = some row) :
    ∃ u wallet, Reaches s u ∧ u.store.rows.get? wallet = some row := by
  obtain ⟨r, asked⟩ := (h.recorded start id).arrived_of_mem hm rfl
  have done := h.accomplished start hm asked
  have entered {o : Occurrence} (ho : o ∈ t.deeds id) : o ∈ t.history := (List.mem_filter.1 ho).1
  obtain ⟨us, run⟩ := h.exists_run
  generalize t.deeds id = ds at done entered
  cases done with
  | created asks =>
    obtain rfl := Option.some.inj shows
    exact (run.made start (entered (by simp)) asked).2.stored run
  | viewed asks =>
    obtain rfl := Option.some.inj shows
    obtain ⟨u, passed, -, eq⟩ := (run.justified_of_ended start hm asked).view _ asks
    cases hg : u.store.get _ with
    | error e => rw [hg] at eq; cases eq
    | ok found =>
      rw [hg] at eq
      cases eq
      obtain ⟨wallet, -, hr⟩ := MemoryStore.get_eq_ok_iff.1 hg
      exact ⟨u, wallet, run.reaches_of_mem passed, hr⟩
  | informed asks rates => cases rates.symm.trans shows
  | @silent change row' | @announced change row' =>
    obtain rfl : row' = row := Option.some.inj ((Change.row?_answer ..).symm.trans shows)
    have committed : .committed id change row' ∈ t.history := entered (by simp)
    exact (run.wrote start committed asked).2.stored run

/-! ### A row that was drained -/

/-- **An exchange whose wallet was drained after its first look** is refused under the lock:
whatever its next step is, it leaves the rows as they are and ends the call for lack of funds. -/
theorem Reaches.drained {u : State} {wallet : Uuid} {pair : CurrencyPair}
    {debit credit : MinorUnits} {rate : Float} (h : Reaches s t) (start : s.Unused)
    (live : t.calls.get? id = some call)
    (at_ : call.stage = .writing wallet (.exchange pair debit credit rate))
    (there : t.store.rows.get? wallet = some row)
    (less : (row.balance pair.sold).units < debit.units) (moves : t.step? id = some u) :
    u.store = t.store ∧
    u.calls.get? id = some { call with stage := .ending (.error .insufficientFunds) } := by
  -- the arguments were checked, so nothing else can be wrong with the debit
  have is := h.isOf start live
  rw [at_] at is
  obtain ⟨order, parsed, rfl, -⟩ := is
  obtain ⟨user, sold, bought, amount, -, units, -, -, differ⟩ := Request.order?_eq_exchange parsed
  have refused : row.debit pair.sold debit = .error .insufficientFunds :=
    Wallet.debit_eq_insufficientFunds_iff.2 ⟨MinorUnits.ofAmount?_pos units, less⟩
  have fails : t.store.mutate t.now wallet (Change.exchange pair debit credit rate).mutation =
      .error .insufficientFunds := by
    simp [MemoryStore.mutate, there, Change.mutation, Mutation.applyTo, Mutation.change, differ,
      refused]
  -- with the lock the call has nothing else to do than to be refused
  obtain ⟨call', live', next, effect⟩ := State.step?_effect moves
  obtain rfl := Option.some.inj (live.symm.trans live')
  cases effect with
  | committed at' turn done =>
    cases at_.symm.trans at'
    cases fails.symm.trans done
  | rejected at' turn fails' =>
    cases at_.symm.trans at'
    cases fails.symm.trans fails'
    exact ⟨State.fail_store .., (State.fail_calls ..).trans (State.goto_calls_self _ live)⟩
  | _ at' => cases at_.symm.trans at'

/-! ### All together -/

/-- **Nothing is ever overdrawn** in a run that leads to `t`. -/
structure Solvent (t : State) : Prop where
  /-- Every row is within its bounds. -/
  stored : ∀ {wallet row}, t.store.rows.get? wallet = some row → row.InBounds
  /-- So is every row that was read. -/
  read : ∀ {id row}, .read id row ∈ t.history → row.InBounds
  /-- So is every row that a caller got. -/
  answered : ∀ {id answer row}, .ended id (.ok answer) ∈ t.history → answer.row? = some row →
    row.InBounds
  /-- An exchange that comes to a row with less than it takes changes nothing and is refused. -/
  drained : ∀ {id call wallet pair debit credit rate row u}, t.calls.get? id = some call →
    call.stage = .writing wallet (.exchange pair debit credit rate) →
    t.store.rows.get? wallet = some row →
    (row.balance pair.sold).units < debit.units → t.step? id = some u →
    u.store = t.store ∧
    u.calls.get? id = some { call with stage := .ending (.error .insufficientFunds) }

/-- **No overdraft, ever:** a service that begins with an empty store stays solvent, whatever it is
asked to do and whatever rates it is told. -/
theorem Reaches.solvent (h : Reaches s t) (start : s.Unused) (empty : s.store = .empty) :
    Solvent t := by
  -- every state on the way is within bounds, and all that is shown was a row of one of them
  have rows {u : State} (before : Reaches s u) {wallet : Uuid} {row : Wallet}
      (there : u.store.rows.get? wallet = some row) : row.InBounds := by
    refine before.rows_inBounds (fun wallet row hr => ?_) wallet row there
    rw [empty] at hr
    cases hr
  have shown {row : Wallet}
      (stored : ∃ u wallet, Reaches s u ∧ u.store.rows.get? wallet = some row) :
      row.InBounds := by
    obtain ⟨u, wallet, before, there⟩ := stored
    exact rows before there
  exact {
    stored := rows h
    read := fun hm => shown (h.stored_of_read start hm)
    answered := fun hm shows => shown (h.stored_of_answered start hm shows)
    drained := fun live at_ there less moves => h.drained start live at_ there less moves }

/-- The service in which an exchange was overtaken is solvent, and the wallet holds what the
withdrawal has left. -/
theorem solvent_overtaken :
    (overtaken.store.rows.values.map fun w => (w.usd.units, w.rub.units)) = [(3000, 0)] ∧
    Solvent overtaken :=
  ⟨by decide +kernel, reaches_overtaken.solvent unused_vacant rfl⟩

end Service

end Purse
