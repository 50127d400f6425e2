import Mathlib.Algebra.BigOperators.Group.List.Defs
import Mathlib.Algebra.Ring.Int.Defs
import Mathlib.Data.List.Nodup
import Purse.Proofs.Service.Completion
import Purse.Proofs.Service.EventOrder

/-!
# More debits than there are funds

Any number of calls, withdrawals and exchanges in any mixture, take the same amount from one balance
at once, and nobody else touches the wallet (`Rush`). Nothing but a lack of funds can stop them
(`Stage.isHindered`). Then as many of them succeed as the balance allows, and no fewer
(`Rush.exhausted`).

That there are no more is the ledger's doing: each success is one commit of the amount, and the
balance is never negative. That there are no fewer is in the refusals. A call that was refused had
a moment at which the balance was below the amount (`Run.justified_of_ended`), whether it looked at
its snapshot or at the row under the lock; at that moment all that the balance allows had been
committed, and commits are never undone.
-/

namespace Purse

/-- **The request takes the amount from the user's balance** in the currency, to withdraw it or to
exchange it for another currency. -/
def Request.Takes (user : Uuid) (c : Currency) (amount : Float) : Request → Prop
  | withdraw user' currency amount' => user' = user ∧ currency = c.symbol ∧ amount' = amount
  | exchange user' sold bought amount' =>
    user' = user ∧ sold = c.symbol ∧ (∃ d, d ≠ c ∧ bought = d.symbol) ∧ amount' = amount
  | _ => False

section Takes

variable {r : Request} {user : Uuid} {c : Currency} {amount : Float} {a : MinorUnits}

theorem Request.Takes.user?_eq (h : r.Takes user c amount) : r.user? = some user := by
  cases r with
  | withdraw | exchange => exact congrArg some h.1
  | _ => cases h

/-- Such a request asks neither for the rates nor for a quote. -/
theorem Request.Takes.quest?_eq (h : r.Takes user c amount) : Service.Quest.ofRequest? r = none := by
  cases r with
  | withdraw | exchange => rfl
  | _ => cases h

/-- With an amount that comes to something the arguments are right. -/
theorem Request.Takes.order? (h : r.Takes user c amount)
    (units : MinorUnits.ofAmount? amount = some a) :
    r.order? = some (.ok (.withdraw c a)) ∨
      ∃ d, d ≠ c ∧ r.order? = some (.ok (.exchange ⟨c, d⟩ a)) := by
  have parsed : MinorUnits.parse amount = .ok a := MinorUnits.parse_eq_ok_iff.2 units
  have named (d : Currency) : Currency.parse d.symbol = .ok d :=
    Currency.parse_eq_ok_iff.2 (Currency.ofSymbol?_symbol d)
  cases r with
  | withdraw =>
    obtain ⟨-, rfl, rfl⟩ := h
    left
    rw [Request.order?, Order.parseWithdraw, parsed, named]
    rfl
  | exchange =>
    obtain ⟨-, rfl, ⟨d, differ, rfl⟩, rfl⟩ := h
    refine .inr ⟨d, differ, ?_⟩
    rw [Request.order?, Order.parseExchange, parsed, named, named]
    change some (if c = d then _ else _) = _
    rw [if_neg differ.symm]
    rfl
  | _ => cases h

/-- What such a request changes: it takes these units from the balance, and gives nothing to it. -/
theorem Request.Takes.mutation {change : Change} (h : r.Takes user c amount)
    (units : MinorUnits.ofAmount? amount = some a) (asks : r.Asks change) :
    change.mutation.debit? = some (c, a) ∧ change.mutation.credited c = 0 := by
  obtain ⟨order, parsed, carries⟩ := asks
  rcases h.order? units with is | ⟨d, differ, is⟩
  · obtain rfl := Except.ok.inj (Option.some.inj (is.symm.trans parsed))
    cases change with
    | exchange => cases carries.1
    | deposit => cases carries
    | withdraw =>
      cases carries
      exact ⟨rfl, rfl⟩
  · obtain rfl := Except.ok.inj (Option.some.inj (is.symm.trans parsed))
    cases change with
    | exchange pair debit credit rate =>
      obtain ⟨same, -⟩ := carries
      cases same
      exact ⟨rfl, if_neg differ⟩
    | _ => cases carries

end Takes

namespace Service

variable {s t u : State} {us : List State} {id : CallId} {call : Call} {next : Option Stage}
  {user : Uuid} {c : Currency} {amount : Float} {a : MinorUnits} {ids : List CallId} {row : Wallet}

/-- **Whether anything but a lack of funds stands in the way** of a call at its stage: the wait at
the gate is over, the source does not answer, the rate is not there after a refresh, nothing can be
credited at the rate, the store does not work, or the credit does not fit into its balance. -/
def Stage.isHindered (s : State) (id : CallId) : Stage → Bool
  | .queued _ => s.gate.isOverdue (.call id) s.clock
  | .consulting (.exchange _ pair _ amount) | .awaitingRefresh (.exchange _ pair _ amount) =>
    (s.cache.get s.clock pair).any fun rate => (MinorUnits.ofConverted? amount rate).isNone
  | .fetching .. => s.source.fault.isSome
  | .serving (.exchange _ pair _ amount) =>
    (s.cache.get s.clock pair).all fun rate => (MinorUnits.ofConverted? amount rate).isNone
  | .storing .. => s.conditions.fault.isSome
  | .writing wallet (.exchange pair _ credit _) =>
    (s.store.rows.get? wallet).any fun row => ((row.balance pair.bought).add? credit).isNone
  | _ => false

/-- Whether anything but a lack of funds stands in the way of a call. -/
def State.isHindered (s : State) (id : CallId) : Bool :=
  (s.calls.get? id).any fun call => call.stage.isHindered s id

/-! ### A call that nothing else hinders is refused for lack of funds -/

/-- Under the lock a change is refused for lack of funds if its credit fits. -/
theorem Change.insufficientFunds_of_applyTo {r : Request} {change : Change} {now : Timestamp}
    {e : WalletError} (takes : r.Takes user c amount)
    (units : MinorUnits.ofAmount? amount = some a) (asks : r.Asks change)
    (fits : ∀ pair debit credit rate, change = .exchange pair debit credit rate →
      ((row.balance pair.bought).add? credit).isSome)
    (fails : change.mutation.applyTo now row = .error e) : e = .insufficientFunds := by
  have positive := MinorUnits.ofAmount?_pos units
  have debits := (takes.mutation units asks).1
  have fails : change.mutation.change row = .error e := by
    unfold Mutation.applyTo at fails
    split at fails
    · cases fails
    · next fails' =>
      cases fails
      exact fails'
  cases change with
  | deposit => cases debits
  | withdraw currency units =>
    cases debits
    exact Wallet.debit_eq_error positive fails
  | exchange pair debit credit rate =>
    cases debits
    obtain ⟨order, parsed, rfl, converts⟩ := asks
    obtain ⟨_, _, _, _, _, _, _, _, differ⟩ := Request.order?_eq_exchange parsed
    rw [Change.mutation, Mutation.change, if_neg differ] at fails
    split at fails
    · next debited taken =>
      -- the debit leaves the bought currency alone
      obtain ⟨-, -, u, -, rfl⟩ := Wallet.debit_eq_ok taken
      refine absurd fails (Wallet.credit_ne_error (MinorUnits.ofAmount?_pos converts) ?_)
      rw [Wallet.balance_withBalance, if_neg differ]
      exact fits pair a credit rate rfl
    · next fails' =>
      cases fails
      exact Wallet.debit_eq_error positive fails'

/-- **A step that ends such a call with an error** ends it for lack of funds. -/
theorem Effect.insufficientFunds {e : WalletError} (h : Effect s id call next t)
    (leads : next = some (.ending (.error e))) (takes : call.request.Takes user c amount)
    (units : MinorUnits.ofAmount? amount = some a) (is : call.stage.IsOf call.request)
    (found : Located s.store call) (sound : s.store.Sound) (owns : s.store.get user = .ok row)
    (free : call.stage.isHindered s id = false) : e = .insufficientFunds := by
  have mutates : ∀ order, call.request.order? = some order → ∃ o, order = .ok o := by
    intro order asked
    rcases takes.order? units with same | ⟨d, -, same⟩ <;>
      exact ⟨_, Option.some.inj (asked.symm.trans same)⟩
  have present {wallet : Uuid} (at_ : call.stage.wallet? = some wallet) :
      s.store.rows.get? wallet = some row := by
    obtain ⟨user', row', hu, hr, hg, -⟩ := found.row sound at_
    obtain rfl := Option.some.inj (takes.user?_eq.symm.trans hu)
    cases owns.symm.trans hg
    exact hr
  cases h with
  | uncreated at_ asks =>
    rw [asks] at takes
    cases takes
  | invalid at_ asks =>
    obtain ⟨o, same⟩ := mutates _ asks
    cases same
  | timedOut at_ holds overdue =>
    rw [at_] at free
    exact absurd overdue (Bool.eq_false_iff.1 free)
  | unlocated at_ for_ fails =>
    obtain rfl := Option.some.inj (takes.user?_eq.symm.trans for_)
    cases owns.symm.trans fails
  | vanished at_ turn gone => cases gone.symm.trans (present (by rw [at_]; rfl))
  | @read wallet order row' at_ turn there =>
    rw [at_] at is
    have ends := Option.some.inj leads
    unfold State.afterRead at ends
    split at ends
    · cases ends
    · cases ends
    · cases ends
    · next pair debit =>
      -- the first look of an exchange is at the same units as the second
      split at ends
      · cases ends
      · next fails =>
        cases ends
        rcases takes.order? units with same | ⟨d, -, same⟩
        · cases same.symm.trans is
        · cases same.symm.trans is
          exact Wallet.debit_eq_error (MinorUnits.ofAmount?_pos units) fails
  | found at_ finds | foundLate at_ _ finds | served at_ finds =>
    cases leads
    cases finds with
    | unconvertible held fails =>
      rw [at_] at free
      simp [Stage.isHindered, held, fails] at free
  | @unserved quest at_ misses =>
    rw [at_] at is free
    cases quest with
    | exchange wallet pair debit amount =>
      have miss : s.cache.get s.clock pair = none := Option.map_eq_none_iff.1 misses
      simp [Stage.isHindered, miss] at free
    | listing | quote => cases takes.quest?_eq.symm.trans is
  | unanswered at_ ready replies =>
    rw [at_, Stage.isHindered] at free
    unfold RateSource.answer at replies
    split at replies
    · next fault => rw [fault] at free; cases free
    · cases replies
  | broken at_ ready fails =>
    rw [at_, Stage.isHindered, fails] at free
    cases free
  | untaken at_ ready works gone =>
    refine absurd ?_ gone
    exact (Table.contains_iff ..).2 ⟨row, present (by rw [at_]; rfl)⟩
  | @rejected wallet change e' at_ turn fails =>
    cases leads
    have there := present (show call.stage.wallet? = some wallet by rw [at_]; rfl)
    rw [at_] at is free
    rcases MemoryStore.mutate_eq_error fails with ⟨gone, -⟩ | ⟨before, there', fails⟩
    · cases gone.symm.trans there
    · obtain rfl := Option.some.inj (there.symm.trans there')
      refine Change.insufficientFunds_of_applyTo takes units is ?_ fails
      rintro pair debit credit rate rfl
      simpa [Stage.isHindered, there, Option.isNone_eq_false_iff] using free
  | _ => cases leads

/-! ### What was taken from the balance -/

/-- **Calls that all take the same amount** from one balance of a user, in a run that goes on until
all have ended. No other call is made for the user, and nothing but a lack of funds stands in the
way of any of them. -/
structure Rush (s t : State) (us : List State) (user : Uuid) (c : Currency) (amount : Float)
    (ids : List CallId) : Prop where
  run : Run s t us
  start : s.Unused
  distinct : ids.Nodup
  takes : ∀ id ∈ ids, ∃ r, .arrived id r ∈ t.history ∧ r.Takes user c amount
  alone : ∀ id r, .arrived id r ∈ t.history → r.user? = some user → id ∈ ids
  ended : ∀ id ∈ ids, ∃ outcome, .ended id outcome ∈ t.history
  unhindered : ∀ u ∈ us, ∀ id ∈ ids, u.isHindered id = false

/-- **That they have ended says only that the run was not cut short:** where no call can move, none
waits for a time and nobody outside holds a permit, they have, unless one of them was given up. -/
theorem rush_of_still (run : Run s t us) (start : s.Unused) (distinct : ids.Nodup)
    (takes : ∀ id ∈ ids, ∃ r, .arrived id r ∈ t.history ∧ r.Takes user c amount)
    (alone : ∀ id r, .arrived id r ∈ t.history → r.user? = some user → id ∈ ids)
    (unhindered : ∀ u ∈ us, ∀ id ∈ ids, u.isHindered id = false) (permits : 0 < s.gate.capacity)
    (inside : ∀ n, .outside n ∉ t.gate.holders)
    (ready : ∀ {id call due}, t.calls.get? id = some call → call.stage.due? = some due →
      due ≤ t.clock)
    (still : ∀ j, t.step? j = none) (kept : ∀ id ∈ ids, .dropped id ∉ t.history) :
    Rush s t us user c amount ids where
  run := run
  start := start
  distinct := distinct
  takes := takes
  alone := alone
  unhindered := unhindered
  ended id one := by
    obtain ⟨r, asked, -⟩ := takes id one
    exact run.reaches.ended_of_still start permits inside ready still asked (kept id one)

/-- The calls whose changes of a wallet were committed, the latest first. -/
def State.drawers (s : State) (wallet : Uuid) : List CallId :=
  s.history.filterMap fun o => match o with
    | .committed id _ row => if row.id = wallet then some id else none
    | _ => none

theorem State.mem_drawers {wallet : Uuid} : id ∈ s.drawers wallet ↔
    ∃ change row, .committed id change row ∈ s.history ∧ row.id = wallet := by
  rw [drawers, List.mem_filterMap]
  constructor
  · rintro ⟨o, ho, draws⟩
    split at draws
    · next change row =>
      split at draws
      · next hid =>
        obtain rfl := Option.some.inj draws
        exact ⟨change, row, ho, hid⟩
      · cases draws
    · cases draws
  · rintro ⟨change, row, ho, hid⟩
    exact ⟨_, ho, if_pos hid⟩

/-- There is an entry in the ledger for each of them. -/
theorem State.length_drawers (s : State) (wallet : Uuid) :
    (s.drawers wallet).length = (s.ledger wallet).length := by
  rw [drawers, ledger]
  induction s.history with
  | nil => rfl
  | cons o os ih =>
    rw [List.filterMap_cons, List.filterMap_cons]
    cases o with
    | committed id change row =>
      by_cases hid : row.id = wallet <;> simp [Occurrence.entry?, hid, ih]
    | _ => exact ih

/-- A call draws once at most. -/
theorem Reaches.nodup_drawers (h : Reaches s t) (start : s.Unused) (wallet : Uuid) :
    (t.drawers wallet).Nodup := by
  refine List.nodup_iff_count_le_one.2 fun id => ?_
  refine Nat.le_trans ?_ (h.commits_length_le start id)
  rw [State.drawers, List.count_filterMap, State.commits, ← List.countP_eq_length_filter]
  refine List.countP_mono_left fun o _ draws => ?_
  cases o with
  | committed j change row =>
    by_cases hid : row.id = wallet
    · simpa [Occurrence.isCommitOf, hid] using draws
    · simp [hid] at draws
  | _ => cases draws

/-- They are never forgotten. -/
theorem Reaches.length_drawers_le (h : Reaches s t) (wallet : Uuid) :
    (s.drawers wallet).length ≤ (t.drawers wallet).length := by
  obtain ⟨new, history⟩ := h.history_append
  rw [State.drawers, State.drawers, history, List.filterMap_append, List.length_append]
  exact Nat.le_add_left ..

/-- **A balance that is not negative stays so,** whatever is done to the others. -/
theorem Reaches.balance_nonneg {wallet : Uuid} (h : Reaches s t)
    (there : s.store.rows.get? wallet = some row) (funds : 0 ≤ (row.balance c).units) :
    ∃ now_, t.store.rows.get? wallet = some now_ ∧ 0 ≤ (now_.balance c).units := by
  refine h.invariant (P := fun u => ∃ now_, u.store.rows.get? wallet = some now_ ∧
    0 ≤ (now_.balance c).units) ⟨row, there, funds⟩ fun u v _ sofar step => ?_
  obtain ⟨before, hr, hb⟩ := sofar
  cases step.written with
  | kept store => exact ⟨before, store ▸ hr, hb⟩
  | @created id name owner store =>
    obtain ⟨-, fresh, hv⟩ := MemoryStore.create_eq_ok store
    have other : name ≠ wallet := fun same => by cases fresh.symm.trans (same ▸ hr)
    exact ⟨before, by rw [hv]; exact (Table.get?_insert_of_ne _ other _).trans hr, hb⟩
  | @committed id name change written store =>
    obtain ⟨old, hold, applied, hv⟩ := MemoryStore.mutate_eq_ok store
    by_cases same : name = wallet
    · subst same
      obtain rfl := Option.some.inj (hr.symm.trans hold)
      have moves := (Mutation.applyTo_spec applied).1
      have balance := moves.balance_eq c
      have credited := moves.credited_nonneg c
      have debited := moves.debited_le c
      exact ⟨written, by rw [hv]; exact Table.get?_insert_self .., by omega⟩
    · exact ⟨before, by rw [hv]; exact (Table.get?_insert_of_ne _ same _).trans hr, hb⟩

namespace Rush

variable (rush : Rush s t us user c amount ids) (owned : s.store.get user = .ok row)
include rush owned

/-- The user has the wallet from the start. -/
theorem owns (h : Reaches s u) : ∃ now_, u.store.rows.get? row.id = some now_ ∧ now_.user = user ∧
    u.store.get user = .ok now_ := by
  obtain ⟨wallet, hi, hr⟩ := MemoryStore.get_eq_ok_iff.1 owned
  obtain rfl := rush.start.store.id_of_row hr
  have hi := h.store_extends.index hi
  obtain ⟨now_, hn, hu⟩ := (h.store_sound rush.start.store).row_of_index hi
  exact ⟨now_, hn, hu, MemoryStore.get_eq_ok_iff.2 ⟨_, hi, hn⟩⟩

/-- Whoever writes the row in the run is the user. -/
theorem user_of_wrote {vs : List State} {entry : Occurrence} {written : Wallet} (h : Run s u vs)
    (wrote : Wrote vs id entry written) (same : written.id = row.id) : written.user = user := by
  obtain ⟨x, v, inside, -, -, hg⟩ := wrote
  have before := h.reaches_of_mem (inside.subset List.mem_cons_self)
  obtain ⟨wallet, -, hr⟩ := MemoryStore.get_eq_ok_iff.1 hg
  have hid := (before.store_sound rush.start.store).id_of_row hr
  obtain ⟨now_, hn, hu, -⟩ := rush.owns owned before
  obtain rfl := Option.some.inj (hn.symm.trans (same ▸ hid ▸ hr))
  exact hu

/-- **Whoever drew is one of the calls.** -/
theorem takes_of_committed {change : Change} {written : Wallet} (h : Reaches s u)
    (k : Reaches u t) (hm : .committed id change written ∈ u.history)
    (same : written.id = row.id) :
    id ∈ ids ∧ ∃ r, .arrived id r ∈ t.history ∧ r.Takes user c amount ∧ r.Asks change := by
  obtain ⟨vs, run⟩ := h.exists_run
  obtain ⟨r, asked⟩ := (h.recorded rush.start id).arrived_of_mem hm rfl
  obtain ⟨for_, wrote⟩ := run.wrote rush.start hm asked
  have asks := run.asks_of_committed rush.start hm asked
  rw [rush.user_of_wrote owned run wrote same] at for_
  have asked := k.mem_history asked
  have one := rush.alone id r asked for_
  obtain ⟨r', asked', takes⟩ := rush.takes id one
  obtain rfl := (rush.run.reaches.recorded rush.start id).arrived_unique asked asked'
  exact ⟨one, r, asked, takes, asks⟩

/-- **What is in the balance** at any moment: what was there at the start, less the amount for each
call that drew. -/
theorem balance_eq (units : MinorUnits.ofAmount? amount = some a) (h : Reaches s u)
    (k : Reaches u t) {now_ : Wallet} (there : u.store.rows.get? row.id = some now_) :
    (now_.balance c).units = (row.balance c).units - a.units * (u.drawers row.id).length := by
  obtain ⟨opening, opened, balance⟩ := (h.balanced rush.start).balance row.id now_ there
  -- the wallet was not opened in the run, since nobody creates one for the user
  obtain rfl : row = opening := by
    rcases opened with hs | ⟨id, hm, same⟩
    · obtain ⟨wallet, -, hr⟩ := MemoryStore.get_eq_ok_iff.1 owned
      obtain rfl := rush.start.store.id_of_row hr
      exact Option.some.inj (hr.symm.trans hs)
    · obtain ⟨vs, run⟩ := h.exists_run
      obtain ⟨r, asked⟩ := (h.recorded rush.start id).arrived_of_mem hm rfl
      obtain ⟨rfl, wrote⟩ := run.made rush.start hm asked
      have mine := rush.user_of_wrote owned run wrote same
      have asked := k.mem_history asked
      obtain ⟨r', asked', takes⟩ := rush.takes id (rush.alone id _ asked (congrArg some mine))
      obtain rfl := (rush.run.reaches.recorded rush.start id).arrived_unique asked asked'
      cases takes
  -- every entry takes the amount from the balance and gives it nothing
  have entries : ∀ m ∈ u.ledger row.id, m.debited c = a.units ∧ m.credited c = 0 := by
    intro m hm
    obtain ⟨o, ho, entry⟩ := List.mem_filterMap.1 hm
    cases o with
    | committed id change written =>
      rw [Occurrence.entry?] at entry
      split at entry
      · next same =>
        obtain rfl := Option.some.inj entry
        obtain ⟨-, r, -, takes, asks⟩ := rush.takes_of_committed owned h k ho same
        obtain ⟨debits, credits⟩ := takes.mutation units asks
        exact ⟨Mutation.debited_eq debits, credits⟩
      · cases entry
    | _ => cases entry
  have debited : u.debited row.id c = a.units * (u.drawers row.id).length := by
    rw [State.debited, List.sum_eq_card_nsmul _ a.units, List.length_map, ← State.length_drawers,
      nsmul_eq_mul, Int.mul_comm]
    exact List.forall_mem_map.2 fun m hm => (entries m hm).1
  have credited : u.credited row.id c = 0 := by
    rw [State.credited, List.sum_eq_card_nsmul _ 0, nsmul_zero]
    exact List.forall_mem_map.2 fun m hm => (entries m hm).2
  have sum := balance c
  omega

/-- **Those who drew are those who succeeded.** -/
theorem drawers_perm (units : MinorUnits.ofAmount? amount = some a) :
    (t.drawers row.id).Perm (ids.filter t.hasAnswered) := by
  have reaches := rush.run.reaches
  refine (List.perm_ext_iff_of_nodup (reaches.nodup_drawers rush.start row.id)
    (rush.distinct.filter _)).2 fun id => ?_
  rw [State.mem_drawers, List.mem_filter]
  constructor
  · rintro ⟨change, written, hm, same⟩
    obtain ⟨one, -⟩ := rush.takes_of_committed owned reaches (.refl t) hm same
    obtain ⟨outcome, ended⟩ := rush.ended id one
    refine ⟨one, ?_⟩
    cases outcome with
    | ok answer => exact State.hasAnswered_of_mem ended
    | error e =>
      -- a call that failed has done nothing
      have nothing := reaches.deeds_of_error rush.start ended
      have deed := State.mem_deeds.2 ⟨hm, Occurrence.isDeedOf_committed change written⟩
      rw [nothing] at deed
      cases deed
  · rintro ⟨one, answered⟩
    obtain ⟨answer, ended⟩ := State.mem_of_hasAnswered answered
    obtain ⟨r, asked, takes⟩ := rush.takes id one
    have mutates : r.order?.isSome := by
      rcases takes.order? units with is | ⟨d, -, is⟩ <;> rw [is] <;> rfl
    obtain ⟨change, written, commits, -, for_, -, u, v, inside, -, -, hg⟩ :=
      rush.run.committed_once rush.start asked mutates ended
    have entered : .committed id change written ∈ t.commits id := by
      rw [commits]
      exact List.mem_singleton_self _
    refine ⟨change, written, (List.mem_filter.1 entered).1, ?_⟩
    -- the row written is the user's, so it is the wallet in question
    have before := rush.run.reaches_of_mem (inside.subset List.mem_cons_self)
    obtain ⟨now_, hn, -, hu⟩ := rush.owns owned before
    have mine := Option.some.inj (takes.user?_eq.symm.trans for_)
    rw [← mine] at hg
    cases hg.symm.trans hu
    exact (before.store_sound rush.start.store).id_of_row hn

/-- **A call that did not succeed was refused for lack of funds,** when all that the balance allows
had been taken. -/
theorem refused (units : MinorUnits.ofAmount? amount = some a) (one : id ∈ ids)
    (fails : ¬ t.hasAnswered id) :
    .ended id (.error .insufficientFunds) ∈ t.history ∧
      (row.balance c).units < a.units * ((t.drawers row.id).length + 1) := by
  obtain ⟨outcome, ended⟩ := rush.ended id one
  obtain ⟨r, asked, takes⟩ := rush.takes id one
  cases outcome with
  | ok answer => exact absurd (State.hasAnswered_of_mem ended) fails
  | error e =>
    -- the step that refused it
    obtain ⟨u, hu, v, call, live, rfl, effect⟩ :=
      rush.run.concluded_of_ended rush.start ended asked
    have before := rush.run.reaches_of_mem hu
    obtain ⟨now_, hn, -, hg⟩ := rush.owns owned before
    have free := rush.unhindered u hu id one
    rw [State.isHindered, live, Option.any_some] at free
    obtain rfl : e = .insufficientFunds := effect.insufficientFunds rfl takes units
      (before.isOf rush.start live) (before.located rush.start live)
      (before.store_sound rush.start.store) hg free
    refine ⟨ended, ?_⟩
    -- the moment at which the balance was short
    obtain ⟨w, hw, -, user', short, c', a', for_, hs, debits, less⟩ :=
      (rush.run.justified_of_ended rush.start ended asked).short rfl
    have before := rush.run.reaches_of_mem hw
    have after := rush.run.reaches_from_mem hw
    obtain ⟨then_, hn, -, hg⟩ := rush.owns owned before
    obtain rfl := Option.some.inj (takes.user?_eq.symm.trans for_)
    cases hs.symm.trans hg
    have same : some (c, a) = some (c', a') := by
      rw [← debits, Request.debit?]
      rcases takes.order? units with is | ⟨d, -, is⟩ <;> rw [is] <;> rfl
    cases same
    have balance := rush.balance_eq owned units before after hn
    have more : ((w.drawers row.id).length : Int) ≤ (t.drawers row.id).length :=
      Int.ofNat_le.2 (after.length_drawers_le row.id)
    have positive := MinorUnits.ofAmount?_pos units
    have taken := Int.mul_le_mul_of_nonneg_left more (Int.le_of_lt positive)
    rw [Int.mul_add]
    omega

end Rush

/-- **The balance is used up as far as the amount goes:** of all calls as many have succeeded as
there are or as the balance allows, all others were refused for lack of funds, and the rest is
left. -/
structure Exhausted (t : State) (user : Uuid) (c : Currency) (funds amount : Int)
    (ids : List CallId) : Prop where
  succeeded : ((ids.filter t.hasAnswered).length : Int) = min (ids.length : Int) (funds / amount)
  refused : ∀ id ∈ ids, ¬ t.hasAnswered id → .ended id (.error .insufficientFunds) ∈ t.history
  left : ∃ row, t.store.get user = .ok row ∧
    (row.balance c).units = funds - amount * min (ids.length : Int) (funds / amount)

/-- **Oversubscribed debits stop exactly at the limit,** whichever mixture of withdrawals and
exchanges they are and however they interleave. -/
theorem Rush.exhausted (rush : Rush s t us user c amount ids) (owned : s.store.get user = .ok row)
    (funds : 0 ≤ (row.balance c).units) (units : MinorUnits.ofAmount? amount = some a) :
    Exhausted t user c (row.balance c).units a.units ids := by
  have reaches := rush.run.reaches
  have positive := MinorUnits.ofAmount?_pos units
  have number := (rush.drawers_perm owned units).length_eq
  obtain ⟨now_, hn, -, hg⟩ := rush.owns owned reaches
  have balance := rush.balance_eq owned units reaches (.refl t) hn
  -- no more than the balance allows
  have enough : (t.drawers row.id).length ≤ (row.balance c).units / a.units := by
    rw [Int.le_ediv_iff_mul_le positive, Int.mul_comm]
    obtain ⟨wallet, -, hr⟩ := MemoryStore.get_eq_ok_iff.1 owned
    obtain rfl := rush.start.store.id_of_row hr
    obtain ⟨last, hl, nonneg⟩ := reaches.balance_nonneg hr funds
    obtain rfl := Option.some.inj (hn.symm.trans hl)
    omega
  have all : (ids.filter t.hasAnswered).length ≤ ids.length := List.length_filter_le ..
  -- and no fewer, unless all have succeeded
  have exact_ : ((t.drawers row.id).length : Int) =
      min (ids.length : Int) ((row.balance c).units / a.units) := by
    by_cases every : ∀ id ∈ ids, t.hasAnswered id
    · rw [List.filter_eq_self.2 every] at number
      omega
    · obtain ⟨id, one, fails⟩ : ∃ id ∈ ids, ¬ t.hasAnswered id := by simpa using every
      have less := (rush.refused owned units one fails).2
      rw [Int.mul_comm, ← Int.ediv_lt_iff_lt_mul positive] at less
      omega
  exact {
    succeeded := by rw [← number, exact_]
    refused := fun id one fails => (rush.refused owned units one fails).1
    left := ⟨now_, hg, by rw [balance, exact_]⟩ }

/-! ### Two debits on funds for one -/

/-- A wallet with 100 USD. -/
def purse : Wallet := ⟨.ofNat 2, .ofNat 1, .ofMajor 100, .zero, .zero, .epoch⟩

/-- A service with this wallet. -/
def funded : State :=
  { vacant with store := ⟨MemoryStore.empty.rows.insert purse.id purse,
      MemoryStore.empty.byUser.insert purse.user purse.id⟩ }

theorem unused_funded : funded.Unused :=
  { unused_vacant with
    store := MemoryStore.Sound.empty.create (w := purse) (t := funded.store) rfl }

/-- An exchange of 60 USD looks at the balance, and before it comes to the store a withdrawal of as
much passes it by. -/
def contesting : List Turn :=
  let turns (id : CallId) (n : Nat) : List Turn := List.replicate n (.call id)
  .outside (.refreshCache [⟨⟨.usd, .rub⟩, 90.0⟩]) ::
  .outside (.arrive 1 (.exchange purse.user "USD" "RUB" 60.0) (.ofNat 3)) :: turns 1 4 ++
  .outside (.arrive 2 (.withdraw purse.user "USD" 60.0) (.ofNat 4)) :: turns 2 8 ++
  turns 1 4

set_option maxRecDepth 10000 in
theorem isSome_contesting : (funded.follow? contesting).isSome := by decide +kernel

/-- What is left after that. -/
def contested : State := (funded.follow? contesting).get isSome_contesting

theorem follow?_contesting : funded.follow? contesting = some contested := (Option.some_get _).symm

/-- Whether no other call than these was made for the user. -/
def State.isFor (s : State) (user : Uuid) (ids : List CallId) : Bool :=
  s.history.all fun o => match o with
    | .arrived id r => r.user? ≠ some user || ids.contains id
    | _ => true

/-- One of the two succeeds and the other is refused. -/
theorem exhausted_contested : Exhausted contested purse.user .usd 10000 6000 [1, 2] := by
  have answered : contested.hasAnswered 2 := by decide +kernel
  have failed : contested.hasFailed 1 .insufficientFunds := by decide +kernel
  have only : contested.isFor purse.user [1, 2] := by decide +kernel
  have unhindered : ∀ u ∈ funded.trail contesting, ∀ id ∈ [1, 2], u.isHindered id = false := by
    decide +kernel
  have first : Turn.outside (.arrive 1 (.exchange purse.user "USD" "RUB" 60.0) (.ofNat 3)) ∈
      contesting := by simp [contesting]
  have second : Turn.outside (.arrive 2 (.withdraw purse.user "USD" 60.0) (.ofNat 4)) ∈
      contesting := by simp [contesting]
  have exchange : .arrived 1 (.exchange purse.user "USD" "RUB" 60.0) ∈ contested.history :=
    arrived_of_follow? follow?_contesting first
  have withdrawal : .arrived 2 (.withdraw purse.user "USD" 60.0) ∈ contested.history :=
    arrived_of_follow? follow?_contesting second
  have rush : Rush funded contested (funded.trail contesting) purse.user .usd 60.0 [1, 2] := {
    run := .of_follow? follow?_contesting
    start := unused_funded
    distinct := by decide
    takes := by
      intro id one
      rcases List.mem_pair.1 one with rfl | rfl
      · exact ⟨_, exchange, rfl, rfl, ⟨.rub, by decide, rfl⟩, rfl⟩
      · exact ⟨_, withdrawal, rfl, rfl, rfl⟩
    alone := by
      intro id r hm for_
      simpa [for_] using List.all_eq_true.1 only _ hm
    ended := by
      intro id one
      rcases List.mem_pair.1 one with rfl | rfl
      · exact ⟨_, State.mem_of_hasFailed failed⟩
      · obtain ⟨answer, ended⟩ := State.mem_of_hasAnswered answered
        exact ⟨_, ended⟩
    unhindered }
  have owned : funded.store.get purse.user = .ok purse := rfl
  have units : MinorUnits.ofAmount? 60.0 = some (.ofMajor 60) := by decide +kernel
  exact rush.exhausted owned (by decide) units

end Service

end Purse
