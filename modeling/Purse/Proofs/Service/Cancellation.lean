import Purse.Proofs.Service.Admission
import Purse.Proofs.Service.Alike
import Purse.Proofs.Service.Atomicity
import Purse.Proofs.Service.Failures
import Purse.Proofs.Service.Locks

/-!
# Calls that are given up

A call can be given up wherever it stands: at the gate, waiting for a lock or for the source, with
its mutation in the store, or about to publish. `CleanDrop` says what is left behind: the permit and
the locks that it held are free or with whoever waited longest, who can go on at once; its places in
the queues are gone; cache and rows are as they were, and the rows have the whole of its change or
nothing of it.

For the others it is as if the call had ended. `State.quit` ends it where it stands; besides, whenever
it would end in its next step anyhow, giving it up and letting it end come to the same. Both are
`Alike` to what is left behind, and alike services go on alike.
-/

namespace Purse.Service

variable {s t u : State} {us : List State} {id j : CallId} {call : Call} {next : Option Stage}
  {stage : Stage} {outcome : Outcome}

/-! ### Ways out -/

/-- The call does nothing to the other calls. -/
theorem Effect.calls_erase (h : Effect s id call (some stage) t) :
    t.calls.erase id = s.calls.erase id := by
  cases h with
  | refreshed =>
    refine Table.erase_modify.trans ?_
    rw [State.refreshCache_calls]
  | broken | untaken =>
    refine Table.erase_modify.trans ?_
    rw [State.notice_calls]
  | rejected =>
    refine Table.erase_modify.trans ?_
    rw [State.notice_calls]
    rfl
  | published =>
    rw [State.publish_eq]
    refine Table.erase_modify.trans ?_
    rw [State.notice_calls]
    rfl
  | _ => exact Table.erase_modify

/-- **A step that leads to the end** and touches neither rows nor events gives back what the call
held, and leaves nothing but a farewell. -/
theorem Effect.bids_farewell (h : Effect s id call (some stage) t) (ends : stage = .ending outcome)
    (untouched : Untouched s t) :
    Adds (Occurrence.IsFarewell id) s t ∧
      t = { s with
        gate := t.gate
        refreshLock := t.refreshLock
        rowLocks := t.rowLocks
        calls := t.calls
        history := t.history } := by
  have notices (n : Notice) : (Occurrence.noticed n).IsFarewell id := trivial
  cases h with
  | @created user store at_ asks made =>
    -- there is a row more than before
    obtain ⟨-, fresh, added⟩ := MemoryStore.create_eq_ok made
    have same : store.rows = s.store.rows := congrArg MemoryStore.rows untouched.store
    rw [← same, added, Table.get?_insert_self] at fresh
    cases fresh
  | @published answer event =>
    -- there is an offer more than before
    have more : (s.publish id answer event).offered = s.offered + 1 :=
      (State.offered_of_noticed (s := s.record (.published ..)) (State.publish_history ..)).trans
        (List.countP_cons_of_pos rfl)
    exact absurd (more.symm.trans untouched.offered) (Nat.succ_ne_self _)
  | read => exact ⟨.one rfl rfl, rfl⟩
  | broken | untaken | rejected =>
    refine ⟨State.fail_adds notices, ?_⟩
    unfold State.fail
    rw [State.notice_eq]
    rfl
  | asked | refreshed | committed => cases ends
  | _ => exact ⟨.nothing rfl, rfl⟩

/-- The gate after the last step of a call that ends is as if the call had left the queue and given
its permit back. -/
theorem Effect.release_eq (h : Effect s id call (some stage) t) (ends : stage = .ending outcome)
    (before : call.stage.Holds (s.gate.held (.call id)) (s.gate.queued (.call id))) :
    t.gate.release (.call id) = (s.gate.leave (.call id)).release (.call id) := by
  have after := h.holds before
  rw [ends] at after
  have nowhere : t.gate.queued (.call id) = 0 := by cases outcome <;> exact after.2
  have unchanged (same : t.gate = s.gate) :
      t.gate.release (.call id) = (s.gate.leave (.call id)).release (.call id) := by
    rw [same] at nowhere ⊢
    rw [Gate.leave_of_not_queued nowhere]
  cases h with
  | timedOut => rfl
  | silent at_ =>
    -- the one permit has gone back already
    rw [at_] at before
    obtain ⟨one, nowhere⟩ := before
    obtain ⟨less, -⟩ := Gate.shares_release nowhere
    have none_ : (s.gate.release (.call id)).held (.call id) = 0 := less.trans (by rw [one]; rfl)
    rw [Gate.leave_of_not_queued nowhere]
    exact Gate.release_of_not_held none_
  | broken | untaken | rejected => exact unchanged (State.fail_gate ..)
  | published => exact unchanged (State.publish_gate ..)
  | viewed | sought | queued | admitted | located | missed | asked | answered | refreshed | taken
  | committed | announced => cases ends
  | _ => exact unchanged rfl

/-- A call that has nothing of the refresh lock after a step has given it up. -/
theorem Touched.eq_withdraw {l k : Lock CallId} (touched : Touched id l k)
    (free : k.Has id .nothing) : k = l.withdraw id := by
  cases touched with
  | left => exact (Lock.withdraw_of_nothing free).symm
  | asked => exact absurd free Lock.not_has_nothing_request
  | given => rfl

/-- A call that has nothing of any row lock after a step has given up what it had of them. -/
theorem RowTouched.eq_mapValues {locks : Table Uuid (Lock CallId)} (touched : RowTouched s id locks)
    (free : ∀ wallet, ((locks.get? wallet).getD .open_).Has id .nothing) :
    locks = s.rowLocks.mapValues (·.withdraw id) := by
  cases touched with
  | left =>
    refine (Table.mapValues_eq_self fun wallet l there => ?_).symm
    have nothing := free wallet
    rw [there] at nothing
    exact Lock.withdraw_of_nothing nothing
  | asked wallet =>
    have nothing := free wallet
    rw [Table.get?_insert_self] at nothing
    exact absurd nothing Lock.not_has_nothing_request
  | @given wallet turn =>
    -- only a lock that is in the table has a holder
    cases there : s.rowLocks.get? wallet with
    | none => simp [State.rowLock, there, Lock.open_] at turn
    | some l =>
      have at_ : s.rowLock wallet = l := by rw [State.rowLock, there, Option.getD_some]
      rw [at_]
      refine (Table.mapValues_eq_insert (f := (·.withdraw id)) there fun other k ne there' => ?_).symm
      have nothing := free other
      rw [Table.get?_insert_of_ne _ (Ne.symm ne), there'] at nothing
      exact Lock.withdraw_of_nothing nothing

/-! ### Giving up and ending -/

/-- Two ways to be rid of a call come to the same, if what it held is given back the same way and
nothing else has happened. -/
theorem alike_finish (live : s.calls.get? id = some call)
    (gate : t.gate.release (.call id) = (s.gate.leave (.call id)).release (.call id))
    (refreshLock : t.refreshLock = s.refreshLock.withdraw id)
    (rowLocks : t.rowLocks = s.rowLocks.mapValues (·.withdraw id))
    (calls : t.calls.erase id = s.calls.erase id)
    (adds : Adds (Occurrence.IsFarewell id) s t)
    (rest : t = { s with
      gate := t.gate
      refreshLock := t.refreshLock
      rowLocks := t.rowLocks
      calls := t.calls
      history := t.history }) :
    Alike id (s.drop id) (t.finish id outcome) := by
  have finished : t.finish id outcome =
      { s with
        gate := t.gate.release (.call id)
        refreshLock := t.refreshLock
        rowLocks := t.rowLocks
        calls := t.calls.erase id
        history := .ended id outcome :: t.history } :=
    congrArg (fun u : State => { u with
      gate := t.gate.release (.call id)
      calls := t.calls.erase id
      history := .ended id outcome :: t.history }) rest
  obtain ⟨new, hnew, farewell⟩ := adds
  rw [State.drop_eq live, finished, gate, refreshLock, rowLocks, calls]
  refine ⟨rfl, [], [.dropped id], .ended id outcome :: new, s.history, rfl, ?_, ?_, ?_⟩
  · rw [hnew]
    rfl
  · intro o ho
    obtain rfl := List.mem_singleton.1 ho
    rfl
  · intro o ho
    rcases List.mem_cons.1 ho with rfl | ho
    · rfl
    · exact farewell o ho

/-- **The end of a call where it stands:** it gives back its locks, leaves the queues and takes its
last step. -/
def State.quit (s : State) (id : CallId) (outcome : Outcome) : State :=
  { s with
    refreshLock := s.refreshLock.withdraw id
    rowLocks := s.rowLocks.mapValues (·.withdraw id)
    gate := s.gate.leave (.call id) }.finish id outcome

theorem alike_quit (live : s.calls.get? id = some call) :
    Alike id (s.drop id) (s.quit id outcome) :=
  alike_finish live rfl rfl rfl rfl (.nothing rfl) rfl

/-- Giving a call up that is about to end comes to the same as its end. -/
theorem Reaches.alike_last (h : Reaches s t) (start : s.Unused)
    (live : t.calls.get? id = some call) (ends : call.stage = .ending outcome) :
    Alike id (t.drop id) (t.finish id outcome) := by
  have locked := h.locked start id
  have holds := (h.permitted start id).holds live
  rw [ends] at holds
  have nowhere : t.gate.queued (.call id) = 0 := by cases outcome <;> exact holds.2
  have refresh := locked.refresh.has live
  have row wallet := (locked.row wallet).has live
  simp only [ends] at refresh row
  refine alike_finish live ?_ (Touched.left.eq_withdraw refresh) (RowTouched.left.eq_mapValues row)
    rfl (.nothing rfl) rfl
  rw [Gate.leave_of_not_queued nowhere]

/-- Giving a call up whose next step leads to its end comes to the same as that step and the end,
unless the step touches rows or events. -/
theorem Reaches.alike_next (h : Reaches s t) (start : s.Unused)
    (live : t.calls.get? id = some call) (moves : t.step? id = some u)
    (ends : u.calls.get? id = some { call with stage := .ending outcome })
    (untouched : Untouched t u) : Alike id (t.drop id) (u.finish id outcome) := by
  obtain ⟨call', live', next, effect⟩ := State.step?_effect moves
  obtain rfl := Option.some.inj (live.symm.trans live')
  -- the step goes to the last stage
  obtain ⟨stage, rfl, same⟩ := Option.map_eq_some_iff.1 ((effect.calls_self live).symm.trans ends)
  have at_ : stage = .ending outcome := congrArg Call.stage same
  have locked := h.locked start id
  have refresh := effect.refreshShare (locked.refresh.has live)
  have row wallet := effect.rowShare ((locked.row wallet).has live)
  rw [at_] at refresh
  simp only [at_] at row
  obtain ⟨adds, rest⟩ := effect.bids_farewell at_ untouched
  exact alike_finish live (effect.release_eq at_ ((h.permitted start id).holds live))
    (effect.refreshLock_touched.eq_withdraw refresh) (effect.rowLocks_touched.eq_mapValues row)
    effect.calls_erase adds rest

/-! ### What is left behind -/

/-- **The call is given up cleanly** in the state `t`, to which a run through `us` has come. -/
structure CleanDrop (s t : State) (us : List State) (id : CallId) (call : Call) : Prop where
  /-- Its permit is free or with the first in the queue; its place in the queue is gone. -/
  gate : t.gate.Relieved (.call id) (t.drop id).gate
  /-- No permit is lost. -/
  permits : (t.drop id).gate.holders.length + (t.drop id).gate.free = s.gate.capacity
  /-- The refresh lock, if the call held it, is free or with the first who waits. -/
  refreshLock : t.refreshLock.Relieved id (t.drop id).refreshLock
  /-- So is every row lock. -/
  rowLock : ∀ wallet, (t.rowLock wallet).Relieved id ((t.drop id).rowLock wallet)
  /-- The call holds nothing and waits for nothing. -/
  nothing : (t.drop id).gate.held (.call id) = 0 ∧ (t.drop id).gate.queued (.call id) = 0 ∧
    (t.drop id).refreshLock.Has id .nothing ∧
    ∀ wallet, ((t.drop id).rowLock wallet).Has id .nothing
  /-- Whoever gets something from it can go on at once. -/
  heirs : ∀ {j}, Gets j t (t.drop id) → ((t.drop id).step? j).isSome
  /-- The cache is as it was. -/
  cache : (t.drop id).cache = t.cache
  /-- The rows are as they were. -/
  store : (t.drop id).store = t.store
  /-- They have the whole of what the call asked for, from one of its steps, or nothing of it. -/
  rows : Rows s t us id call.request
  /-- Everything else is as it was, except that the call is gone. -/
  rest : t.drop id = { t with
    gate := (t.drop id).gate
    refreshLock := (t.drop id).refreshLock
    rowLocks := (t.drop id).rowLocks
    calls := t.calls.erase id
    history := .dropped id :: t.history }
  /-- From here on everything goes as if the call had ended where it stood, -/
  ended : ∀ outcome turns, Option.Rel (Alike id) (t.follow? (.outside (.drop id) :: turns))
    ((t.quit id outcome).follow? turns)
  /-- as if it had taken its last step, if that was all that it had to do, -/
  last : ∀ {outcome}, call.stage = .ending outcome → ∀ turns, Option.Rel (Alike id)
    (t.follow? (.outside (.drop id) :: turns)) (t.follow? (.call id :: turns))
  /-- and as if it had come to its end, if its next step would have brought it there without a
  change of rows or an event. -/
  next : ∀ {u outcome}, t.step? id = some u →
    u.calls.get? id = some { call with stage := .ending outcome } → Untouched t u → ∀ turns,
    Option.Rel (Alike id) (t.follow? (.outside (.drop id) :: turns))
      (t.follow? (.call id :: .call id :: turns))

/-- **A call can be given up cleanly wherever it stands.** -/
theorem Run.cleanDrop (h : Run s t us) (start : s.Unused) (live : t.calls.get? id = some call) :
    CleanDrop s t us id call := by
  have reach := h.reaches
  have dropped : Reaches s (t.drop id) := reach.tail (.outside (.drop id) nofun)
  have gone : (t.drop id).calls.get? id = none := by rw [State.drop_calls, if_pos rfl]
  have holds := (reach.permitted start id).holds live
  have locked := reach.locked start id
  have free := (dropped.permitted start id).nothing gone
  have unlocked := dropped.locked start id
  have asked := (reach.recorded start id).arrived_of_live live
  refine {
    gate := ?_, permits := ?_, refreshLock := ?_, rowLock := fun wallet => ?_, nothing := ?_
    heirs := fun {j} gets => ?_, cache := ?_, store := State.drop_store .., rest := ?_
    rows := rows_of_arrived start asked
    ended := fun outcome turns => (alike_quit live).follow? turns
    last := fun {outcome} ends turns => ?_
    next := fun {u outcome} moves ends untouched turns => ?_ }
  · rw [State.drop_gate live]
    exact Gate.relieved holds.total_le
  · rw [Gate.length_holders_add_free (dropped.gate_sound start), dropped.capacity_eq]
  · rw [refreshLock_goesBy.dropped live]
    exact (locked.refresh.has live).relieved
  · rw [State.drop_rowLock live]
    exact ((locked.row wallet).has live).relieved
  · exact ⟨free.1, free.2, unlocked.refresh.nothing gone,
      fun wallet => (unlocked.row wallet).nothing gone⟩
  · -- the call itself gets nothing
    have other : j ≠ id := by
      rintro rfl
      cases gets with
      | permit before after => omega
      | refreshLock before after =>
        exact Lock.held_eq_zero_iff.1 (unlocked.refresh.nothing gone).1 after
      | rowLock before after =>
        exact Lock.held_eq_zero_iff.1 ((unlocked.row _).nothing gone).1 after
    exact reach.step?_of_gets start (.dropped other live rfl) gets
  · rw [State.drop_eq live]
  · rw [State.drop_eq live]
  · rw [State.follow?_call ((Effect.finished ends).step?_eq live)]
    exact (reach.alike_last start live ends).follow? turns
  · rw [State.follow?_call moves, State.follow?_call ((Effect.finished rfl).step?_eq ends)]
    exact (reach.alike_next start live moves ends untouched).follow? turns

/-- In the crowded service the exchange is given up while it waits for the source. Its permit goes to
the deposit at the gate, and the refresh lock to the quote. -/
theorem cleanDrop_crowded :
    (crowded.drop 2).gate.holds (.call 4) ∧ (crowded.drop 2).refreshLock.holder = some 5 ∧
      ∃ us call, Run vacant crowded us ∧ crowded.calls.get? 2 = some call ∧
        CleanDrop vacant crowded us 2 call := by
  refine ⟨by decide +kernel, by decide +kernel, ?_⟩
  have there : (crowded.calls.get? 2).isSome := by decide +kernel
  obtain ⟨call, live⟩ := Option.isSome_iff_exists.1 there
  obtain ⟨us, run⟩ := reaches_crowded.exists_run
  exact ⟨us, call, run, live, run.cleanDrop unused_vacant live⟩

end Purse.Service
