import Purse.Proofs.Service.Stages
import Purse.Proofs.Service.Waiting

/-!
# No deadlock

Locks come back. Whoever holds a lock waits for nothing but the source of rates, and a few of its
own steps lead it to the one in which it gives the lock back (`Reaches.exists_given`). A lock that
is given back goes to the first in the queue, so whoever waits for one gets it
(`Reaches.exists_turn`), and all that this takes is that calls move and time passes (`Unaided`).

Requests that only read have nothing to do with the gate (`Reaches.gate_of_isReadOnly`). They wait
for locks and for the source alone, and so they come to their end whoever holds the permits
(`Reaches.exists_end`). `DeadlockFree` puts this together with the order of permits and locks.
-/

namespace Purse

/-- Whether the request only reads. -/
def Request.isReadOnly : Request → Bool
  | view _ | quote _ | listing => true
  | _ => false

namespace Service

variable {s t u : State} {us : List State} {id j : CallId} {call : Call} {next : Option Stage}
  {name : LockName} {wallet : Uuid} {stage : Stage} {due : Nat}

/-! ### Runs without help -/

/-- **A run without help from outside:** calls move and time passes, and nothing else happens. -/
inductive Unaided (s : State) : State → Prop
  | refl : Unaided s s
  | moved {t u : State} (id : CallId) : Unaided s t → t.step? id = some u → Unaided s u
  | waited {t : State} (ms : Nat) : Unaided s t → Unaided s (t.move (.tick ms))

namespace Unaided

theorem reaches (h : Unaided s t) : Reaches s t := by
  induction h with
  | refl => exact .refl s
  | moved id _ moves ih => exact ih.tail (.call id moves)
  | waited ms _ ih => exact ih.tail (.outside (.tick ms) nofun)

theorem trans (h : Unaided s t) (k : Unaided t u) : Unaided s u := by
  induction k with
  | refl => exact h
  | moved id _ moves ih => exact ih.moved id moves
  | waited ms _ ih => exact ih.waited ms

/-- Whoever is at the gate from outside keeps his permits, and can get one for his place in the
queue. -/
theorem kept (h : Unaided s t) (n : Nat) : s.gate.Kept (.outside n) t.gate := by
  induction h with
  | refl => exact .refl ..
  | waited ms _ ih => exact ih
  | moved id _ moves ih =>
    obtain ⟨call, -, next, effect⟩ := State.step?_effect moves
    have other : Party.outside n ≠ .call id := nofun
    refine ih.trans ?_
    rcases effect.gate with h | ⟨deadline, h⟩ | h | h <;> rw [h]
    · exact .refl ..
    · exact Gate.kept_request other
    · exact Gate.kept_leave other
    · exact Gate.kept_release other

end Unaided

/-! ### Locks come back -/

theorem Effect.refreshLock_of_share (h : Effect s id call next t)
    (has : call.stage.refreshShare ≠ .nothing) :
    (t.refreshLock = s.refreshLock ∧ next.isSome) ∨ t.refreshLock = s.refreshLock.withdraw id := by
  cases h with
  | asked | answered => exact .inl ⟨rfl, rfl⟩
  | refreshed => exact .inl ⟨State.refreshCache_refreshLock .., rfl⟩
  | foundLate | unanswered | served | unserved => exact .inr rfl
  -- the other stages have no share in the refresh lock
  | created at_ | uncreated at_ | viewed at_ | sought at_ | invalid at_ | queued at_ | admitted at_
  | timedOut at_ | located at_ | unlocated at_ | read at_ | vanished at_ | found at_ | missed at_
  | broken at_ | taken at_ | untaken at_ | committed at_ | rejected at_ | silent at_ | announced at_
  | published at_ | finished at_ =>
    rw [at_] at has
    exact absurd rfl has

theorem Effect.rowLock_of_share (h : Effect s id call next t)
    (has : call.stage.rowShare wallet ≠ .nothing) :
    t.rowLock wallet = (s.rowLock wallet).withdraw id := by
  -- a row lock is given back in the first step after it is held
  have given {other : Uuid} (has : (if other = wallet then Share.asked else .nothing) ≠ .nothing) :
      (s.withRowLock other (·.withdraw id)).rowLock wallet = (s.rowLock wallet).withdraw id := by
    rw [State.withRowLock_rowLock, if_pos]
    by_contra ne
    exact has (if_neg ne)
  cases h with
  | read at_ | vanished at_ | committed at_ =>
    rw [at_] at has
    exact given has
  | rejected at_ =>
    rw [at_] at has
    exact (State.rowLock_congr (State.fail_rowLocks ..) wallet).trans (given has)
  | created at_ | uncreated at_ | viewed at_ | sought at_ | invalid at_ | queued at_ | admitted at_
  | timedOut at_ | located at_ | unlocated at_ | found at_ | missed at_ | foundLate at_ | asked at_
  | answered at_ | unanswered at_ | refreshed at_ | served at_ | unserved at_ | broken at_
  | taken at_ | untaken at_ | silent at_ | announced at_ | published at_ | finished at_ =>
    rw [at_] at has
    exact absurd rfl has

/-- **A step of who has a share in a lock** keeps the lock as it is and leads on, or gives the share
back. -/
theorem Effect.lock_of_share (h : Effect s id call next t)
    (has : name.share call.stage ≠ .nothing) :
    (t.lock name = s.lock name ∧ next.isSome) ∨ t.lock name = (s.lock name).withdraw id := by
  cases name with
  | refresh => exact h.refreshLock_of_share has
  | row wallet => exact .inr (h.rowLock_of_share has)

namespace Reaches

/-- A call that waits for nobody takes its next step in time. -/
theorem exists_effect (h : Reaches s t) (start : s.Unused) (live : t.calls.get? id = some call)
    (free : ∀ r, ¬ t.AwaitedBy id r) :
    ∃ ms u next, (t.move (.tick ms)).step? id = some u ∧
      Effect (t.move (.tick ms)) id call next u := by
  -- time passes up to when the call goes on by itself
  let ms := call.stage.due?.getD 0
  have later : Reaches s (t.move (.tick ms)) := h.tail (.outside (.tick ms) nofun)
  have ready (due : Nat) (hd : call.stage.due? = some due) : due ≤ t.clock + ms := by
    simp only [ms, hd, Option.getD_some]
    exact Nat.le_add_left ..
  obtain ⟨u, moves⟩ := Option.isSome_iff_exists.1 (later.isSome_step? start live free ready)
  obtain ⟨call', live', next, effect⟩ := State.step?_effect moves
  obtain rfl := Option.some.inj (live'.symm.trans live)
  exact ⟨ms, u, next, moves, effect⟩

/-- **Who holds a lock gives it back,** without any help. -/
theorem exists_given (h : Reaches s t) (start : s.Unused) (holds : (t.lock name).holder = some j) :
    ∃ u, Unaided t u ∧ u.lock name = (t.lock name).withdraw j ∧
      ∀ k ≠ j, u.calls.get? k = t.calls.get? k := by
  obtain ⟨call, live, has⟩ := (h.booked start name j).live_of_holder holds
  -- the call comes ever nearer to its end, and at its end it has no lock
  induction near : call.stage.ahead using Nat.strong_induction_on generalizing t call with
  | h n ih =>
    obtain ⟨ms, u, next, moves, effect⟩ :=
      h.exists_effect start live (h.not_awaitedBy_of_lock start holds)
    have way : Unaided t u := (Unaided.refl.waited ms).moved j moves
    rcases effect.lock_of_share has with ⟨kept, leads⟩ | given
    · obtain ⟨stage, rfl⟩ := Option.isSome_iff_exists.1 leads
      have still : (u.lock name).holder = some j := by rw [kept]; exact holds
      have reach := h.trans way.reaches
      obtain ⟨call', live', has'⟩ := (reach.booked start name j).live_of_holder still
      obtain rfl := Option.some.inj ((effect.calls_self live).symm.trans live')
      obtain ⟨v, way', given, same⟩ := ih _ (near ▸ effect.ahead_lt) reach still _ live' has' rfl
      exact ⟨v, way.trans way', given.trans (congrArg (Lock.withdraw · j) kept), fun k ne =>
        (same k ne).trans (effect.calls_of_ne ne)⟩
    · exact ⟨u, way, given, fun k ne => effect.calls_of_ne ne⟩

/-- **Who waits for a lock gets it,** without any help, and finds itself where it stood. -/
theorem exists_turn (h : Reaches s t) (start : s.Unused) (waits : id ∈ (t.lock name).waiting) :
    ∃ u, Unaided t u ∧ (u.lock name).holder = some id ∧ u.calls.get? id = t.calls.get? id := by
  -- each time the lock is given back the queue gets shorter by the first in it
  induction queue : (t.lock name).waiting generalizing t with
  | nil =>
    rw [queue] at waits
    cases waits
  | cons first rest ih =>
    obtain ⟨j, holds⟩ := (h.lock_sound start name).holder waits
    have ne : id ≠ j := by
      rintro rfl
      exact h.not_awaitedBy_of_lock start holds (.lock name) waits
    obtain ⟨v, way, given, same⟩ := h.exists_given start holds
    have handed : v.lock name = ⟨some first, rest⟩ := by
      rw [given, Lock.withdraw, if_pos holds, queue]
    rw [queue] at waits
    rcases List.mem_cons.1 waits with rfl | behind
    · exact ⟨v, way, by rw [handed], same _ ne⟩
    · obtain ⟨u, way', turn, same'⟩ :=
        ih (h.trans way.reaches) (by rw [handed]; exact behind) (by rw [handed])
      exact ⟨u, way.trans way', turn, same'.trans (same _ ne)⟩

end Reaches

/-! ### Requests that only read -/

/-- Who only reads does not touch the gate, unless it has a permit to give back. -/
theorem Effect.gate_of_isReadOnly (h : Effect s id call next t)
    (is : call.stage.IsOf call.request) (reads : call.request.isReadOnly)
    (none_ : s.gate.held (.call id) = 0) : t.gate = s.gate := by
  have orders : call.request.order? = none := by
    generalize call.request = r at reads
    cases r with
    | view | quote | listing => rfl
    | _ => cases reads
  cases h with
  | queued at_ asks => cases orders.symm.trans asks
  | timedOut at_ =>
    rw [at_] at is
    cases orders.symm.trans is
  | silent at_ | announced at_ =>
    rw [at_] at is
    obtain ⟨order, parsed, -⟩ := is
    cases orders.symm.trans parsed
  | finished => exact Gate.release_of_not_held none_
  | _ => simp

namespace Reaches

/-- **Who only reads has no permit** and no place at the gate. -/
theorem gate_of_isReadOnly (h : Reaches s t) (start : s.Unused)
    (live : t.calls.get? id = some call) (reads : call.request.isReadOnly) :
    t.gate.held (.call id) = 0 ∧ t.gate.queued (.call id) = 0 := by
  refine h.invariant (P := fun u => ∀ {call}, u.calls.get? id = some call →
    call.request.isReadOnly → u.gate.held (.call id) = 0 ∧ u.gate.queued (.call id) = 0)
    (fun live => ?_) (fun u v before sofar step => ?_) live reads
  · rw [start.calls] at live
    cases live
  · intro call live reads
    cases step.seen id with
    | moved was moves effect =>
      rw [effect.calls_self was] at live
      obtain ⟨stage, rfl, rfl⟩ := Option.map_eq_some_iff.1 live
      obtain ⟨none_, nowhere⟩ := sofar was reads
      rw [effect.gate_of_isReadOnly (before.isOf start was) reads none_]
      exact ⟨none_, nowhere⟩
    | arrived free eq =>
      subst eq
      -- nobody had the name before
      refine (before.permitted start id).nothing (Option.eq_none_iff_forall_ne_some.2 ?_)
      exact fun call live => free _ ((before.recorded start id).arrived_of_live live)
    | dropped was eq =>
      subst eq
      rw [State.drop_calls, if_pos rfl] at live
      cases live
    | elsewhere apart =>
      obtain ⟨none_, nowhere⟩ := sofar (apart.calls ▸ live) reads
      have total := apart.gate.total
      exact ⟨by omega, by omega⟩

/-- **Who only reads comes to its end,** without any help. -/
theorem exists_end (h : Reaches s t) (start : s.Unused) (live : t.calls.get? id = some call)
    (reads : call.request.isReadOnly) :
    ∃ u outcome, Unaided t u ∧ .ended id outcome ∈ u.history := by
  induction near : call.stage.ahead using Nat.strong_induction_on generalizing t call with
  | h n ih =>
    -- first its turn comes, if it waits for a lock
    obtain ⟨v, first, live', free⟩ : ∃ v, Unaided t v ∧ v.calls.get? id = some call ∧
        ∀ r, ¬ v.AwaitedBy id r := by
      by_cases waits : ∃ name, id ∈ (t.lock name).waiting
      · obtain ⟨name, waits⟩ := waits
        obtain ⟨v, way, turn, same⟩ := h.exists_turn start waits
        exact ⟨v, way, same.trans live, (h.trans way.reaches).not_awaitedBy_of_lock start turn⟩
      · refine ⟨t, .refl, live, fun r awaited => ?_⟩
        cases r with
        | lock name => exact waits ⟨name, awaited⟩
        | permit =>
          have nowhere := (h.gate_of_isReadOnly start live reads).2
          have place := State.queued_pos awaited
          omega
    -- then it takes a step, which is its last one or leads nearer to the end
    have reach := h.trans first.reaches
    obtain ⟨ms, w, next, moves, effect⟩ := reach.exists_effect start live' free
    have way : Unaided t w := (first.waited ms).moved id moves
    cases next with
    | some stage =>
      have lt : stage.ahead < n := near ▸ effect.ahead_lt
      obtain ⟨u, outcome, way', ended⟩ :=
        ih _ lt (h.trans way.reaches) (effect.calls_self live') reads rfl
      exact ⟨u, outcome, way.trans way', ended⟩
    | none =>
      cases effect with
      | finished at_ => exact ⟨_, _, way, List.mem_cons_self⟩

end Reaches

/-! ### A store that does not linger -/

theorem Quest.Finds.due_eq {quest : Quest} {cache : RateCache} {now due due' : Nat}
    {change : Change} (h : quest.Finds cache now due (.storing wallet change due')) :
    due' = due := by
  cases h
  rfl

/-- What is sent to the store is sent there now. -/
theorem Effect.due_eq {change : Change} {due : Nat}
    (h : Effect s id call (some (.storing wallet change due)) t) : due = s.storeDue := by
  generalize hstage : some (Stage.storing wallet change due) = stage at h
  cases h with
  | @read other order row =>
    have at_ := Option.some.inj hstage
    unfold State.afterRead at at_
    split at at_
    · cases at_
    · cases at_
      rfl
    · cases at_
      rfl
    · split at at_ <;> cases at_
  | found _ finds | foundLate _ _ finds | served _ finds =>
    obtain rfl := Option.some.inj hstage
    exact finds.due_eq
  | _ => cases hstage

/-- If the store takes up every mutation at once, no mutation has to wait for it. -/
theorem Run.due_le_of_prompt (h : Run s t us) (start : s.Unused)
    (prompt : ∀ u ∈ us, u.conditions.delay = 0) {change : Change} {due : Nat}
    (live : t.calls.get? id = some call) (at_ : call.stage = .storing wallet change due) :
    due ≤ t.clock := by
  refine h.calls_invariant start (Q := fun us u _ call =>
    (∀ w ∈ us, w.conditions.delay = 0) → ∀ wallet change due,
      call.stage = .storing wallet change due → due ≤ u.clock) ?_ ?_ ?_ live prompt _ _ _ at_
  · intro us u id request drawn _ _ _ wallet change due at_
    cases at_
  · intro us u v id call _ step _ sofar prompt wallet change due at_
    have le := sofar (fun w hw => prompt w (List.mem_cons_of_mem v hw)) wallet change due at_
    exact Nat.le_trans le step.clock_le
  · intro us u v id call stage run step _ _ effect prompt wallet change due at_
    obtain rfl : stage = .storing wallet change due := at_
    have none_ := prompt u (List.mem_cons_of_mem v run.mem_self)
    have due_ : due = u.clock + u.conditions.delay := effect.due_eq
    rw [due_, none_]
    exact step.clock_le

/-- If no call waits for the source either, everything in progress is ready. -/
theorem Run.due_le (h : Run s t us) (start : s.Unused)
    (prompt : ∀ u ∈ us, u.conditions.delay = 0)
    (answered : ∀ {id call quest due}, t.calls.get? id = some call →
      call.stage = .fetching quest due → due ≤ t.clock)
    (live : t.calls.get? id = some call) (hd : call.stage.due? = some due) : due ≤ t.clock := by
  cases at_ : call.stage with
  | fetching quest due' =>
    rw [at_] at hd
    obtain rfl := Option.some.inj hd
    exact answered live at_
  | storing wallet change due' =>
    rw [at_] at hd
    obtain rfl := Option.some.inj hd
    exact h.due_le_of_prompt start prompt live at_
  | _ =>
    rw [at_] at hd
    cases hd

/-! ### What else the holder of a lock waits for -/

/-- Nobody waits for time to pass while a row is read or written. -/
theorem Stage.due?_of_rowShare (has : stage.rowShare wallet ≠ .nothing) : stage.due? = none := by
  cases stage with
  | fetching | storing => exact absurd rfl has
  | _ => rfl

/-- From the miss in the cache to the last look, only the source takes time. -/
theorem Stage.eq_fetching (has : stage.refreshShare ≠ .nothing) (hd : stage.due? = some due) :
    ∃ quest, stage = .fetching quest due := by
  cases stage with
  | fetching quest due' =>
    obtain rfl := Option.some.inj hd
    exact ⟨quest, rfl⟩
  | storing => exact absurd rfl has
  | _ => cases hd

namespace Reaches

/-- **Who holds the lock of a row moves,** and gives it back. -/
theorem step?_of_holds_row (h : Reaches s t) (start : s.Unused)
    (holds : (t.rowLock wallet).holder = some id) :
    ∃ u, t.step? id = some u ∧ u.rowLock wallet = (t.rowLock wallet).withdraw id := by
  obtain ⟨call, live, has⟩ := (h.booked start (.row wallet) id).live_of_holder holds
  have holds' : (t.lock (.row wallet)).holder = some id := holds
  have timeless := Stage.due?_of_rowShare has
  have moves := h.isSome_step? start live (h.not_awaitedBy_of_lock start holds') fun due hd => by
    rw [timeless] at hd
    cases hd
  obtain ⟨u, moves⟩ := Option.isSome_iff_exists.1 moves
  obtain ⟨call', live', next, effect⟩ := State.step?_effect moves
  obtain rfl := Option.some.inj (live'.symm.trans live)
  exact ⟨u, moves, effect.rowLock_of_share has⟩

/-- **Who holds the refresh lock moves,** unless the source has not answered yet. -/
theorem step?_of_holds_refresh (h : Reaches s t) (start : s.Unused)
    (holds : t.refreshLock.holder = some id) :
    (t.step? id).isSome ∨ ∃ call quest due, t.calls.get? id = some call ∧
      call.stage = .fetching quest due ∧ t.clock < due := by
  obtain ⟨call, live, has⟩ := (h.booked start .refresh id).live_of_holder holds
  have holds' : (t.lock .refresh).holder = some id := holds
  by_cases ready : ∀ due, call.stage.due? = some due → due ≤ t.clock
  · exact .inl (h.isSome_step? start live (h.not_awaitedBy_of_lock start holds') ready)
  · push Not at ready
    obtain ⟨due, hd, early⟩ := ready
    obtain ⟨quest, at_⟩ := Stage.eq_fetching has hd
    exact .inr ⟨call, quest, due, live, at_, early⟩

end Reaches

/-! ### All together -/

/-- **Order of locks and absence of deadlock** in the state `t` that a run has come to through the
states of the list. -/
structure DeadlockFree (us : List State) (t : State) : Prop where
  /-- A call that holds the lock of a row waits for nothing, and its next step gives the lock
  back. -/
  row : ∀ {wallet id}, (t.rowLock wallet).holder = some id →
    (∀ r, ¬ t.AwaitedBy id r) ∧
      ∃ u, t.step? id = some u ∧ u.rowLock wallet = (t.rowLock wallet).withdraw id
  /-- A call that holds the refresh lock waits for no permit and no lock: it moves, unless the
  source has not answered it yet. -/
  refresh : ∀ {id}, t.refreshLock.holder = some id →
    (∀ r, ¬ t.AwaitedBy id r) ∧
      ((t.step? id).isSome ∨ ∃ call quest due, t.calls.get? id = some call ∧
        call.stage = .fetching quest due ∧ t.clock < due)
  /-- A call that waits for the source holds the refresh lock, and has nothing of any row lock. -/
  fetching : ∀ {id call quest due}, t.calls.get? id = some call →
    call.stage = .fetching quest due →
    t.refreshLock.holder = some id ∧ ∀ wallet, (t.rowLock wallet).Has id .nothing
  /-- A call that only reads holds no permit and does not wait for one, and none of its steps
  touches the gate. -/
  readOnly : ∀ {id call}, t.calls.get? id = some call → call.request.isReadOnly →
    ¬ t.HeldBy id .permit ∧ ¬ t.AwaitedBy id .permit ∧
      ∀ {u}, t.step? id = some u → u.gate = t.gate
  /-- Permits come before locks: what a call waits for comes after everything that it holds. -/
  ordered : ∀ {id r r'}, t.HeldBy id r → t.AwaitedBy id r' → r.rank < r'.rank
  /-- Nobody waits for himself, be it by way of any number of others. -/
  acyclic : ∀ id, ¬ Relation.TransGen t.WaitsFor id id
  /-- If the store does not linger, no call waits for the source and nobody outside holds a permit,
  then one of the calls in progress can take a step. -/
  progress : (∀ u ∈ us, u.conditions.delay = 0) →
    (∀ {id call quest due}, t.calls.get? id = some call → call.stage = .fetching quest due →
      due ≤ t.clock) →
    (∀ n, .outside n ∉ t.gate.holders) → (∃ id call, t.calls.get? id = some call) →
    ∃ id, (t.step? id).isSome
  /-- A call that only reads can come to its end while all permits that are held outside stay
  there. -/
  finishes : ∀ {id call}, t.calls.get? id = some call → call.request.isReadOnly →
    ∃ u outcome, Unaided t u ∧ .ended id outcome ∈ u.history ∧
      ∀ n, t.gate.held (.outside n) ≤ u.gate.held (.outside n)

/-- **The service is free of deadlock** at every moment of every run, if its gate has a permit to
give. -/
theorem Run.deadlockFree (h : Run s t us) (start : s.Unused) (permits : 0 < s.gate.capacity) :
    DeadlockFree us t where
  row {wallet id} holds := by
    have holds' : (t.lock (.row wallet)).holder = some id := holds
    have free := h.reaches.not_awaitedBy_of_lock start holds'
    exact ⟨free, h.reaches.step?_of_holds_row start holds⟩
  refresh {id} holds := by
    have holds' : (t.lock .refresh).holder = some id := holds
    have free := h.reaches.not_awaitedBy_of_lock start holds'
    exact ⟨free, h.reaches.step?_of_holds_refresh start holds⟩
  fetching {id call quest due} live at_ := by
    have reach := h.reaches
    refine ⟨reach.holder_of_lock start live (by rw [at_]; rfl), fun wallet => ?_⟩
    have row := (reach.booked start (.row wallet) id).has live
    rw [at_] at row
    exact row
  readOnly {id call} live reads := by
    obtain ⟨none_, nowhere⟩ := h.reaches.gate_of_isReadOnly start live reads
    refine ⟨fun holds => ?_, fun waits => ?_, fun {u} moves => ?_⟩
    · have some_ := State.held_pos holds
      omega
    · have place := State.queued_pos waits
      omega
    · obtain ⟨call', live', next, effect⟩ := State.step?_effect moves
      obtain rfl := Option.some.inj (live'.symm.trans live)
      exact effect.gate_of_isReadOnly (h.reaches.isOf start live) reads none_
  ordered := h.reaches.rank_lt start
  acyclic := h.reaches.not_waitsFor_self start
  progress prompt answered inside := by
    rintro ⟨id, call, live⟩
    exact h.reaches.progress start permits inside (h.due_le start prompt answered) live
  finishes live reads := by
    obtain ⟨u, outcome, way, ended⟩ := h.reaches.exists_end start live reads
    exact ⟨u, outcome, way, ended, fun n => (way.kept n).held_le⟩

/-- In the crowded service the exchange has the refresh lock and the quote waits for it, the deposit
waits for a permit, and there is no deadlock. -/
theorem deadlockFree_crowded :
    crowded.refreshLock = ⟨some 2, [5]⟩ ∧ crowded.gate.waiting.map Waiter.who = [.call 4] ∧
      ∃ us, Run vacant crowded us ∧ DeadlockFree us crowded := by
  refine ⟨by decide +kernel, by decide +kernel, ?_⟩
  obtain ⟨us, run⟩ := reaches_crowded.exists_run
  exact ⟨us, run, run.deadlockFree unused_vacant (by decide)⟩

end Service

end Purse
