import Purse.Proofs.Lock
import Purse.Proofs.Service.Permits
import Purse.Proofs.Table

/-!
# The locks of a call

There is one refresh lock, and a lock for each row. `Stage.refreshShare` and `Stage.rowShare` say for
each stage what the call has of them: a row lock is asked for and given back around one reading or
writing of the row, the refresh lock is kept from a miss in the cache to the last look into it. A
call that is gone has nothing of any lock (`Reaches.locked`). A call that gets what it waits for, be
it a lock or a permit, can go on at once (`Reaches.step?_of_gets`).

The argument is the same for all locks and is made once: `GoesBy` says what it takes for a lock and a
table of shares to agree, and `GoesBy.booked` that they agree then.
-/

namespace Purse.Service

variable {s t u : State} {id : CallId} {call : Call} {next : Option Stage} {stage : Stage}
  {wallet : Uuid}

/-! ### The locks and the small operations -/

namespace State

@[simp] theorem notice_refreshLock (s : State) (ns : List Notice) :
    (s.notice ns).refreshLock = s.refreshLock := by rw [notice_eq]

@[simp] theorem notice_rowLocks (s : State) (ns : List Notice) :
    (s.notice ns).rowLocks = s.rowLocks := by rw [notice_eq]

@[simp] theorem goto_refreshLock (s : State) (id : CallId) (stage : Stage) :
    (s.goto id stage).refreshLock = s.refreshLock := rfl

@[simp] theorem goto_rowLocks (s : State) (id : CallId) (stage : Stage) :
    (s.goto id stage).rowLocks = s.rowLocks := rfl

@[simp] theorem refreshCache_refreshLock (s : State) (by_ : Option CallId) (table : RateTable) :
    (s.refreshCache by_ table).refreshLock = s.refreshLock := notice_refreshLock ..

@[simp] theorem refreshCache_rowLocks (s : State) (by_ : Option CallId) (table : RateTable) :
    (s.refreshCache by_ table).rowLocks = s.rowLocks := notice_rowLocks ..

@[simp] theorem fail_refreshLock (s : State) (id : CallId) (change : Change) (e : WalletError) :
    (s.fail id change e).refreshLock = s.refreshLock := notice_refreshLock ..

@[simp] theorem fail_rowLocks (s : State) (id : CallId) (change : Change) (e : WalletError) :
    (s.fail id change e).rowLocks = s.rowLocks := notice_rowLocks ..

@[simp] theorem publish_refreshLock (s : State) (id : CallId) (answer : Answer)
    (event : WalletEvent) : (s.publish id answer event).refreshLock = s.refreshLock := by
  rw [publish_eq]
  exact notice_refreshLock ..

@[simp] theorem publish_rowLocks (s : State) (id : CallId) (answer : Answer) (event : WalletEvent) :
    (s.publish id answer event).rowLocks = s.rowLocks := by
  rw [publish_eq]
  exact notice_rowLocks ..

/-- The lock of a row goes by the table of locks. -/
theorem rowLock_congr (h : t.rowLocks = s.rowLocks) (wallet : Uuid) :
    t.rowLock wallet = s.rowLock wallet := by
  unfold rowLock
  rw [h]

/-- Only the lock of the one row is touched. -/
theorem withRowLock_rowLock (s : State) (wallet other : Uuid) (f : Lock CallId → Lock CallId) :
    (s.withRowLock wallet f).rowLock other =
      if wallet = other then f (s.rowLock other) else s.rowLock other := by
  unfold withRowLock rowLock
  rw [Table.get?_insert]
  split
  · next same => rw [same]; rfl
  · rfl

/-- Giving up a call that is in progress. -/
theorem drop_eq (live : s.calls.get? id = some call) :
    s.drop id =
      { s with
        refreshLock := s.refreshLock.withdraw id
        rowLocks := s.rowLocks.mapValues (·.withdraw id)
        gate := (s.gate.leave (.call id)).release (.call id)
        calls := s.calls.erase id
        history := .dropped id :: s.history } := by
  have h : s.calls.contains id := (Table.contains_iff ..).2 ⟨call, live⟩
  rw [drop, if_pos h]
  rfl

/-- A call that is given up gives up its share of every row lock. -/
theorem drop_rowLock (live : s.calls.get? id = some call) (wallet : Uuid) :
    (s.drop id).rowLock wallet = (s.rowLock wallet).withdraw id := by
  rw [drop_eq live]
  unfold rowLock
  dsimp only
  rw [Table.get?_mapValues]
  -- a lock that was never asked for is open, and stays so
  cases s.rowLocks.get? wallet with
  | none => exact (Lock.withdraw_open id).symm
  | some l => rfl

end State

/-! ### Shares by stage -/

/-- What a call at the stage has of the refresh lock. -/
def Stage.refreshShare : Stage → Share
  | .awaitingRefresh _ => .asked
  | .fetching .. | .refreshing .. | .serving _ => .lock
  | _ => .nothing

/-- What a call at the stage has of the lock of a row. -/
def Stage.rowShare (wallet : Uuid) : Stage → Share
  | .reading other _ | .writing other _ => if other = wallet then .asked else .nothing
  | _ => .nothing

theorem Quest.Finds.refreshShare {quest : Quest} {cache : RateCache} {now due : Nat}
    (h : quest.Finds cache now due stage) : stage.refreshShare = .nothing := by
  cases h <;> rfl

theorem Quest.Finds.rowShare {quest : Quest} {cache : RateCache} {now due : Nat}
    (h : quest.Finds cache now due stage) : stage.rowShare wallet = .nothing := by
  cases h <;> rfl

theorem State.refreshShare_afterRead {row : Wallet} {amount : Float} {order : Option Order} :
    (s.afterRead row amount order).refreshShare = .nothing := by
  unfold State.afterRead
  split
  · rfl
  · rfl
  · rfl
  · split <;> rfl

theorem State.rowShare_afterRead {row : Wallet} {amount : Float} {order : Option Order} :
    (s.afterRead row amount order).rowShare wallet = .nothing := by
  unfold State.afterRead
  split
  · rfl
  · rfl
  · rfl
  · split <;> rfl

/-- What a step of a call may do to a lock, in the name of that call. -/
inductive Touched (id : CallId) (l : Lock CallId) : Lock CallId → Prop
  | left : Touched id l l
  | asked : Touched id l (l.request id)
  | given : Touched id l (l.withdraw id)

/-- **A lock goes by a table of shares:** whatever happens, a call has the share of its stage. -/
structure GoesBy (lock : State → Lock CallId) (share : Stage → Share) : Prop where
  arrived : share .arrived = .nothing
  ending : ∀ outcome, share (.ending outcome) = .nothing
  touched : ∀ {s id call next t}, Effect s id call next t → Touched id (lock s) (lock t)
  moved : ∀ {s id call stage t}, Effect s id call (some stage) t →
    (lock s).Has id (share call.stage) → (lock t).Has id (share stage)
  finished : ∀ s id outcome, lock (s.finish id outcome) = lock s
  arrives : ∀ s id request drawn, lock (s.arrive id request drawn) = lock s
  dropped : ∀ {s id call}, s.calls.get? id = some call → lock (s.drop id) = (lock s).withdraw id
  around : ∀ {s m}, (∀ j request drawn, m ≠ .arrive j request drawn) → (∀ j, m ≠ .drop j) →
    lock (s.move m) = lock s

/-- The books of a call for one lock: it has the share of its stage, and nothing when it is gone. -/
structure Booked (lock : State → Lock CallId) (share : Stage → Share) (s : State) (id : CallId) :
    Prop where
  has : ∀ {call}, s.calls.get? id = some call → (lock s).Has id (share call.stage)
  nothing : s.calls.get? id = none → (lock s).Has id .nothing

namespace GoesBy

variable {lock : State → Lock CallId} {share : Stage → Share} (h : GoesBy lock share)
include h

/-- What happens elsewhere gives the call the lock for a place in the queue, or leaves its share as
it is. -/
theorem kept (apart : Elsewhere id s t) : (lock s).Kept id (lock t) := by
  cases apart with
  | moved ne effect =>
    have touched := h.touched effect
    generalize lock t = l at touched ⊢
    cases touched with
    | left => exact .refl ..
    | asked => exact Lock.kept_request ne
    | given => exact Lock.kept_withdraw ne
  | arrived ne eq => rw [eq, h.arrives]; exact .refl ..
  | dropped ne live eq => rw [eq, h.dropped live]; exact Lock.kept_withdraw ne
  | around arrives drops eq => rw [eq, h.around arrives drops]; exact .refl ..
  | idle eq => rw [eq]; exact .refl ..

theorem step (before : Booked lock share s id) (record : Recorded s id) (step : Step s t) :
    Booked lock share t id := by
  cases step.seen id with
  | @moved call next live moves effect =>
    have calls := effect.calls_self live
    cases next with
    | some stage =>
      refine ⟨fun hl => ?_, fun gone => nomatch calls.symm.trans gone⟩
      obtain rfl := Option.some.inj (calls.symm.trans hl)
      exact h.moved effect (before.has live)
    | none =>
      refine ⟨fun hl => (nomatch calls.symm.trans hl), fun _ => ?_⟩
      cases effect with
      | finished at_ =>
        have had := before.has live
        rw [at_, h.ending] at had
        rw [h.finished]
        exact had
  | arrived free eq =>
    subst eq
    -- the name is new, so nobody of that name has anything
    have gone : s.calls.get? id = none := by
      refine Option.eq_none_iff_forall_ne_some.2 fun call live => ?_
      exact free _ (record.arrived_of_live live)
    have nothing := before.nothing gone
    rw [← h.arrives] at nothing
    refine ⟨fun hl => ?_, fun _ => nothing⟩
    rw [State.arrive_calls, if_pos rfl] at hl
    obtain rfl := Option.some.inj hl
    rw [h.arrived]
    exact nothing
  | dropped live eq =>
    subst eq
    refine ⟨fun hl => by simp at hl, fun _ => ?_⟩
    rw [h.dropped live]
    exact Lock.has_withdraw (before.has live)
  | elsewhere apart =>
    have kept := h.kept apart
    exact ⟨fun hl => kept.has (before.has (apart.calls ▸ hl)),
      fun gone => kept.has (before.nothing (apart.calls ▸ gone))⟩

/-- The books are right at every moment of a run. -/
theorem booked (reach : Reaches s t) (start : s.Unused) (idle : lock s = .open_) (id : CallId) :
    Booked lock share t id := by
  refine reach.invariant (P := fun u => Booked lock share u id) ⟨fun live => ?_, fun _ => ?_⟩
    fun _ _ before sofar step => h.step sofar (before.recorded start id) step
  · rw [start.calls] at live
    cases live
  · rw [idle]
    exact Lock.has_nothing_open id

omit h in
/-- Nobody waits for a lock that nobody holds, at every moment of a run. -/
theorem sound (h : GoesBy lock share) (reach : Reaches s t) (idle : lock s = .open_) :
    (lock t).Sound := by
  refine reach.invariant (P := fun u => (lock u).Sound) (by rw [idle]; exact Lock.sound_open)
    fun u v _ sound step => ?_
  cases step with
  | call id moves =>
    obtain ⟨call, -, next, effect⟩ := State.step?_effect moves
    have touched := h.touched effect
    generalize lock v = l at touched ⊢
    cases touched with
    | left => exact sound
    | asked => exact Lock.sound_request _ _
    | given => exact sound.withdraw id
  | arrive id request drawn =>
    rw [State.move, h.arrives]
    exact sound
  | outside m other =>
    by_cases drops : ∃ j, m = .drop j
    · obtain ⟨j, rfl⟩ := drops
      cases live : u.calls.get? j with
      | none => rwa [State.move, State.drop_eq_of_gone live]
      | some call =>
        rw [State.move, h.dropped live]
        exact sound.withdraw j
    · rw [h.around other fun j hm => drops ⟨j, hm⟩]
      exact sound

end GoesBy

namespace Booked

variable {lock : State → Lock CallId} {share : Stage → Share}

/-- Who holds the lock is in progress, at a stage that has a share in it. -/
theorem live_of_holder (h : Booked lock share s id) (holds : (lock s).holder = some id) :
    ∃ call, s.calls.get? id = some call ∧ share call.stage ≠ .nothing := by
  have one := Lock.held_eq_one_iff.2 holds
  cases live : s.calls.get? id with
  | none =>
    obtain ⟨none_, -⟩ := h.nothing live
    omega
  | some call =>
    refine ⟨call, rfl, fun nothing => ?_⟩
    have has := h.has live
    rw [nothing] at has
    obtain ⟨none_, -⟩ := has
    omega

/-- Who waits for the lock is in progress, at a stage that has asked for it. -/
theorem asked_of_waiting (h : Booked lock share s id) (waits : id ∈ (lock s).waiting) :
    ∃ call, s.calls.get? id = some call ∧ share call.stage = .asked := by
  have nowhere : (lock s).queued id ≠ 0 := fun zero => Lock.queued_eq_zero_iff.1 zero waits
  cases live : s.calls.get? id with
  | none => exact absurd (h.nothing live).2 nowhere
  | some call =>
    refine ⟨call, rfl, ?_⟩
    have has := h.has live
    cases hs : share call.stage with
    | asked => rfl
    | nothing | lock =>
      rw [hs] at has
      exact absurd has.2 nowhere

end Booked

/-! ### The refresh lock -/

theorem Effect.refreshLock_touched (h : Effect s id call next t) :
    Touched id s.refreshLock t.refreshLock := by
  cases h with
  | missed => exact .asked
  | foundLate | unanswered | served | unserved => exact .given
  | refreshed => rw [State.goto_refreshLock, State.refreshCache_refreshLock]; exact .left
  | broken | untaken | rejected => rw [State.fail_refreshLock]; exact .left
  | published => rw [State.publish_refreshLock]; exact .left
  | _ => exact .left

/-- A step leaves the call with the share of the refresh lock that the next stage says. -/
theorem Effect.refreshShare (h : Effect s id call (some stage) t)
    (before : s.refreshLock.Has id call.stage.refreshShare) :
    t.refreshLock.Has id stage.refreshShare := by
  cases h with
  | missed at_ =>
    rw [at_] at before
    exact Lock.has_request before
  | asked at_ turn =>
    rw [at_] at before
    exact Lock.Has.lock_of_holder before turn
  | foundLate at_ turn finds | served at_ finds =>
    rw [finds.refreshShare]
    exact Lock.has_withdraw before
  | unanswered | unserved => exact Lock.has_withdraw before
  | answered at_ =>
    rw [at_] at before
    exact before
  | refreshed at_ =>
    rw [at_] at before
    rw [State.goto_refreshLock, State.refreshCache_refreshLock]
    exact before
  | found at_ finds =>
    rw [at_] at before
    rw [finds.refreshShare]
    exact before
  | read at_ =>
    rw [at_] at before
    rw [State.refreshShare_afterRead]
    exact before
  | broken at_ | untaken at_ | rejected at_ =>
    rw [at_] at before
    rw [State.fail_refreshLock]
    exact before
  | published at_ =>
    rw [at_] at before
    rw [State.publish_refreshLock]
    exact before
  | created at_ | uncreated at_ | viewed at_ | sought at_ | invalid at_ | queued at_ | admitted at_
  | timedOut at_ | located at_ | unlocated at_ | vanished at_ | taken at_ | committed at_
  | silent at_ | announced at_ =>
    rw [at_] at before
    exact before

theorem refreshLock_goesBy : GoesBy State.refreshLock Stage.refreshShare where
  arrived := rfl
  ending _ := rfl
  touched := Effect.refreshLock_touched
  moved := Effect.refreshShare
  finished _ _ _ := rfl
  arrives _ _ _ _ := rfl
  dropped live := by rw [State.drop_eq live]
  around {s m} arrives drops := by
    cases m with
    | arrive j request drawn => exact absurd rfl (arrives j request drawn)
    | drop j => exact absurd rfl (drops j)
    | refreshCache table => exact State.refreshCache_refreshLock ..
    | _ => rfl

/-! ### The lock of a row -/

/-- **What a step of a call does to the row locks:** nothing, or it asks for one of them or gives
one back that it holds. -/
inductive RowTouched (s : State) (id : CallId) : Table Uuid (Lock CallId) → Prop
  | left : RowTouched s id s.rowLocks
  | asked (wallet : Uuid) :
      RowTouched s id (s.rowLocks.insert wallet ((s.rowLock wallet).request id))
  | given {wallet : Uuid} (turn : (s.rowLock wallet).holder = some id) :
      RowTouched s id (s.rowLocks.insert wallet ((s.rowLock wallet).withdraw id))

theorem Effect.rowLocks_touched (h : Effect s id call next t) : RowTouched s id t.rowLocks := by
  cases h with
  | located | taken => exact .asked _
  | read at_ turn | vanished at_ turn | committed at_ turn => exact .given turn
  | rejected at_ turn =>
    rw [State.fail_rowLocks]
    exact .given turn
  | refreshed => rw [State.goto_rowLocks, State.refreshCache_rowLocks]; exact .left
  | broken | untaken => rw [State.fail_rowLocks]; exact .left
  | published => rw [State.publish_rowLocks]; exact .left
  | _ => exact .left

theorem Effect.rowLock_touched (h : Effect s id call next t) :
    Touched id (s.rowLock wallet) (t.rowLock wallet) := by
  have touched := h.rowLocks_touched
  change Touched id _ ((t.rowLocks.get? wallet).getD .open_)
  generalize t.rowLocks = locks at touched ⊢
  cases touched with
  | left => exact .left
  | asked other =>
    rw [Table.get?_insert]
    split
    · next same => exact same ▸ .asked
    · exact .left
  | given turn =>
    rw [Table.get?_insert]
    split
    · next same => exact same ▸ .given
    · exact .left

/-- A call that has nothing asks for the lock of one row. -/
theorem State.rowLock_has_request {other : Uuid} (before : (s.rowLock other).Has id .nothing) :
    ((s.withRowLock wallet (·.request id)).rowLock other).Has id
      (if wallet = other then .asked else .nothing) := by
  rw [withRowLock_rowLock]
  split
  · exact Lock.has_request before
  · exact before

/-- A call that asked for the lock of one row gives it up. -/
theorem State.rowLock_has_withdraw {other : Uuid}
    (before : (s.rowLock other).Has id (if wallet = other then .asked else .nothing)) :
    ((s.withRowLock wallet (·.withdraw id)).rowLock other).Has id .nothing := by
  rw [withRowLock_rowLock]
  split
  · next same =>
    rw [if_pos same] at before
    exact Lock.has_withdraw before
  · next other =>
    rw [if_neg other] at before
    exact before

/-- A step leaves the call with the share of each row lock that the next stage says. -/
theorem Effect.rowShare (h : Effect s id call (some stage) t)
    (before : (s.rowLock wallet).Has id (call.stage.rowShare wallet)) :
    (t.rowLock wallet).Has id (stage.rowShare wallet) := by
  cases h with
  | located at_ | taken at_ =>
    rw [at_] at before
    exact State.rowLock_has_request before
  | read at_ =>
    rw [at_] at before
    rw [State.rowShare_afterRead]
    exact State.rowLock_has_withdraw before
  | vanished at_ | committed at_ =>
    rw [at_] at before
    exact State.rowLock_has_withdraw before
  | rejected at_ =>
    rw [at_] at before
    rw [State.rowLock_congr (State.fail_rowLocks ..)]
    exact State.rowLock_has_withdraw before
  | found at_ finds | foundLate at_ _ finds | served at_ finds =>
    rw [at_] at before
    rw [finds.rowShare]
    exact before
  | refreshed at_ =>
    rw [at_] at before
    rw [State.rowLock_congr ((State.goto_rowLocks ..).trans (State.refreshCache_rowLocks ..))]
    exact before
  | broken at_ | untaken at_ =>
    rw [at_] at before
    rw [State.rowLock_congr (State.fail_rowLocks ..)]
    exact before
  | published at_ =>
    rw [at_] at before
    rw [State.rowLock_congr (State.publish_rowLocks ..)]
    exact before
  | created at_ | uncreated at_ | viewed at_ | sought at_ | invalid at_ | queued at_ | admitted at_
  | timedOut at_ | unlocated at_ | missed at_ | asked at_ | answered at_ | unanswered at_
  | unserved at_ | silent at_ | announced at_ =>
    rw [at_] at before
    exact before

theorem rowLock_goesBy (wallet : Uuid) : GoesBy (·.rowLock wallet) (Stage.rowShare wallet) where
  arrived := rfl
  ending _ := rfl
  touched := Effect.rowLock_touched
  moved := Effect.rowShare
  finished _ _ _ := rfl
  arrives _ _ _ _ := rfl
  dropped live := State.drop_rowLock live wallet
  around {s m} arrives drops := by
    cases m with
    | arrive j request drawn => exact absurd rfl (arrives j request drawn)
    | drop j => exact absurd rfl (drops j)
    | refreshCache table => exact State.rowLock_congr (State.refreshCache_rowLocks ..) wallet
    | _ => rfl

/-! ### All locks -/

/-- What a call has of the locks. -/
structure Locked (s : State) (id : CallId) : Prop where
  refresh : Booked State.refreshLock Stage.refreshShare s id
  row : ∀ wallet, Booked (·.rowLock wallet) (Stage.rowShare wallet) s id

/-- **The locks are with the calls whose stages say so** at every moment of a run. -/
theorem Reaches.locked (h : Reaches s t) (start : s.Unused) (id : CallId) : Locked t id where
  refresh := refreshLock_goesBy.booked h start start.refreshLock id
  row wallet := (rowLock_goesBy wallet).booked h start (start.rowLocks wallet) id

/-! ### Who gets what it waits for can go on -/

namespace State

/-- A call that asked for the refresh lock goes on when it has it. -/
theorem step?_of_refreshLock {quest : Quest} (live : s.calls.get? id = some call)
    (at_ : call.stage = .awaitingRefresh quest) (turn : s.refreshLock.holder = some id) :
    (s.step? id).isSome := by
  cases h : quest.found? s.cache s.clock s.storeDue with
  | some stage =>
    rw [(Effect.foundLate at_ turn (Quest.finds_of_found? h)).step?_eq live]
    rfl
  | none =>
    rw [(Effect.asked at_ turn h).step?_eq live]
    rfl

/-- So does a call that asked for the lock of a row. -/
theorem step?_of_rowLock (live : s.calls.get? id = some call)
    (at_ : call.stage.rowShare wallet = .asked) (turn : (s.rowLock wallet).holder = some id) :
    (s.step? id).isSome := by
  unfold Stage.rowShare at at_
  split at at_
  · next other order stage =>
    split at at_
    · next same =>
      subst same
      cases h : s.store.rows.get? other with
      | some row =>
        rw [(Effect.read stage turn h).step?_eq live]
        rfl
      | none =>
        rw [(Effect.vanished stage turn h).step?_eq live]
        rfl
    · cases at_
  · next other change stage =>
    split at at_
    · next same =>
      subst same
      cases h : s.store.mutate s.now other change.mutation with
      | ok done =>
        rw [(Effect.committed stage turn h).step?_eq live]
        rfl
      | error e =>
        rw [(Effect.rejected stage turn h).step?_eq live]
        rfl
    · cases at_
  · cases at_

/-- And so does a call that waits at the gate when it has a permit. -/
theorem step?_of_permit {order : Order} (live : s.calls.get? id = some call)
    (at_ : call.stage = .queued order) (held : 0 < s.gate.held (.call id)) :
    (s.step? id).isSome := by
  rw [(Effect.admitted at_ (Gate.holds_iff.2 held)).step?_eq live]
  rfl

end State

theorem Stage.eq_awaitingRefresh (h : stage.refreshShare = .asked) :
    ∃ quest, stage = .awaitingRefresh quest := by
  unfold Stage.refreshShare at h
  split at h
  · exact ⟨_, rfl⟩
  all_goals cases h

/-- Only a queued call has a place at the gate. -/
theorem Stage.Holds.eq_queued {held queued : Nat} (h : stage.Holds held queued)
    (waits : 0 < queued) : ∃ order, stage = .queued order := by
  unfold Stage.Holds at h
  split at h
  · exact ⟨_, rfl⟩
  · omega
  · omega

/-- On the way from `s` to `t` the call has got a permit, the refresh lock or the lock of a row. -/
inductive Gets (id : CallId) (s t : State) : Prop
  | permit (before : s.gate.held (.call id) = 0) (after : 0 < t.gate.held (.call id))
  | refreshLock (before : s.refreshLock.holder ≠ some id) (after : t.refreshLock.holder = some id)
  | rowLock {wallet : Uuid} (before : (s.rowLock wallet).holder ≠ some id)
      (after : (t.rowLock wallet).holder = some id)

/-- Who gets a lock through others has waited for it. -/
theorem Booked.asked_of_gets {lock : State → Lock CallId} {share : Stage → Share}
    (booked : Booked lock share s id) (kept : (lock s).Kept id (lock t))
    (before : (lock s).holder ≠ some id) (after : (lock t).holder = some id) :
    ∃ call, s.calls.get? id = some call ∧ share call.stage = .asked := by
  have none_ := Lock.held_eq_zero_iff.2 before
  have one := Lock.held_eq_one_iff.2 after
  have total := kept.total
  cases live : s.calls.get? id with
  | none =>
    obtain ⟨-, nowhere⟩ := booked.nothing live
    omega
  | some call =>
    refine ⟨call, rfl, ?_⟩
    have has := booked.has live
    cases hs : share call.stage with
    | asked => rfl
    | nothing =>
      rw [hs] at has
      obtain ⟨-, nowhere⟩ := has
      omega
    | lock =>
      rw [hs] at has
      obtain ⟨one', -⟩ := has
      omega

/-- **Whoever gets a permit or a lock through others can go on at once.** -/
theorem Reaches.step?_of_gets (h : Reaches s t) (start : s.Unused) (apart : Elsewhere id t u)
    (gets : Gets id t u) : (u.step? id).isSome := by
  have locked := h.locked start id
  cases gets with
  | permit before after =>
    have total := apart.gate.total
    cases live : t.calls.get? id with
    | none =>
      obtain ⟨-, nowhere⟩ := (h.permitted start id).nothing live
      omega
    | some call =>
      obtain ⟨order, at_⟩ := ((h.permitted start id).holds live).eq_queued (by omega)
      exact State.step?_of_permit (apart.calls ▸ live) at_ after
  | refreshLock before after =>
    obtain ⟨call, live, asked⟩ :=
      locked.refresh.asked_of_gets (refreshLock_goesBy.kept apart) before after
    obtain ⟨quest, at_⟩ := Stage.eq_awaitingRefresh asked
    exact State.step?_of_refreshLock (apart.calls ▸ live) at_ after
  | @rowLock wallet before after =>
    obtain ⟨call, live, asked⟩ :=
      (locked.row wallet).asked_of_gets ((rowLock_goesBy wallet).kept apart) before after
    exact State.step?_of_rowLock (apart.calls ▸ live) asked after

end Purse.Service
