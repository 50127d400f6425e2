import Mathlib.Logic.Relation
import Purse.Proofs.Service.Admission
import Purse.Proofs.Service.Locks

/-!
# Who waits for whom

Calls wait for permits and for locks, and whoever waits does so for as long as somebody else holds
what it waits for. There is an order on what is waited for: a call that holds a lock waits for
nothing, and a call that holds a permit waits for locks only (`Reaches.rank_lt`). So nobody waits
for himself, not even by way of others (`Reaches.not_waitsFor_self`), and from any call that waits a
way leads to one that does not. A call that waits for nobody moves as soon as its time has come
(`Reaches.isSome_step?`), and therefore something moves as long as anything is in progress
(`Reaches.progress`).

The refresh lock and the locks of the rows are treated alike, under their names (`LockName`).
-/

namespace Purse.Service

variable {s t u : State} {us : List State} {id j : CallId} {call : Call} {next : Option Stage}
  {stage : Stage}

/-! ### The locks by name -/

/-- The locks of the service. -/
inductive LockName where
  | refresh
  | row (wallet : Uuid)
deriving DecidableEq

/-- What a call at the stage has of the lock. -/
def LockName.share : LockName → Stage → Share
  | refresh => Stage.refreshShare
  | row wallet => Stage.rowShare wallet

def State.lock (s : State) : LockName → Lock CallId
  | .refresh => s.refreshLock
  | .row wallet => s.rowLock wallet

variable {name name' : LockName}

theorem LockName.goesBy (name : LockName) : GoesBy (·.lock name) name.share := by
  cases name with
  | refresh => exact refreshLock_goesBy
  | row wallet => exact rowLock_goesBy wallet

/-- The lock that a stage has to do with, if any. -/
def Stage.lock? : Stage → Option LockName
  | .reading wallet _ | .writing wallet _ => some (.row wallet)
  | .awaitingRefresh _ | .fetching .. | .refreshing .. | .serving _ => some .refresh
  | _ => none

theorem Stage.lock?_of_share (has : name.share stage ≠ .nothing) : stage.lock? = some name := by
  cases name with
  | refresh =>
    cases stage with
    | awaitingRefresh | fetching | refreshing | serving => rfl
    | _ => exact absurd rfl has
  | row wallet =>
    cases stage with
    | reading other order | writing other change =>
      have same : other = wallet := by
        by_contra ne
        exact has (if_neg ne)
      rw [same]
      rfl
    | _ => exact absurd rfl has

/-- No stage has a share in two locks. -/
theorem LockName.eq_of_share (one : name.share stage ≠ .nothing)
    (other : name'.share stage ≠ .nothing) : name = name' :=
  Option.some.inj ((Stage.lock?_of_share one).symm.trans (Stage.lock?_of_share other))

theorem State.Unused.lock (h : s.Unused) (name : LockName) : s.lock name = .open_ := by
  cases name with
  | refresh => exact h.refreshLock
  | row wallet => exact h.rowLocks wallet

/-- Every call has the share of each lock that its stage says. -/
theorem Reaches.booked (h : Reaches s t) (start : s.Unused) (name : LockName) (id : CallId) :
    Booked (·.lock name) name.share t id :=
  name.goesBy.booked h start (start.lock name) id

/-- Who is between its asking the source and its last look holds the refresh lock. -/
theorem Reaches.holder_of_lock (h : Reaches s t) (start : s.Unused)
    (live : t.calls.get? id = some call) (has : call.stage.refreshShare = .lock) :
    t.refreshLock.holder = some id := by
  have share := (h.booked start .refresh id).has live
  change t.refreshLock.Has id call.stage.refreshShare at share
  rw [has] at share
  exact Lock.held_eq_one_iff.1 share.1

/-- Nobody waits for a lock that is free. -/
theorem Reaches.lock_sound (h : Reaches s t) (start : s.Unused) (name : LockName) :
    (t.lock name).Sound :=
  name.goesBy.sound h (start.lock name)

/-! ### What is waited for -/

/-- What a call may have to wait for until somebody gives it back. -/
inductive Resource where
  | permit
  | lock (name : LockName)

/-- The place of a resource in the order in which calls take them. -/
def Resource.rank : Resource → Nat
  | permit => 0
  | lock _ => 1

variable {r r' : Resource}

theorem Resource.rank_le : r.rank ≤ 1 := by
  cases r <;> simp [rank]

/-- The call holds the resource. -/
def State.HeldBy (s : State) (id : CallId) : Resource → Prop
  | .permit => .call id ∈ s.gate.holders
  | .lock name => (s.lock name).holder = some id

/-- The call waits for the resource. -/
def State.AwaitedBy (s : State) (id : CallId) : Resource → Prop
  | .permit => .call id ∈ s.gate.waiting.map Waiter.who
  | .lock name => id ∈ (s.lock name).waiting

/-- The call waits for something that the other one holds. -/
def State.WaitsFor (s : State) (id j : CallId) : Prop := ∃ r, s.AwaitedBy id r ∧ s.HeldBy j r

theorem State.queued_pos (waits : s.AwaitedBy id .permit) : 0 < s.gate.queued (.call id) := by
  obtain ⟨w, hw, who⟩ := List.mem_map.1 waits
  exact List.countP_pos_iff.2 ⟨w, hw, by simpa using who⟩

theorem State.held_pos (holds : s.HeldBy id .permit) : 0 < s.gate.held (.call id) :=
  List.count_pos_iff.2 holds

namespace Reaches

/-- Who holds something is in progress. -/
theorem live_of_heldBy (h : Reaches s t) (start : s.Unused) (holds : t.HeldBy id r) :
    ∃ call, t.calls.get? id = some call := by
  cases r with
  | lock name =>
    obtain ⟨call, live, -⟩ := (h.booked start name id).live_of_holder holds
    exact ⟨call, live⟩
  | permit =>
    refine Option.isSome_iff_exists.1 (Option.isSome_iff_ne_none.2 fun gone => ?_)
    have none_ := ((h.permitted start id).nothing gone).1
    have some_ := State.held_pos holds
    omega

/-- Only a call that stands at the gate waits for a permit. -/
theorem eq_queued (h : Reaches s t) (start : s.Unused) (waits : t.AwaitedBy id .permit) :
    ∃ call order, t.calls.get? id = some call ∧ call.stage = .queued order := by
  have place := State.queued_pos waits
  cases live : t.calls.get? id with
  | none =>
    have nowhere := ((h.permitted start id).nothing live).2
    omega
  | some call =>
    obtain ⟨order, at_⟩ := ((h.permitted start id).holds live).eq_queued place
    exact ⟨call, order, rfl, at_⟩

/-- **The order of permits and locks:** what a call waits for comes after everything that it
holds. -/
theorem rank_lt (h : Reaches s t) (start : s.Unused) (holds : t.HeldBy id r)
    (waits : t.AwaitedBy id r') : r.rank < r'.rank := by
  cases r' with
  | permit =>
    -- a call at the gate has one share there, and none in any lock
    obtain ⟨call, order, live, at_⟩ := h.eq_queued start waits
    cases r with
    | permit =>
      have le := ((h.permitted start id).holds live).total_le
      have some_ := State.held_pos holds
      have place := State.queued_pos waits
      omega
    | lock name =>
      obtain ⟨call', live', has⟩ := (h.booked start name id).live_of_holder holds
      obtain rfl := Option.some.inj (live'.symm.trans live)
      rw [at_] at has
      exact absurd (by cases name <;> rfl) has
  | lock name' =>
    cases r with
    | permit => exact Nat.zero_lt_one
    | lock name =>
      obtain ⟨call, live, has⟩ := (h.booked start name id).live_of_holder holds
      obtain ⟨call', live', asked⟩ := (h.booked start name' id).asked_of_waiting waits
      obtain rfl := Option.some.inj (live'.symm.trans live)
      -- the two locks are the same, and nobody waits for the lock that he holds
      obtain rfl := LockName.eq_of_share has (by rw [asked]; nofun)
      have le := ((h.booked start name id).has live).total_le
      have one : (t.lock name).held id = 1 := Lock.held_eq_one_iff.2 holds
      have place : (t.lock name).queued id ≠ 0 := fun zero => Lock.queued_eq_zero_iff.1 zero waits
      omega

/-- **Who holds a lock waits for nothing** that anybody holds. -/
theorem not_awaitedBy_of_lock (h : Reaches s t) (start : s.Unused)
    (holds : (t.lock name).holder = some id) (r : Resource) : ¬ t.AwaitedBy id r := by
  intro waits
  have lt := h.rank_lt start (r := .lock name) holds waits
  exact absurd r.rank_le (Nat.not_le.2 lt)

/-- **Nobody waits for himself,** be it by way of any number of others. -/
theorem not_waitsFor_self (h : Reaches s t) (start : s.Unused) (id : CallId) :
    ¬ Relation.TransGen t.WaitsFor id id := by
  -- along the way the rank of what is waited for does not decrease
  have along {j : CallId} (way : Relation.TransGen t.WaitsFor id j) :
      ∃ r r', t.AwaitedBy id r ∧ t.HeldBy j r' ∧ r.rank ≤ r'.rank := by
    induction way with
    | single last =>
      obtain ⟨r, waits, holds⟩ := last
      exact ⟨r, r, waits, holds, Nat.le_refl _⟩
    | tail _ last ih =>
      obtain ⟨r, r', waits, holds, le⟩ := ih
      obtain ⟨r'', waits', holds'⟩ := last
      have lt := h.rank_lt start holds waits'
      exact ⟨r, r'', waits, holds', Nat.le_trans le (Nat.le_of_lt lt)⟩
  intro cycle
  obtain ⟨r, r', waits, holds, le⟩ := along cycle
  exact absurd le (Nat.not_le.2 (h.rank_lt start holds waits))

end Reaches

/-! ### Who waits for nobody moves -/

/-- A call that looks for a wallet knows whose it is. -/
theorem Stage.IsOf.exists_user {r : Request} {order : Option Order}
    (h : (Stage.locating order).IsOf r) : ∃ user, r.user? = some user := by
  cases order with
  | none =>
    obtain ⟨user, rfl⟩ := h
    exact ⟨user, rfl⟩
  | some order =>
    have parsed : r.order? = some (.ok order) := h
    cases r with
    | deposit user | withdraw user | exchange user => exact ⟨user, rfl⟩
    | create | view | quote | listing => cases parsed

theorem State.isSome_fetch? {quest : Quest} {due : Nat} (ready : due ≤ s.clock) :
    (s.fetch? id quest due).isSome := by
  rw [fetch?, if_pos ready]
  split <;> rfl

theorem State.isSome_take? {wallet : Uuid} {change : Change} {due : Nat} (ready : due ≤ s.clock) :
    (s.take? id wallet change due).isSome := by
  rw [take?, if_pos ready]
  split
  · rfl
  · split <;> rfl

/-- Who asked for a lock and does not wait for it has it. -/
theorem Booked.holder_of_not_waiting {lock : State → Lock CallId} {share : Stage → Share}
    (h : Booked lock share s id) (live : s.calls.get? id = some call)
    (asked : share call.stage = .asked) (free : id ∉ (lock s).waiting) :
    (lock s).holder = some id := by
  have has := h.has live
  rw [asked] at has
  have total : (lock s).held id + (lock s).queued id = 1 := has
  have nowhere := Lock.queued_eq_zero_iff.2 free
  exact Lock.held_eq_one_iff.1 (by omega)

/-- **A call that waits for nobody moves** as soon as its time has come. -/
theorem Reaches.isSome_step? (h : Reaches s t) (start : s.Unused)
    (live : t.calls.get? id = some call) (free : ∀ r, ¬ t.AwaitedBy id r)
    (ready : ∀ due, call.stage.due? = some due → due ≤ t.clock) : (t.step? id).isSome := by
  have row (wallet : Uuid) (asked : call.stage.rowShare wallet = .asked) : (t.step? id).isSome := by
    have turn := (h.booked start (.row wallet) id).holder_of_not_waiting live asked
      (free (.lock (.row wallet)))
    exact State.step?_of_rowLock live asked turn
  cases at_ : call.stage with
  | queued order =>
    -- with one share at the gate and no place in the queue it has a permit
    have holds := (h.permitted start id).holds live
    rw [at_] at holds
    have one : t.gate.held (.call id) + t.gate.queued (.call id) = 1 := holds
    have nowhere : t.gate.queued (.call id) = 0 := by
      refine List.countP_eq_zero.2 fun w hw who => free .permit ?_
      exact List.mem_map.2 ⟨w, hw, of_decide_eq_true who⟩
    exact State.step?_of_permit live at_ (by omega)
  | locating order =>
    have is := h.isOf start live
    rw [at_] at is
    obtain ⟨user, for_⟩ := is.exists_user
    simp [State.step?, live, at_, for_]
  | reading wallet order => exact row wallet (by rw [at_]; exact if_pos rfl)
  | writing wallet change => exact row wallet (by rw [at_]; exact if_pos rfl)
  | awaitingRefresh quest =>
    have turn := (h.booked start .refresh id).holder_of_not_waiting live (by rw [at_]; rfl)
      (free (.lock .refresh))
    exact State.step?_of_refreshLock live at_ turn
  | fetching quest due =>
    simpa [State.step?, live, at_] using State.isSome_fetch? (ready due (by rw [at_]; rfl))
  | storing wallet change due =>
    simpa [State.step?, live, at_] using State.isSome_take? (ready due (by rw [at_]; rfl))
  | arrived | consulting | refreshing | serving | committed | publishing | ending =>
    simp [State.step?, live, at_]

/-! ### Something moves -/

/-- What somebody waits for, somebody holds; a permit may be held from outside. -/
theorem Reaches.exists_heldBy (h : Reaches s t) (start : s.Unused) (permits : 0 < s.gate.capacity)
    (inside : ∀ n, .outside n ∉ t.gate.holders) (waits : t.AwaitedBy id r) :
    ∃ j, t.HeldBy j r := by
  cases r with
  | lock name => exact (h.lock_sound start name).holder waits
  | permit =>
    -- a queue forms only when all permits are held, and there are some
    have queue : t.gate.waiting ≠ [] := by
      rintro empty
      obtain ⟨w, hw, -⟩ := List.mem_map.1 waits
      rw [empty] at hw
      cases hw
    have full := (h.gate_sound start).full_of_waiting queue
    have pos : 0 < t.gate.holders.length := by rwa [full, h.capacity_eq]
    obtain ⟨party, holds⟩ := List.exists_mem_of_length_pos pos
    cases party with
    | call j => exact ⟨j, holds⟩
    | outside n => exact absurd holds (inside n)

/-- **Somebody waits for nobody:** if nobody outside holds a permit, a way leads from any call that
waits to one that does not. -/
theorem Reaches.exists_free (h : Reaches s t) (start : s.Unused) (permits : 0 < s.gate.capacity)
    (inside : ∀ n, .outside n ∉ t.gate.holders) (live : t.calls.get? id = some call) :
    ∃ j call, t.calls.get? j = some call ∧ ∀ r, ¬ t.AwaitedBy j r := by
  -- from a call that waits go to one that holds what it waits for: the rank of what is waited for
  -- grows on the way, so the way ends at a call that waits for nobody
  have from_ (n : Nat) : ∀ {id call}, t.calls.get? id = some call →
      (∀ r, t.AwaitedBy id r → 2 - r.rank ≤ n) →
      ∃ j call, t.calls.get? j = some call ∧ ∀ r, ¬ t.AwaitedBy j r := by
    induction n with
    | zero =>
      intro id call live bound
      refine ⟨id, call, live, fun r waits => ?_⟩
      have le := bound r waits
      have small := r.rank_le
      omega
    | succ n ih =>
      intro id call live bound
      by_cases free : ∀ r, ¬ t.AwaitedBy id r
      · exact ⟨id, call, live, free⟩
      · push Not at free
        obtain ⟨r, waits⟩ := free
        obtain ⟨j, holds⟩ := h.exists_heldBy start permits inside waits
        obtain ⟨call', live'⟩ := h.live_of_heldBy start holds
        refine ih live' fun r' waits' => ?_
        have lt := h.rank_lt start holds waits'
        have le := bound r waits
        omega
  exact from_ 2 live fun r _ => Nat.sub_le 2 r.rank

/-- **Something moves:** if nobody outside holds a permit and no call waits for a time, one of the
calls in progress can take a step. -/
theorem Reaches.progress (h : Reaches s t) (start : s.Unused) (permits : 0 < s.gate.capacity)
    (inside : ∀ n, .outside n ∉ t.gate.holders)
    (ready : ∀ {id call due}, t.calls.get? id = some call → call.stage.due? = some due →
      due ≤ t.clock)
    (live : t.calls.get? id = some call) : ∃ j, (t.step? j).isSome := by
  obtain ⟨j, call', live', free⟩ := h.exists_free start permits inside live
  exact ⟨j, h.isSome_step? start live' free fun due => ready live'⟩

end Purse.Service
