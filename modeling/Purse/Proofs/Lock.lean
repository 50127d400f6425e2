import Purse.Lock

/-!
# The share of one party in a lock

What a lock means to one party is whether it holds the lock, and how many places in the queue it
has. The operations of other parties can turn a place into the lock and nothing else (`Lock.Kept`).
What a party has of a lock is one of three things (`Share`): nothing, what it gets by asking, or the
lock itself; giving up leaves it nothing, and does nothing if it had nothing.
-/

namespace Purse

/-- What a party may have of a lock. -/
inductive Share where
  | nothing
  /-- A place in the queue, or already the lock. -/
  | asked
  | lock
deriving DecidableEq

namespace Lock

variable {α : Type} [DecidableEq α] {l k m : Lock α} {a b : α} {share : Share}

/-- Whether the party holds the lock, as a number. -/
def held (l : Lock α) (a : α) : Nat := if l.holder = some a then 1 else 0

/-- The places in the queue that the party has. -/
def queued (l : Lock α) (a : α) : Nat := l.waiting.count a

/-- The party has its share of the lock, and no more. -/
def Has (l : Lock α) (a : α) : Share → Prop
  | .nothing => l.held a = 0 ∧ l.queued a = 0
  | .asked => l.held a + l.queued a = 1
  | .lock => l.held a = 1 ∧ l.queued a = 0

theorem held_eq_one_iff : l.held a = 1 ↔ l.holder = some a := by
  unfold held
  split <;> simp_all

theorem held_eq_zero_iff : l.held a = 0 ↔ l.holder ≠ some a := by
  unfold held
  split <;> simp_all

theorem queued_eq_zero_iff : l.queued a = 0 ↔ a ∉ l.waiting := List.count_eq_zero

theorem has_nothing_open (a : α) : (open_ : Lock α).Has a .nothing := ⟨rfl, rfl⟩

theorem Has.total_le (h : l.Has a share) : l.held a + l.queued a ≤ 1 := by
  cases share with
  | nothing =>
    obtain ⟨none_, nowhere⟩ := h
    omega
  | asked => exact Nat.le_of_eq h
  | lock =>
    obtain ⟨one, nowhere⟩ := h
    omega

/-- Who asked for the lock and holds it has the lock. -/
theorem Has.lock_of_holder (h : l.Has a .asked) (holds : l.holder = some a) : l.Has a .lock := by
  have one := held_eq_one_iff.2 holds
  have total : l.held a + l.queued a = 1 := h
  exact ⟨one, by omega⟩

/-! ### A lock that somebody waits for -/

/-- Nobody waits for a lock that nobody holds. -/
def Sound (l : Lock α) : Prop := l.holder = none → l.waiting = []

omit [DecidableEq α] in
theorem sound_open : (open_ : Lock α).Sound := fun _ => rfl

omit [DecidableEq α] in
theorem sound_request (l : Lock α) (a : α) : (l.request a).Sound := by
  unfold request
  split
  · nofun
  · next holds =>
    intro free
    cases holds.symm.trans free

theorem Sound.withdraw (h : l.Sound) (a : α) : (l.withdraw a).Sound := by
  unfold Lock.withdraw
  split
  · split
    · exact sound_open
    · nofun
  · intro free
    rw [h free]
    rfl

omit [DecidableEq α] in
/-- What somebody waits for, somebody holds. -/
theorem Sound.holder (h : l.Sound) (waits : a ∈ l.waiting) : ∃ b, l.holder = some b := by
  cases holds : l.holder with
  | none =>
    rw [h holds] at waits
    cases waits
  | some b => exact ⟨b, rfl⟩

omit [DecidableEq α] in
/-- A lock that nobody holds is open. -/
theorem Sound.eq_open (h : l.Sound) (free : ∀ a, l.holder ≠ some a) : l = open_ := by
  have nobody : l.holder = none := Option.eq_none_iff_forall_ne_some.2 free
  have nowhere := h nobody
  obtain ⟨holder, waiting⟩ := l
  obtain rfl := nobody
  obtain rfl := nowhere
  rfl

/-! ### The operations of other parties -/

/-- What others do can give the party the lock for a place in the queue. -/
structure Kept (a : α) (l k : Lock α) : Prop where
  held_le : l.held a ≤ k.held a
  total : k.held a + k.queued a = l.held a + l.queued a

theorem Kept.refl (a : α) (l : Lock α) : Kept a l l := ⟨Nat.le_refl _, rfl⟩

theorem Kept.has (h : Kept a l k) (before : l.Has a share) : k.Has a share := by
  obtain ⟨le, total⟩ := h
  cases share with
  | nothing =>
    obtain ⟨none_, nowhere⟩ := before
    exact ⟨by omega, by omega⟩
  | asked => exact total.trans before
  | lock =>
    obtain ⟨one, nowhere⟩ := before
    exact ⟨by omega, by omega⟩

theorem kept_request (hb : b ≠ a) : Kept b l (l.request a) := by
  have ne : ¬ some a = some b := fun h => hb (Option.some.inj h).symm
  unfold request
  split
  · next free => exact ⟨by simp [held, free], by simp [held, queued, free, ne]⟩
  · exact ⟨Nat.le_refl _, by simp [held, queued, Ne.symm hb]⟩

theorem kept_withdraw (hb : b ≠ a) : Kept b l (l.withdraw a) := by
  unfold withdraw
  split
  · next holds =>
    -- the first in the queue, who may be the party, gets the lock
    have before : l.held b = 0 :=
      held_eq_zero_iff.2 fun h => hb (Option.some.inj (h.symm.trans holds))
    split
    · next empty =>
      refine ⟨by rw [before]; exact Nat.zero_le _, ?_⟩
      rw [before, queued, queued, empty]
      rfl
    · next first rest queue =>
      refine ⟨by rw [before]; exact Nat.zero_le _, ?_⟩
      rw [before, queued, queued, queue, List.count_cons]
      by_cases h : first = b <;> simp [held, h, Nat.add_comm]
  · refine ⟨Nat.le_refl _, ?_⟩
    have same : (l.waiting.filter (· ≠ a)).count b = l.waiting.count b :=
      List.count_filter (by simpa using hb)
    rw [held, held, queued, queued, same]

/-! ### The party's own operations -/

/-- Asking gives the lock or a place in the queue. -/
theorem has_request (h : l.Has a .nothing) : (l.request a).Has a .asked := by
  obtain ⟨none_, nowhere⟩ := h
  have absent := queued_eq_zero_iff.1 nowhere
  unfold request
  split
  · simpa [Has, held, queued, List.count_eq_zero] using absent
  · next b holds =>
    have other : b ≠ a := fun h => held_eq_zero_iff.1 none_ (h ▸ holds)
    simpa [Has, held, queued, holds, other, List.count_eq_zero] using absent

/-- **Giving up leaves nothing.** -/
theorem has_withdraw (h : l.Has a share) : (l.withdraw a).Has a .nothing := by
  have le := h.total_le
  unfold withdraw
  split
  · next holds =>
    have absent : a ∉ l.waiting := by
      rw [held_eq_one_iff.2 holds] at le
      exact queued_eq_zero_iff.1 (by omega)
    split
    · exact ⟨rfl, rfl⟩
    · next b rest queue =>
      rw [queue, List.mem_cons, not_or] at absent
      exact ⟨held_eq_zero_iff.2 fun h => absent.1 (Option.some.inj h).symm,
        queued_eq_zero_iff.2 absent.2⟩
  · next holds => exact ⟨held_eq_zero_iff.2 holds, queued_eq_zero_iff.2 (by simp)⟩

/-- Who has nothing gives nothing up. -/
theorem withdraw_of_nothing (h : l.Has a .nothing) : l.withdraw a = l := by
  have others : l.waiting.filter (· ≠ a) = l.waiting := by
    refine List.filter_eq_self.2 fun b hb => ?_
    have ne : b ≠ a := fun h' => queued_eq_zero_iff.1 h.2 (h' ▸ hb)
    simpa using ne
  rw [withdraw, if_neg (held_eq_zero_iff.1 h.1), others]

theorem withdraw_open (a : α) : (open_ : Lock α).withdraw a = open_ :=
  withdraw_of_nothing (has_nothing_open a)

/-- Who asks has something. -/
theorem not_has_nothing_request : ¬ (l.request a).Has a .nothing := by
  intro h
  unfold request at h
  split at h
  · exact held_eq_zero_iff.1 h.1 rfl
  · exact queued_eq_zero_iff.1 h.2 (List.mem_append_right _ List.mem_cons_self)

/-- **What becomes of a lock when a party gives up.** If it held the lock nobody holds it now, or the
first in the queue does; who did not hold it leaves the queue. -/
inductive Relieved (a : α) (l : Lock α) : Lock α → Prop
  | freed (holds : l.holder = some a) (nobody : l.waiting = []) : Relieved a l open_
  | handed {b : α} {rest : List α} (holds : l.holder = some a) (queue : l.waiting = b :: rest)
      (other : b ≠ a) :
      Relieved a l ⟨some b, rest⟩
  | left (holds : l.holder ≠ some a) : Relieved a l { l with waiting := l.waiting.filter (· ≠ a) }

theorem Has.relieved (h : l.Has a share) : Relieved a l (l.withdraw a) := by
  have le := h.total_le
  unfold withdraw
  split
  · next holds =>
    split
    · next nobody => exact .freed holds nobody
    · next b rest queue =>
      refine .handed holds queue fun same => ?_
      -- nobody waits for the lock that he holds
      have one := held_eq_one_iff.2 holds
      have absent := queued_eq_zero_iff.1 (show l.queued a = 0 by omega)
      exact absent (by rw [queue, same]; exact List.mem_cons_self)
  · next holds => exact .left holds

end Lock

end Purse
