import Purse.Gate

/-!
# The share of one party

What a gate means to one party is two numbers: how many permits it holds, and how many places in the
queue it has. The operations of other parties can turn a place into a permit and nothing else
(`Gate.Kept`), so the sum of the two is the party's own affair. What its own operations do to the
two numbers is said by `shares_request`, `shares_release` and `shares_leave`.
-/

namespace Purse.Gate

variable {α : Type} [DecidableEq α] {g h k : Gate α} {a b : α} {deadline : Option Nat}

/-- The permits that the party holds. -/
def held (g : Gate α) (a : α) : Nat := g.holders.count a

/-- The places in the queue that the party has. -/
def queued (g : Gate α) (a : α) : Nat := g.waiting.countP fun w => w.who = a

theorem holds_iff : g.holds a ↔ 0 < g.held a := by
  rw [holds, decide_eq_true_iff, held, List.count_pos_iff]

theorem mem_waiting_iff : a ∈ g.waiting.map Waiter.who ↔ 0 < g.queued a := by
  rw [queued, List.countP_pos_iff, List.mem_map]
  simp

theorem not_mem_of_held (h : g.held a = 0) : a ∉ g.holders := List.count_eq_zero.1 h

theorem not_mem_of_queued (h : g.queued a = 0) : ∀ w ∈ g.waiting, w.who ≠ a := by
  intro w hw
  simpa using List.countP_eq_zero.1 h w hw

/-! ### The operations of other parties -/

/-- What others do can give the party a permit for a place in the queue. -/
structure Kept (a : α) (g h : Gate α) : Prop where
  held_le : g.held a ≤ h.held a
  total : h.held a + h.queued a = g.held a + g.queued a

theorem Kept.refl (a : α) (g : Gate α) : Kept a g g := ⟨Nat.le_refl _, rfl⟩

theorem Kept.trans (p : Kept a g h) (q : Kept a h k) : Kept a g k :=
  ⟨Nat.le_trans p.held_le q.held_le, q.total.trans p.total⟩

theorem kept_request (hb : b ≠ a) : Kept b g (g.request a deadline) := by
  unfold request
  split
  -- the other party gets a permit at once, or a place behind everybody
  · refine ⟨Nat.le_of_eq ?_, ?_⟩ <;> simp [held, queued, Ne.symm hb]
  · refine ⟨Nat.le_refl _, ?_⟩
    simp [held, queued, Ne.symm hb]

theorem kept_release (hb : b ≠ a) : Kept b g (g.release a) := by
  have others : (g.holders.erase a).count b = g.holders.count b := List.count_erase_of_ne hb
  unfold release
  split
  · split
    · next none_ => exact ⟨Nat.le_of_eq others.symm, by simp [held, queued, others, none_]⟩
    · next w rest queue =>
      -- the first in the queue, who may be the party, gets the permit
      refine ⟨?_, ?_⟩
      · simp only [held, List.count_cons, others]
        omega
      · simp only [held, queued, List.count_cons, others, queue, List.countP_cons, beq_iff_eq,
          decide_eq_true_iff]
        omega
  · exact .refl b g

theorem kept_leave (hb : b ≠ a) : Kept b g (g.leave a) := by
  refine ⟨Nat.le_refl _, ?_⟩
  have same : g.waiting.countP (fun w => decide (w.who = b) && decide (w.who ≠ a)) =
      g.waiting.countP fun w => w.who = b := by
    refine List.countP_congr fun w _ => ?_
    simp only [Bool.and_eq_true, decide_eq_true_iff]
    exact ⟨And.left, fun hw => ⟨hw, hw ▸ hb⟩⟩
  simp only [held, queued, leave, List.countP_filter, same]

/-! ### The party's own operations -/

/-- Asking gives a permit or a place. -/
theorem shares_request :
    (g.request a deadline).held a + (g.request a deadline).queued a =
      g.held a + g.queued a + 1 := by
  unfold request
  split
  · simp only [held, queued, List.count_cons_self]
    omega
  · simp [held, queued, Nat.add_assoc]

/-- A party that does not wait gives a permit back and gets none. -/
theorem shares_release (free : g.queued a = 0) :
    (g.release a).held a = g.held a - 1 ∧ (g.release a).queued a = 0 := by
  unfold release
  split
  · split
    · exact ⟨List.count_erase_self, free⟩
    · next w rest queue =>
      rw [queued, queue, List.countP_cons] at free
      -- the permit goes to the first in the queue, which is somebody else
      have first : w.who ≠ a := by
        intro hw
        simp [hw] at free
      simp [held, queued, first]
      simpa [first] using free
  · next none_ =>
    refine ⟨?_, free⟩
    rw [held, List.count_eq_zero.2 none_]

/-- Who leaves keeps its permits and gives up its places. -/
theorem shares_leave : (g.leave a).held a = g.held a ∧ (g.leave a).queued a = 0 := by
  refine ⟨rfl, List.countP_eq_zero.2 fun w hw => ?_⟩
  simpa using (List.mem_filter.1 hw).2

/-- Who does not wait does not leave. -/
theorem leave_of_not_queued (nowhere : g.queued a = 0) : g.leave a = g := by
  have others : g.waiting.filter (fun w => w.who ≠ a) = g.waiting :=
    List.filter_eq_self.2 fun w hw => by simpa using not_mem_of_queued nowhere w hw
  rw [leave, others]

/-- Who holds nothing gives nothing back. -/
theorem release_of_not_held (none_ : g.held a = 0) : g.release a = g := by
  rw [release, if_neg (not_mem_of_held none_)]

/-- **What becomes of a gate when a party gives up.** A permit that it held is free again, or goes to
the first in the queue; who held none leaves the queue, and no permit moves. -/
inductive Relieved (a : α) (g : Gate α) : Gate α → Prop
  | freed (held : g.held a = 1) (nobody : g.waiting = []) :
      Relieved a g { g with holders := g.holders.erase a }
  | handed {w : Waiter α} {rest : List (Waiter α)} (held : g.held a = 1)
      (queue : g.waiting = w :: rest) (other : w.who ≠ a) :
      Relieved a g { g with holders := w.who :: g.holders.erase a, waiting := rest }
  | left (held : g.held a = 0) :
      Relieved a g { g with waiting := g.waiting.filter fun w => w.who ≠ a }

/-- Who has one share at most and gives up leaves the queue first, and then gives its permit back. -/
theorem relieved (le : g.held a + g.queued a ≤ 1) : Relieved a g ((g.leave a).release a) := by
  by_cases held : g.held a = 0
  · rw [release_of_not_held (g := g.leave a) (a := a) held]
    exact .left held
  · have one : g.held a = 1 := by omega
    have nowhere : g.queued a = 0 := by omega
    have holds : a ∈ g.holders := List.count_pos_iff.1 (show 0 < g.held a by omega)
    rw [leave_of_not_queued nowhere, release, if_pos holds]
    split
    · next nobody => exact .freed one nobody
    · next w rest queue =>
      have first : w ∈ g.waiting := by rw [queue]; exact List.mem_cons_self
      exact .handed one queue (not_mem_of_queued nowhere w first)

/-! ### The number of permits -/

omit [DecidableEq α] in
@[simp] theorem capacity_request : (g.request a deadline).capacity = g.capacity := by
  unfold request
  split <;> rfl

@[simp] theorem capacity_release : (g.release a).capacity = g.capacity := by
  unfold release
  split
  · split <;> rfl
  · rfl

@[simp] theorem capacity_leave : (g.leave a).capacity = g.capacity := rfl

omit [DecidableEq α] in
/-- Without holders every permit is free. -/
theorem free_of_idle (idle : g.holders = []) : g.free = g.capacity := by
  rw [free, idle, List.length_nil, Nat.sub_zero]

end Purse.Gate
