import Purse.Table

/-!
# The admission gate

A gate has a fixed number of permits. A permit that is given back goes to whoever has waited
longest, so admission is first come, first served; a wait may have a deadline, and it may be given
up. The gate itself has no clock: whoever runs it says what time it is.

`Gate.length_holders_add_free` says that no permit is ever lost, and `Gate.inFlight_eq` that the number
in flight, which is computed from the permits that are free, is the number of those held.
-/

namespace Purse

/-- Someone who waits for a permit, and until when. -/
structure Waiter (α : Type) where
  who : α
  deadline : Option Nat
deriving DecidableEq

/-- A gate whose permits are held, and waited for, by parties of type `α`. -/
structure Gate (α : Type) where
  /-- The number of permits. -/
  capacity : Nat
  /-- How long a wait lasts if nothing else is said. -/
  timeout : Option Nat
  /-- Who holds a permit, the latest first. -/
  holders : List α
  /-- Who waits, the earliest first. -/
  waiting : List (Waiter α)

namespace Gate

variable {α : Type}

/-- The greatest number of permits that a gate can have. -/
def maxPermits : Nat := 2305843009213693951

/-- A gate for `capacity` parties at once. One for nobody would never let anyone pass, so it is made
for one; one with too many permits cannot be made. -/
def create? (capacity : Nat) (timeout : Option Nat) : Option (Gate α) :=
  if capacity ≤ maxPermits then some ⟨max 1 capacity, timeout, [], []⟩ else none

/-- The number of permits that nobody holds. -/
def free (g : Gate α) : Nat := g.capacity - g.holders.length

/-- The number of permits that are not free. -/
def inFlight (g : Gate α) : Nat := g.capacity - g.free

/-- The deadline of a wait that starts now and lasts as long as the gate says. -/
def deadlineFrom (g : Gate α) (now : Nat) : Option Nat := g.timeout.map (now + ·)

variable [DecidableEq α]

/-- Whether the party holds a permit. -/
def holds (g : Gate α) (a : α) : Bool := a ∈ g.holders

/-- Whether the party waits. -/
def waits (g : Gate α) (a : α) : Bool := g.waiting.any fun (w : Waiter α) => w.who = a

/-- **Asking for a permit:** a free one is taken at once, whatever the deadline; otherwise the party
goes to the end of the queue. -/
def request (g : Gate α) (a : α) (deadline : Option Nat) : Gate α :=
  if 0 < g.free then { g with holders := a :: g.holders }
  else { g with waiting := g.waiting ++ [⟨a, deadline⟩] }

/-- **Giving a permit back:** it goes to the first in the queue, if there is one. -/
def release (g : Gate α) (a : α) : Gate α :=
  if a ∈ g.holders then
    match g.waiting with
    | [] => { g with holders := g.holders.erase a }
    | w :: rest => { g with holders := w.who :: g.holders.erase a, waiting := rest }
  else g

/-- Leaving the queue. -/
def leave (g : Gate α) (a : α) : Gate α :=
  { g with waiting := g.waiting.filter fun w => w.who ≠ a }

/-- The deadline of a party in the queue has passed. -/
def isDue (now : Nat) (w : Waiter α) : Bool :=
  match w.deadline with
  | some deadline => deadline ≤ now
  | none => false

/-- Whether the party waits and its deadline has passed. -/
def isOverdue (g : Gate α) (a : α) (now : Nat) : Bool :=
  g.waiting.any fun (w : Waiter α) => w.who = a && isDue now w

/-- Those in the queue whose deadline has passed. -/
def due (g : Gate α) (now : Nat) : List α :=
  (g.waiting.filter (isDue now)).map Waiter.who

/-- The gate after all whose deadline has passed have left the queue. -/
def expire (g : Gate α) (now : Nat) : Gate α :=
  { g with waiting := g.waiting.filter fun w => !isDue now w }

/-- What holds between any two operations: no more permits are held than there are, and a queue
forms only when none is free. -/
structure Sound (g : Gate α) : Prop where
  bounded : g.holders.length ≤ g.capacity
  full_of_waiting : g.waiting ≠ [] → g.holders.length = g.capacity

omit [DecidableEq α] in
/-- No more permits are free than there are. -/
theorem free_le_capacity (g : Gate α) : g.free ≤ g.capacity := Nat.sub_le ..

omit [DecidableEq α] in
/-- **No permit is lost:** those held and those that are free are all that there are. -/
theorem length_holders_add_free {g : Gate α} (h : g.Sound) :
    g.holders.length + g.free = g.capacity :=
  Nat.add_sub_cancel' h.bounded

omit [DecidableEq α] in
/-- The permits in flight are those held. -/
theorem inFlight_eq {g : Gate α} (h : g.Sound) : g.inFlight = g.holders.length := by
  rw [inFlight, ← length_holders_add_free h, Nat.add_sub_cancel]

omit [DecidableEq α] in
theorem Sound.request {g : Gate α} (h : g.Sound) (a : α) (deadline : Option Nat) :
    (g.request a deadline).Sound := by
  have hb := h.bounded
  unfold Gate.request Gate.free
  split
  · refine ⟨by simp only [List.length_cons]; omega, fun hw => ?_⟩
    have := h.full_of_waiting hw
    omega
  · exact ⟨hb, fun _ => by simp only; omega⟩

theorem Sound.release {g : Gate α} (h : g.Sound) (a : α) : (g.release a).Sound := by
  have hb := h.bounded
  unfold Gate.release
  split
  · rename_i ha
    have hl := List.length_erase_of_mem ha
    have hp := List.length_pos_of_mem ha
    split
    · rename_i hw
      refine ⟨by simp only [hl]; omega, fun hn => absurd hw hn⟩
    · rename_i w rest hw
      have hf := h.full_of_waiting (by simp [hw])
      refine ⟨by simp only [List.length_cons, hl]; omega, fun _ => ?_⟩
      simp only [List.length_cons, hl]
      omega
  · exact h

omit [DecidableEq α] in
theorem Sound.of_waiting_filter {g : Gate α} (h : g.Sound) (p : Waiter α → Bool) :
    ({ g with waiting := g.waiting.filter p } : Gate α).Sound :=
  ⟨h.bounded, fun hw => h.full_of_waiting fun he => hw (by simp [he])⟩

theorem Sound.leave {g : Gate α} (h : g.Sound) (a : α) : (g.leave a).Sound :=
  h.of_waiting_filter _

omit [DecidableEq α] in
theorem Sound.expire {g : Gate α} (h : g.Sound) (now : Nat) : (g.expire now).Sound :=
  h.of_waiting_filter _

end Gate

end Purse
