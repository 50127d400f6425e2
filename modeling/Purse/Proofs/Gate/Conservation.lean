import Mathlib.Data.List.Nodup
import Purse.Gate.Timed
import Purse.Proofs.Gate.Shares

/-!
# No permit is lost and none is made

A gate that is run keeps no account of the past. The log does: who asked, how each wait ended, who
gave a permit back and who gave up waiting. For any choice of parties two sums come out even
(`Balance`): the places in the queue and what became of them, and the permits held, given and given
back. The sums are even after one action (`balance_step`), and so after any number
(`balance_after`).

Everything else is read off these sums. With the choice of all parties they are the account of the
permits, and with the choice of one party they are the life of its wait, which has one end at most if
the party asks once (`Account`).
-/

namespace Purse.TimedGate

/-- What can be said of a party at a gate. -/
inductive Event where
  | asked
  | ended (how : Admission)
  | returned
  | abandoned
deriving DecidableEq

/-- What happened to whom, the earliest first. -/
abbrev Log (α : Type) := List (α × Event)

variable {α : Type} [DecidableEq α]

/-- What is said of the party of an action: it asks, or gives back a permit that it holds, or gives
up a place that it has. -/
def cause (s : TimedGate α) : Action α → Log α
  | .acquire who | .acquireUntil who _ => [(who, .asked)]
  | .release who => if s.gate.holds who then [(who, .returned)] else []
  | .abandon who => (s.gate.waiting.filter fun w => w.who = who).map fun w => (w.who, .abandoned)
  | .advance _ => []

/-- What is said of an action: its cause, and then the waits that end. -/
def entries (s : TimedGate α) (action : Action α) : Log α :=
  s.cause action ++ (s.step action).2.map fun e => (e.1, .ended e.2)

/-- The gate after some actions. -/
def after (s : TimedGate α) : List (Action α) → TimedGate α
  | [] => s
  | action :: rest => (s.step action).1.after rest

/-- The log of some actions. -/
def log (s : TimedGate α) : List (Action α) → Log α
  | [] => []
  | action :: rest => s.entries action ++ (s.step action).1.log rest

/-- Who asks for a permit in an action. -/
def Action.asking? : Action α → Option α
  | .acquire who | .acquireUntil who _ => some who
  | _ => none

/-- How often the log says this of the chosen parties. -/
def tally (p : α → Bool) (e : Event) (log : Log α) : Nat :=
  log.countP fun entry => p entry.1 && entry.2 = e

section Tally

variable {p : α → Bool} {e : Event}

omit [DecidableEq α] in
@[simp] theorem tally_nil : tally p e ([] : Log α) = 0 := rfl

omit [DecidableEq α] in
@[simp] theorem tally_append (l k : Log α) : tally p e (l ++ k) = tally p e l + tally p e k :=
  List.countP_append

omit [DecidableEq α] in
@[simp] theorem tally_cons (a : α) (d : Event) (l : Log α) :
    tally p e ((a, d) :: l) = tally p e l + if p a ∧ d = e then 1 else 0 := by
  simp [tally, List.countP_cons]

omit [DecidableEq α] in
/-- The same word of many counts only if it is the one looked for. -/
theorem tally_map {β : Type} (who : β → α) (d : Event) (l : List β) :
    tally p e (l.map fun b => (who b, d)) = if d = e then l.countP (fun b => p (who b)) else 0 := by
  unfold tally
  rw [List.countP_map]
  by_cases h : d = e <;> simp [h, Function.comp_def]

theorem tally_eq_count (a : α) (log : Log α) :
    tally (fun b => b = a) e log = log.count (a, e) :=
  List.countP_congr fun entry _ => by simp [Prod.ext_iff]

end Tally

/-! ### The sums -/

/-- The permits that the chosen parties hold. -/
def permits (p : α → Bool) (s : TimedGate α) : Nat := s.gate.holders.countP p

/-- The places in the queue that the chosen parties have. -/
def places (p : α → Bool) (s : TimedGate α) : Nat := s.gate.waiting.countP fun w => p w.who

/-- **The sums of a part of the log,** for the chosen parties: whoever asks gets a place, and a place
ends as a permit, by a deadline or by being given up; a permit that is given stays or is given
back. -/
structure Balance (p : α → Bool) (s : TimedGate α) (log : Log α) (t : TimedGate α) : Prop where
  places : t.places p + tally p (.ended .granted) log + tally p (.ended .cancelled) log +
    tally p .abandoned log = s.places p + tally p .asked log
  permits : t.permits p + tally p .returned log = s.permits p + tally p (.ended .granted) log

section Sums

variable {p : α → Bool} {s t u : TimedGate α}

omit [DecidableEq α] in
theorem Balance.refl (p : α → Bool) (s : TimedGate α) : Balance p s [] s := ⟨rfl, rfl⟩

omit [DecidableEq α] in
theorem Balance.trans {l k : Log α} (h : Balance p s l t) (g : Balance p t k u) :
    Balance p s (l ++ k) u := by
  obtain ⟨hp, hq⟩ := h
  obtain ⟨gp, gq⟩ := g
  constructor <;> simp only [tally_append] <;> omega

omit [DecidableEq α] in
/-- Those whose deadline has passed leave the queue, and nobody else does. -/
theorem balance_expire (now : Nat) :
    Balance p s ((s.gate.due now).map fun a => (a, .ended .cancelled)) ⟨s.gate.expire now, now⟩ := by
  have ends : ((s.gate.due now).map fun a => (a, Event.ended .cancelled)) =
      (s.gate.waiting.filter (Gate.isDue now)).map fun w => (w.who, Event.ended .cancelled) := by
    rw [Gate.due, List.map_map]
    rfl
  have parted := (List.countP_eq_countP_filter_add s.gate.waiting (fun w => p w.who)
    (Gate.isDue now)).symm
  rw [ends]
  constructor
  · simp only [places, Gate.expire, tally_map, reduceCtorEq, Event.ended.injEq, if_true, if_false]
    omega
  · simp [permits, Gate.expire, tally_map]

omit [DecidableEq α] in
/-- Whoever asks gets a permit at once if there is one, or a place behind everybody. -/
theorem balance_request (who : α) (deadline : Option Nat) :
    Balance p s
      ((who, .asked) :: if 0 < s.gate.free then [(who, .ended .granted)] else [])
      ⟨s.gate.request who deadline, s.clock⟩ := by
  unfold Gate.request
  split
  · constructor <;> simp [places, permits, List.countP_cons]
  · constructor <;> simp [places, permits, List.countP_append, List.countP_singleton]

/-- A permit that is given back becomes that of the first in the queue, if there is one. -/
theorem balance_release (who : α) :
    Balance p s (s.entries (.release who)) (s.step (.release who)).1 := by
  unfold entries cause step Gate.release
  by_cases holds : who ∈ s.gate.holders
  · have erased := (List.perm_cons_erase holds).countP_eq p
    rw [List.countP_cons] at erased
    cases queue : s.gate.waiting with
    | nil => constructor <;> simp [Gate.holds, holds, places, permits, queue, erased]
    | cons w rest =>
      constructor <;> simp [Gate.holds, holds, places, permits, queue, erased, List.countP_cons]
      omega
  · constructor <;> simp [Gate.holds, holds, places, permits]

/-- Whoever gives up leaves the queue, with all places that it has. -/
theorem balance_abandon (who : α) :
    Balance p s (s.entries (.abandon who)) (s.step (.abandon who)).1 := by
  have parted := List.countP_eq_countP_filter_add s.gate.waiting (fun w => p w.who)
    fun w => w.who = who
  constructor
  · simp [entries, cause, step, places, Gate.leave, tally_map] at parted ⊢
    omega
  · simp [entries, cause, step, permits, Gate.leave, tally_map]

/-- **The sums of one action** are even. -/
theorem balance_step (action : Action α) : Balance p s (s.entries action) (s.step action).1 := by
  have acquire (who : α) (deadline : Option Nat) :
      Balance p s ((who, .asked) :: (s.acquire who deadline).2.map fun e => (e.1, .ended e.2))
        (s.acquire who deadline).1 := by
    have asked := balance_request (p := p) (s := s) who deadline
    unfold TimedGate.acquire
    dsimp only
    split
    · next free =>
      rw [if_pos free] at asked
      exact asked
    · next full =>
      rw [if_neg full] at asked
      rw [List.map_map]
      exact asked.trans (balance_expire s.clock)
  cases action with
  | acquire who => exact acquire who _
  | acquireUntil who deadline => exact acquire who _
  | release who => exact balance_release who
  | abandon who => exact balance_abandon who
  | advance ms =>
    have ends := balance_expire (p := p) (s := s) (s.clock + ms)
    rw [entries, cause, step, List.nil_append, List.map_map]
    exact ends

/-- **The sums of a run** are even. -/
theorem balance_after (actions : List (Action α)) : Balance p s (s.log actions) (s.after actions) := by
  induction actions generalizing s with
  | nil => exact .refl p s
  | cons action rest ih => exact (balance_step action).trans ih

/-- Only asking is asking: what else is said is said of places and permits that are there. -/
theorem tally_asked (actions : List (Action α)) :
    tally p .asked (s.log actions) = (actions.filterMap Action.asking?).countP p := by
  have ends (l : List (α × Admission)) :
      tally p .asked (l.map fun e => (e.1, Event.ended e.2)) = 0 :=
    List.countP_eq_zero.2 fun entry h => by
      obtain ⟨e, -, rfl⟩ := List.mem_map.1 h
      simp
  induction actions generalizing s with
  | nil => rfl
  | cons action rest ih =>
    rw [log, tally_append, ih, entries, tally_append, ends, List.filterMap_cons]
    cases action with
    | acquire who | acquireUntil who deadline =>
      simp only [cause, Action.asking?, tally_cons, tally_nil, List.countP_cons, and_true]
      omega
    | release who => by_cases holds : s.gate.holds who <;> simp [cause, Action.asking?, holds]
    | abandon who => simp [cause, Action.asking?, tally_map]
    | advance ms => simp [cause, Action.asking?]

end Sums

/-! ### The account of a run -/

section Run

variable {s : TimedGate α}

/-- The number of permits stays, and a queue forms only when none is free. -/
theorem sound_step (sound : s.gate.Sound) (action : Action α) :
    (s.step action).1.gate.capacity = s.gate.capacity ∧ (s.step action).1.gate.Sound := by
  have acquire (who : α) (deadline : Option Nat) :
      (s.acquire who deadline).1.gate.capacity = s.gate.capacity ∧
        (s.acquire who deadline).1.gate.Sound := by
    have asked := sound.request who deadline
    unfold TimedGate.acquire
    dsimp only
    split
    · exact ⟨Gate.capacity_request, asked⟩
    · exact ⟨Gate.capacity_request, asked.expire s.clock⟩
  cases action with
  | acquire who => exact acquire who _
  | acquireUntil who deadline => exact acquire who _
  | release who => exact ⟨Gate.capacity_release, sound.release who⟩
  | abandon who => exact ⟨rfl, sound.leave who⟩
  | advance ms => exact ⟨rfl, sound.expire _⟩

theorem sound_after (sound : s.gate.Sound) (actions : List (Action α)) :
    (s.after actions).gate.capacity = s.gate.capacity ∧ (s.after actions).gate.Sound := by
  induction actions generalizing s with
  | nil => exact ⟨rfl, sound⟩
  | cons action rest ih =>
    obtain ⟨same, sound⟩ := sound_step sound action
    obtain ⟨same', sound'⟩ := ih sound
    exact ⟨same'.trans same, sound'⟩

end Run

/-- How many permits were given. -/
def Log.granted (log : Log α) : Nat := tally (fun _ => true) (.ended .granted) log

/-- How many permits were given back. -/
def Log.returned (log : Log α) : Nat := tally (fun _ => true) .returned log

/-- **The account of a gate** with so many permits, given the log of all that happened at it. -/
structure Account (capacity : Nat) (log : Log α) (t : TimedGate α) : Prop where
  capacity_eq : t.gate.capacity = capacity
  /-- The permits held are those given and not given back. -/
  held : (t.gate.holders.length : Int) = log.granted - log.returned
  /-- All others are free. -/
  free : (t.gate.free : Int) = capacity - (log.granted - log.returned)
  total : t.gate.holders.length + t.gate.free = t.gate.capacity
  /-- So the permits in flight are those held, and no more are taken from the capacity than there
  are. -/
  inFlight : t.gate.inFlight = t.gate.holders.length ∧ t.gate.free ≤ t.gate.capacity
  /-- A queue forms only when no permit is free. -/
  full_of_waiting : t.gate.waiting ≠ [] → t.gate.free = 0
  /-- Whoever holds a permit was given one and has not given it back, and holds no other. -/
  holder_iff : ∀ a, a ∈ t.gate.holders ↔ (a, .ended .granted) ∈ log ∧ (a, .returned) ∉ log
  holders_nodup : t.gate.holders.Nodup
  /-- Whoever waits has asked, and the wait has not ended and was not given up. -/
  waiting_iff : ∀ a, a ∈ t.gate.waiting.map Waiter.who ↔
    (a, .asked) ∈ log ∧ (∀ how, (a, .ended how) ∉ log) ∧ (a, .abandoned) ∉ log
  /-- A wait ends once at most, with a permit or without. -/
  once : ∀ a, log.count (a, .ended .granted) + log.count (a, .ended .cancelled) ≤ 1
  /-- Whoever was cancelled or gave up has no permit, and was never given one. -/
  lost : ∀ a, (a, .ended .cancelled) ∈ log ∨ (a, .abandoned) ∈ log →
    a ∉ t.gate.holders ∧ (a, .ended .granted) ∉ log

/-- A wait has no end on record exactly if it has neither of the two. -/
theorem Log.forall_not_ended_iff (log : Log α) (a : α) :
    (∀ how, (a, .ended how) ∉ log) ↔
      log.count (a, .ended .granted) = 0 ∧ log.count (a, .ended .cancelled) = 0 := by
  rw [List.count_eq_zero, List.count_eq_zero]
  refine ⟨fun none_ => ⟨none_ _, none_ _⟩, fun none_ how => ?_⟩
  cases how with
  | granted => exact none_.1
  | cancelled => exact none_.2

section Account

variable {s t : TimedGate α} {log : Log α}

/-- The life of one wait, from the sums for its party alone. -/
theorem balance_one (a : α) (balance : Balance (fun b => b = a) s log t) :
    t.gate.queued a + log.count (a, .ended .granted) + log.count (a, .ended .cancelled) +
        log.count (a, .abandoned) = s.gate.queued a + log.count (a, .asked) ∧
      t.gate.held a + log.count (a, .returned) =
        s.gate.held a + log.count (a, .ended .granted) := by
  have held (u : TimedGate α) : u.permits (fun b => b = a) = u.gate.held a :=
    List.countP_congr fun b _ => by simp
  obtain ⟨hp, hq⟩ := balance
  simp only [tally_eq_count, held] at hp hq
  exact ⟨hp, hq⟩

omit [DecidableEq α] in
/-- The permits of a gate that was idle, from the sums for all parties. -/
theorem Balance.holders_add_returned (balance : Balance (fun _ => true) s log t)
    (idle : s.gate.holders = []) : t.gate.holders.length + log.returned = log.granted := by
  have sum := balance.permits
  rw [TimedGate.permits, TimedGate.permits, idle, List.countP_nil, Nat.zero_add,
    List.countP_true] at sum
  exact sum

/-- **Sums that are even are an account,** if nobody was at the gate before and everybody asks once
at most. -/
theorem Account.of_balance (balance : ∀ p, Balance p s log t) (sound : t.gate.Sound)
    (idle : s.gate.holders = []) (quiet : s.gate.waiting = [])
    (once : ∀ a, log.count (a, .asked) ≤ 1) : Account t.gate.capacity log t := by
  have total := (balance fun _ => true).holders_add_returned idle
  have sum := Gate.length_holders_add_free sound
  have full (waits : t.gate.waiting ≠ []) : t.gate.free = 0 := by
    have full := sound.full_of_waiting waits
    omega
  refine
    { capacity_eq := rfl
      held := by omega
      free := by omega
      total := sum
      inFlight := ⟨Gate.inFlight_eq sound, t.gate.free_le_capacity⟩
      full_of_waiting := full
      holder_iff := fun a => ?_
      holders_nodup := List.nodup_iff_count_le_one.2 fun a => ?_
      waiting_iff := fun a => ?_
      once := fun a => ?_
      lost := fun a gone => ?_ }
  -- the rest is said of one party: its sums are even, and it has asked once at most
  all_goals
    have once := once a
    obtain ⟨queue, hold⟩ := balance_one a (balance _)
    have nowhere : s.gate.queued a = 0 := by rw [Gate.queued, quiet, List.countP_nil]
    have nothing : s.gate.held a = 0 := by rw [Gate.held, idle, List.count_nil]
  · rw [← List.count_pos_iff, ← List.count_pos_iff, ← List.count_eq_zero, ← Gate.held]
    omega
  · rw [← Gate.held]
    omega
  · rw [Gate.mem_waiting_iff, Log.forall_not_ended_iff, ← List.count_pos_iff, ← List.count_eq_zero]
    omega
  · omega
  · rw [← List.count_pos_iff, ← List.count_pos_iff] at gone
    rw [← List.count_eq_zero, ← List.count_eq_zero, ← Gate.held]
    omega

end Account

/-- **The account of a run** at a gate where nobody was before, if every wait has a name of its
own. -/
theorem account_after {s : TimedGate α} (sound : s.gate.Sound) (idle : s.gate.holders = [])
    (quiet : s.gate.waiting = []) {actions : List (Action α)}
    (distinct : (actions.filterMap Action.asking?).Nodup) :
    Account s.gate.capacity (s.log actions) (s.after actions) := by
  obtain ⟨same, sound⟩ := sound_after sound actions
  have once (a : α) : (s.log actions).count (a, .asked) ≤ 1 := by
    rw [← tally_eq_count, tally_asked]
    exact List.nodup_iff_count_le_one.1 distinct a
  have account := Account.of_balance (fun _ => balance_after actions) sound idle quiet once
  rw [same] at account
  exact account

/-- **Permits are conserved.** A gate can be made with any number of permits that the limit allows;
one for nobody is made for one. Whatever is done at it from then on, at whatever times, the account
holds, if every wait has a name of its own. -/
theorem permits_conserved {capacity : Nat} (le : capacity ≤ Gate.maxPermits) (timeout : Option Nat)
    (clock : Nat) {actions : List (Action α)}
    (distinct : (actions.filterMap Action.asking?).Nodup) :
    ∃ g : Gate α, Gate.create? capacity timeout = some g ∧
      Account (max 1 capacity) (log ⟨g, clock⟩ actions) (after ⟨g, clock⟩ actions) := by
  let new : TimedGate α := ⟨⟨max 1 capacity, timeout, [], []⟩, clock⟩
  have made : new.gate.Sound := ⟨Nat.zero_le _, fun h => absurd rfl h⟩
  exact ⟨new.gate, if_pos le, account_after made rfl rfl distinct⟩

/-- Four parties ask for a permit. The first one returns it, after the second was too late and the
third gave up. -/
def takingTurns : List (Action Nat) :=
  [.acquire 1, .acquireUntil 2 5, .acquire 3, .acquire 4, .advance 5, .abandon 3, .release 1]

/-- A gate asked for no permits has one, which the first party gets and then the fourth. -/
theorem permits_conserved_in_turn :
    ((takingTurns.filterMap Action.asking?).Nodup ∧ 0 ≤ Gate.maxPermits) ∧
    ∃ g : Gate Nat, Gate.create? 0 none = some g ∧
      Account 1 (log ⟨g, 0⟩ takingTurns) (after ⟨g, 0⟩ takingTurns) ∧
      log ⟨g, 0⟩ takingTurns = [(1, .asked), (1, .ended .granted), (2, .asked), (3, .asked), (4, .asked),
        (2, .ended .cancelled), (3, .abandoned), (1, .returned), (4, .ended .granted)] := by
  have distinct : (takingTurns.filterMap Action.asking?).Nodup := by decide
  obtain ⟨g, made, account⟩ := permits_conserved (Nat.zero_le Gate.maxPermits) none 0 distinct
  refine ⟨by decide, g, made, account, ?_⟩
  obtain rfl := Option.some.inj made
  decide

end Purse.TimedGate
