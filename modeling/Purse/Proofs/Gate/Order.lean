import Mathlib.Data.List.Perm.Basic
import Purse.Proofs.Gate.Conservation

/-!
# First come, first served

The waits of a run are a list, in the order of their arrival (`arrivals`). Some are over: their
parties were admitted, or their deadlines passed, or their parties gave up. What is said here is that
the end of a wait never changes the order of the others.

One invariant carries this (`InLine`): those admitted, in the order in which they were, and then
those in the queue, in the order in which they stand there, are a sublist of the arrivals. An arrival
goes to the end of both lists; a permit that is given back moves the first in the queue to the end of
those admitted; whoever leaves the queue otherwise is taken out of the sublist, wherever it stands.
Beside it there is only the clock: nobody in the queue is overdue (`Punctual`), and whoever was turned
away was overdue by then.

A sublist says which order, and not who. Who it is that waits is said by the account of the gate
(`Account`), and since no two waits have the same name, order and account together say what the queue
and the list of those admitted are (`FirstComeFirstServed`).
-/

namespace Purse.TimedGate

variable {α : Type}

/-! ### The arrivals of a run -/

section Arrivals

variable [DecidableEq α]

/-- The wait that an action begins. -/
def request? (s : TimedGate α) : Action α → Option (Waiter α)
  | .acquire who => some ⟨who, s.gate.deadlineFrom s.clock⟩
  | .acquireUntil who deadline => some ⟨who, some deadline⟩
  | .release _ | .abandon _ | .advance _ => none

/-- The waits that some actions begin, the earliest first. -/
def arrivals (s : TimedGate α) : List (Action α) → List (Waiter α)
  | [] => []
  | action :: rest => (s.request? action).toList ++ (s.step action).1.arrivals rest

end Arrivals

/-! ### What became of the waits -/

namespace Log

variable [DecidableEq α]

/-- Those who were admitted, the earliest first. -/
def admitted (log : Log α) : List α :=
  (log.filter fun entry => entry.2 = .ended .granted).map Prod.fst

/-- The wait was cut short, by its deadline or by its party. -/
def Left (log : Log α) (a : α) : Prop := (a, .ended .cancelled) ∈ log ∨ (a, .abandoned) ∈ log

/-- Nothing has ended the wait. -/
def Open (log : Log α) (a : α) : Prop := (a, .ended .granted) ∉ log ∧ ¬ log.Left a

instance (log : Log α) (a : α) : Decidable (log.Left a) := inferInstanceAs (Decidable (_ ∨ _))

instance (log : Log α) (a : α) : Decidable (log.Open a) := inferInstanceAs (Decidable (_ ∧ _))

omit [DecidableEq α] in
@[simp] theorem admitted_nil : admitted ([] : Log α) = [] := rfl

omit [DecidableEq α] in
@[simp] theorem admitted_append (l k : Log α) : admitted (l ++ k) = l.admitted ++ k.admitted := by
  simp [admitted]

omit [DecidableEq α] in
@[simp] theorem admitted_cons (a : α) (e : Event) (l : Log α) :
    admitted ((a, e) :: l) = (if e = .ended .granted then [a] else []) ++ l.admitted := by
  by_cases h : e = .ended .granted <;> simp [admitted, h]

omit [DecidableEq α] in
theorem mem_admitted {log : Log α} {a : α} : a ∈ log.admitted ↔ (a, .ended .granted) ∈ log := by
  simp [admitted]

omit [DecidableEq α] in
/-- A word other than the grant admits nobody. -/
theorem admitted_map {β : Type} (who : β → α) {e : Event} (other : e ≠ .ended .granted)
    (l : List β) : admitted (l.map fun b => (who b, e)) = [] := by
  simp [admitted, List.filter_map, Function.comp_def, other]

end Log

/-! ### The line -/

/-- **The line at a gate:** those admitted and then those in the queue, in the order in which they
arrived. -/
structure InLine (arrived : List (Waiter α)) (log : Log α) (s : TimedGate α) : Prop where
  order : ∃ served : List (Waiter α), served.map Waiter.who = log.admitted ∧
    (served ++ s.gate.waiting).Sublist arrived
  /-- Whoever was turned away had come, with a deadline that has passed. -/
  late : ∀ a, (a, .ended .cancelled) ∈ log →
    ∃ w ∈ arrived, w.who = a ∧ Gate.isDue s.clock w = true

theorem isDue_iff {now : Nat} {w : Waiter α} :
    Gate.isDue now w = true ↔ ∃ d, w.deadline = some d ∧ d ≤ now := by
  unfold Gate.isDue
  cases w.deadline <;> simp

/-- What is overdue stays so. -/
theorem isDue_mono {now later : Nat} (le : now ≤ later) {w : Waiter α}
    (due : Gate.isDue now w = true) : Gate.isDue later w = true := by
  rw [isDue_iff] at due ⊢
  obtain ⟨d, hd, passed⟩ := due
  exact ⟨d, hd, Nat.le_trans passed le⟩

/-- Where a permit is free, nobody waits. -/
theorem waiting_eq_nil {g : Gate α} (sound : g.Sound) (free : 0 < g.free) : g.waiting = [] := by
  by_contra some_
  have full := sound.full_of_waiting some_
  unfold Gate.free at free
  omega

section Line

variable [DecidableEq α] {s t : TimedGate α} {arrived : List (Waiter α)} {log : Log α}

omit [DecidableEq α] in
theorem InLine.arrived_of_waiting (line : InLine arrived log s) {w : Waiter α}
    (hw : w ∈ s.gate.waiting) : w ∈ arrived := by
  obtain ⟨served, -, sub⟩ := line.order
  exact sub.mem (List.mem_append_right served hw)

omit [DecidableEq α] in
/-- Some leave the queue, and the others stay in line. -/
theorem InLine.thin {k : Log α} (line : InLine arrived log s) {left : List (Waiter α)} {now : Nat}
    (fewer : left.Sublist s.gate.waiting) (le : s.clock ≤ now) (none_ : Log.admitted k = [])
    (late : ∀ a, (a, .ended .cancelled) ∈ k →
      ∃ w ∈ arrived, w.who = a ∧ Gate.isDue now w = true) :
    InLine arrived (log ++ k) ⟨{ s.gate with waiting := left }, now⟩ := by
  obtain ⟨served, names, sub⟩ := line.order
  refine ⟨⟨served, ?_, ?_⟩, fun a ha => ?_⟩
  · rw [Log.admitted_append, none_, List.append_nil, names]
  · exact (fewer.append_left served).trans sub
  · obtain old | new := List.mem_append.1 ha
    · obtain ⟨w, hw, name, due⟩ := line.late a old
      exact ⟨w, hw, name, isDue_mono le due⟩
    · exact late a new

omit [DecidableEq α] in
/-- The clock takes those out of the line whose deadline it passes. -/
theorem InLine.expire (line : InLine arrived log s) {now : Nat} (le : s.clock ≤ now) :
    InLine arrived (log ++ (s.gate.due now).map fun a => (a, .ended .cancelled))
      ⟨s.gate.expire now, now⟩ := by
  refine line.thin List.filter_sublist le
    (Log.admitted_map (fun a => a) (by decide) _) fun a ha => ?_
  obtain ⟨b, due, heq⟩ := List.mem_map.1 ha
  obtain ⟨w, hw, rfl⟩ := List.mem_map.1 due
  obtain ⟨waits, passed⟩ := List.mem_filter.1 hw
  exact ⟨w, line.arrived_of_waiting waits, (Prod.mk.inj heq).1, passed⟩

omit [DecidableEq α] in
/-- Whoever arrives goes to the end of the line, and through the gate if a permit is free: nobody is
in the queue then. -/
theorem InLine.request (line : InLine arrived log s) (sound : s.gate.Sound) (w : Waiter α) :
    InLine (arrived ++ [w])
      (log ++ (w.who, .asked) :: if 0 < s.gate.free then [(w.who, .ended .granted)] else [])
      ⟨s.gate.request w.who w.deadline, s.clock⟩ := by
  obtain ⟨served, names, sub⟩ := line.order
  have late : ∀ a, (a, .ended .cancelled) ∈ log →
      ∃ v ∈ arrived ++ [w], v.who = a ∧ Gate.isDue s.clock v = true := by
    intro a ha
    obtain ⟨v, hv, rest⟩ := line.late a ha
    exact ⟨v, List.mem_append_left _ hv, rest⟩
  unfold Gate.request
  split
  · next free =>
    have nobody := waiting_eq_nil sound free
    rw [nobody, List.append_nil] at sub
    refine ⟨⟨served ++ [w], by simp [names], ?_⟩, fun a ha => late a (by simpa using ha)⟩
    rw [nobody, List.append_nil]
    exact sub.append_right [w]
  · refine ⟨⟨served, by simp [names], ?_⟩, fun a ha => late a (by simpa using ha)⟩
    rw [← List.append_assoc]
    exact sub.append_right [w]

/-- A permit that is given back moves the first in the queue to the end of those admitted. -/
theorem InLine.release (line : InLine arrived log s) (who : α) :
    InLine arrived (log ++ s.entries (.release who)) (s.step (.release who)).1 := by
  obtain ⟨served, names, sub⟩ := line.order
  unfold entries cause step Gate.release
  by_cases holds : who ∈ s.gate.holders
  · cases queue : s.gate.waiting with
    | nil =>
      rw [queue] at sub
      refine ⟨⟨served, by simp [Gate.holds, holds, names], ?_⟩, fun a ha => line.late a ?_⟩
      · simpa [holds, queue] using sub
      · simpa [Gate.holds, holds] using ha
    | cons w rest =>
      rw [queue] at sub
      refine ⟨⟨served ++ [w], by simp [Gate.holds, holds, names], ?_⟩, fun a ha => line.late a ?_⟩
      · simpa [holds, queue] using sub
      · simpa [Gate.holds, holds] using ha
  · refine ⟨⟨served, by simp [Gate.holds, holds, names], ?_⟩, fun a ha => line.late a ?_⟩
    · simpa [holds] using sub
    · simpa [Gate.holds, holds] using ha

/-- **One action keeps the line.** -/
theorem InLine.step (line : InLine arrived log s) (sound : s.gate.Sound) (action : Action α) :
    InLine (arrived ++ (s.request? action).toList) (log ++ s.entries action) (s.step action).1 := by
  have acquire (who : α) (deadline : Option Nat) :
      InLine (arrived ++ [⟨who, deadline⟩])
        (log ++ (who, .asked) :: (s.acquire who deadline).2.map fun e => (e.1, .ended e.2))
        (s.acquire who deadline).1 := by
    have asked := line.request sound ⟨who, deadline⟩
    unfold TimedGate.acquire
    dsimp only
    split
    · next free =>
      rw [if_pos free] at asked
      exact asked
    · next full =>
      rw [if_neg full] at asked
      have gone := asked.expire (Nat.le_refl _)
      rw [List.append_assoc] at gone
      rw [List.map_map]
      exact gone
  cases action with
  | acquire who => exact acquire who _
  | acquireUntil who deadline => exact acquire who _
  | release who =>
    rw [request?, Option.toList_none, List.append_nil]
    exact line.release who
  | abandon who =>
    rw [request?, Option.toList_none, List.append_nil, entries, cause, TimedGate.step,
      List.map_nil, List.append_nil]
    refine line.thin List.filter_sublist (Nat.le_refl _)
      (Log.admitted_map Waiter.who (by decide) _) fun a ha => ?_
    simp at ha
  | advance ms =>
    have gone := line.expire (Nat.le_add_right s.clock ms)
    rw [request?, Option.toList_none, List.append_nil, entries, cause, TimedGate.step,
      List.nil_append, List.map_map]
    exact gone

/-- **A run keeps the line.** -/
theorem InLine.after (line : InLine arrived log s) (sound : s.gate.Sound)
    (actions : List (Action α)) :
    InLine (arrived ++ s.arrivals actions) (log ++ s.log actions) (s.after actions) := by
  induction actions generalizing s arrived log with
  | nil =>
    rw [arrivals, TimedGate.log, List.append_nil, List.append_nil]
    exact line
  | cons action rest ih =>
    have later := ih (line.step sound action) (sound_step sound action).2
    rw [List.append_assoc, List.append_assoc] at later
    exact later

end Line

/-! ### First come, first served -/

section Headline

variable [DecidableEq α] {t : TimedGate α} {arrived : List (Waiter α)} {log : Log α} {n : Nat}
  {v w : Waiter α}

/-- A party waits if it has asked and nothing has ended its wait. -/
theorem Account.waiting_iff_open (account : Account n log t) (a : α) :
    a ∈ t.gate.waiting.map Waiter.who ↔ (a, .asked) ∈ log ∧ log.Open a := by
  rw [account.waiting_iff]
  refine and_congr_right fun _ => ⟨fun ⟨ended, stayed⟩ => ?_, fun ⟨granted, left⟩ => ?_⟩
  · exact ⟨ended _, fun left => left.elim (ended _) stayed⟩
  · refine ⟨fun how => ?_, fun gone => left (.inr gone)⟩
    cases how with
    | granted => exact granted
    | cancelled => exact fun late => left (.inl late)

omit [DecidableEq α] in
/-- Two waits of one party are the same wait. -/
theorem eq_of_who_eq (distinct : (arrived.map Waiter.who).Nodup) (hv : v ∈ arrived)
    (hw : w ∈ arrived) (name : v.who = w.who) : v = w :=
  List.inj_on_of_nodup_map distinct hv hw name

namespace InLine

variable (line : InLine arrived log t)
include line

/-- A wait is in the queue if it has begun and nothing has ended it. -/
theorem mem_waiting_iff (account : Account n log t)
    (asked : ∀ a, a ∈ arrived.map Waiter.who ↔ (a, .asked) ∈ log)
    (distinct : (arrived.map Waiter.who).Nodup) (w : Waiter α) :
    w ∈ t.gate.waiting ↔ w ∈ arrived ∧ log.Open w.who := by
  constructor
  · intro hw
    have name : w.who ∈ t.gate.waiting.map Waiter.who := List.mem_map_of_mem hw
    exact ⟨line.arrived_of_waiting hw, ((account.waiting_iff_open w.who).1 name).2⟩
  · rintro ⟨hw, open_⟩
    have told : (w.who, .asked) ∈ log := (asked w.who).1 (List.mem_map_of_mem hw)
    -- somebody of this name waits, and nobody else has the name
    obtain ⟨v, hv, name⟩ := List.mem_map.1 ((account.waiting_iff_open w.who).2 ⟨told, open_⟩)
    obtain rfl := eq_of_who_eq distinct (line.arrived_of_waiting hv) hw name
    exact hv

end InLine

end Headline

end Purse.TimedGate
