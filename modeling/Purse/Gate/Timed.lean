import Purse.Gate

/-!
# A gate with a clock

A gate run on its own: parties ask for permits, give them back and give up waiting, and time passes.
Each step settles at once, and reports which waits ended in it and how.
-/

namespace Purse

/-- How a wait ends. -/
inductive Admission where
  | granted
  | cancelled
deriving DecidableEq, Repr

structure TimedGate (α : Type) where
  gate : Gate α
  clock : Nat

namespace TimedGate

variable {α : Type}

/-- What can be done at a gate. -/
inductive Action (α : Type) where
  /-- Asks for a permit, waiting as long as the gate says. -/
  | acquire (who : α)
  /-- Asks for a permit, waiting until a given time. -/
  | acquireUntil (who : α) (deadline : Nat)
  /-- Gives a permit back. -/
  | release (who : α)
  /-- Gives up waiting. -/
  | abandon (who : α)
  /-- Lets time pass. -/
  | advance (ms : Nat)

variable [DecidableEq α]

/-- Asking for a permit. A wait whose deadline has already passed ends before it begins. -/
def acquire (s : TimedGate α) (who : α) (deadline : Option Nat) : TimedGate α × List (α × Admission) :=
  let asked := s.gate.request who deadline
  if 0 < s.gate.free then (⟨asked, s.clock⟩, [(who, .granted)])
  else (⟨asked.expire s.clock, s.clock⟩, (asked.due s.clock).map fun a => (a, .cancelled))

/-- **One step:** the gate after it and the waits that ended in it, in order. -/
def step (s : TimedGate α) : Action α → TimedGate α × List (α × Admission)
  | .acquire who => s.acquire who (s.gate.deadlineFrom s.clock)
  | .acquireUntil who deadline => s.acquire who (some deadline)
  | .release who =>
    let ended := if s.gate.holds who then (s.gate.waiting.take 1).map fun w => (w.who, Admission.granted) else []
    (⟨s.gate.release who, s.clock⟩, ended)
  | .abandon who => (⟨s.gate.leave who, s.clock⟩, [])
  | .advance ms =>
    let now := s.clock + ms
    (⟨s.gate.expire now, now⟩, (s.gate.due now).map fun a => (a, .cancelled))

end TimedGate

end Purse
