import Purse.Service.State
import Purse.Settings.Load

/-!
# Settings that have passed the check

Settings are checked before the service runs on them, and loading gives no others. What the check asks
for is `Settings.Checked`; a service also needs a gate, and a gate cannot have any number of permits.
The check does not ask about that: it refuses a gate without permits, and none for having too many.
So checked settings are fit to run on up to the greatest number of permits, and not beyond it
(`Settings.runnable_iff`).
-/

namespace Purse.Settings

variable {c : Settings}

/-! ### The check -/

/-- What the check asks of settings. -/
structure Checked (c : Settings) : Prop where
  gate : c.gate.maxInFlight ≠ 0
  ttl : c.rates.cacheTtlSecs ≠ 0
  finite : c.events.notifyThreshold.isFinite
  nonneg : ¬ c.events.notifyThreshold < 0.0
  connections : c.database.minConnections ≤ c.database.maxConnections
  usable : ∀ r ∈ c.rates.table, r.isUsable

/-- **The check finds no fault** exactly if there is none. -/
theorem fault?_eq_none_iff : c.fault? = none ↔ c.Checked := by
  unfold fault?
  constructor
  · intro passed
    split at passed
    · cases passed
    next gate =>
    split at passed
    · cases passed
    next ttl =>
    split at passed
    · cases passed
    next threshold =>
    split at passed
    · cases passed
    next connections =>
    simp only [Bool.or_eq_true, Bool.not_eq_true', decide_eq_true_eq, not_or,
      Bool.not_eq_false] at threshold
    refine ⟨gate, ttl, threshold.1, threshold.2, Nat.not_lt.1 connections, fun r hr => ?_⟩
    simpa using List.find?_eq_none.1 (Option.map_eq_none_iff.1 passed) r hr
  · intro ⟨gate, ttl, finite, nonneg, connections, usable⟩
    have sound : c.rates.table.find? (fun (r : ExchangeRate) => !r.isUsable) = none :=
      List.find?_eq_none.2 fun r hr => by simp [usable r hr]
    rw [if_neg gate, if_neg ttl, if_neg (by simp [finite, nonneg]),
      if_neg (Nat.not_lt.2 connections), sound]
    rfl

/-- Settings that the service is given: they have passed the check, or they have been loaded. -/
inductive Accepted (c : Settings) : Prop
  | checked (passed : c.fault? = none)
  | fromEnvironment (environment : List (String × String))
      (loaded : Settings.fromEnvironment environment = .ok c)
  | fromDocument (text : Option String) (environment : List (String × String))
      (loaded : Settings.fromDocument text environment = .ok c)

theorem finish_eq_ok {tree : Setting} (loaded : finish tree = .ok c) : c.fault? = none := by
  unfold finish at loaded
  split at loaded
  · cases loaded
  · split at loaded
    · cases loaded
    · next passed =>
      cases loaded
      exact passed

/-- **Nothing is loaded without having passed the check.** -/
theorem Accepted.isChecked (accepted : c.Accepted) : c.Checked := by
  refine fault?_eq_none_iff.1 ?_
  cases accepted with
  | checked passed => exact passed
  | fromEnvironment environment loaded => exact finish_eq_ok loaded
  | fromDocument text environment loaded =>
    unfold Settings.fromDocument at loaded
    split at loaded
    · cases loaded
    · split at loaded
      · cases loaded
      · exact finish_eq_ok loaded

/-! ### The gate -/

section Gate

variable {α : Type}

/-- The gate that checked settings describe, up to the greatest number of permits. -/
theorem Checked.gate?_eq (checked : c.Checked) (le : c.gate.maxInFlight ≤ Gate.maxPermits) :
    c.gate? = some (⟨c.gate.maxInFlight, c.gate.acquireTimeoutMs, [], []⟩ : Gate α) := by
  have positive : max 1 c.gate.maxInFlight = c.gate.maxInFlight :=
    Nat.max_eq_right (Nat.pos_of_ne_zero checked.gate)
  rw [gate?, Gate.create?, if_pos le, positive]

/-- With more permits there is no gate. -/
theorem gate?_eq_none (gt : Gate.maxPermits < c.gate.maxInFlight) :
    (c.gate? : Option (Gate α)) = none :=
  if_neg (Nat.not_le.2 gt)

/-- The service on checked settings, up to the greatest number of permits. -/
theorem Checked.ofSettings?_eq (checked : c.Checked) (le : c.gate.maxInFlight ≤ Gate.maxPermits)
    (origin : Timestamp) (conditions : Service.StoreConditions) (delay : Nat) (sink : Service.Sink) :
    Service.State.ofSettings? c origin conditions delay sink =
      some (.ofSettings c origin ⟨c.gate.maxInFlight, c.gate.acquireTimeoutMs, [], []⟩ conditions delay
        sink) := by
  rw [Service.State.ofSettings?, checked.gate?_eq le, Option.map_some]

end Gate

/-- **The service can be run on the settings:** there is a gate, with as many permits as they say and
all of them free, and there is a service with such a gate. -/
structure Runnable (c : Settings) : Prop where
  gate : ∀ α : Type, ∃ g : Gate α, c.gate? = some g ∧ g.capacity = c.gate.maxInFlight ∧
    g.free = c.gate.maxInFlight ∧ g.timeout = c.gate.acquireTimeoutMs
  service : ∀ origin conditions delay sink, ∃ s,
    Service.State.ofSettings? c origin conditions delay sink = some s ∧
      s.gate.capacity = c.gate.maxInFlight ∧ s.gate.free = c.gate.maxInFlight

/-- **Settings that pass the check can be run** if they ask for no more permits than a gate can have,
and otherwise they cannot. -/
theorem runnable_iff (accepted : c.Accepted) :
    c.Runnable ↔ c.gate.maxInFlight ≤ Gate.maxPermits := by
  have checked := accepted.isChecked
  constructor
  · intro runnable
    refine Nat.not_lt.1 fun gt => ?_
    obtain ⟨g, made, -⟩ := runnable.gate Unit
    rw [gate?_eq_none gt] at made
    cases made
  · intro le
    exact ⟨fun α => ⟨_, checked.gate?_eq le, rfl, rfl, rfl⟩, fun origin conditions delay sink =>
      ⟨_, checked.ofSettings?_eq le origin conditions delay sink, rfl, rfl⟩⟩

/-- What is loaded where nothing is set can be run. -/
theorem runnable_of_nothing :
    let c : Settings := {}
    fromEnvironment [] = .ok c ∧ (c.Runnable ↔ c.gate.maxInFlight ≤ Gate.maxPermits) ∧
      c.Runnable := by
  intro c
  have loaded : fromEnvironment [] = .ok c := rfl
  have accepted : c.Accepted := .fromEnvironment [] loaded
  exact ⟨loaded, runnable_iff accepted, (runnable_iff accepted).2 (by decide)⟩

/-- Settings that ask for one permit more than a gate can have. -/
def oversized : Settings :=
  { gate := { maxInFlight := Gate.maxPermits + 1 }, rates := { source := .fixed } }

theorem oversized_checked : oversized.fault? = none := by decide

/-- **Not all settings that pass the check can be run.** -/
theorem not_forall_runnable : ¬ ∀ c : Settings, c.Accepted → c.Runnable := by
  intro all
  obtain ⟨g, made, -⟩ := (all oversized (.checked oversized_checked)).gate Unit
  rw [gate?_eq_none (Nat.lt_succ_self _)] at made
  cases made

end Purse.Settings
