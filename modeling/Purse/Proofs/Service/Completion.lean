import Purse.Proofs.Service.Deadlock
import Purse.Proofs.Table

/-!
# Calls come to their end

Something moves as long as anything is in progress (`Reaches.progress`), and whatever moves comes
nearer to its end (`Effect.ahead_lt`). So a run cannot go on for ever unless new calls arrive, and
where it cannot go on every call has ended that was not given up (`Reaches.ended_of_still`). Nobody
has to be given up for that: from every state calls that move and time that passes lead to one where
all have ended (`Reaches.exists_ended`).

Somebody outside who keeps a permit can stop everything, so nobody outside may be at the gate.
-/

namespace Purse.Service

variable {s t u : State} {id : CallId} {call : Call} {next : Option Stage} {r : Request}

/-! ### What becomes of a call -/

/-- **A call that arrived** is in progress, or it has ended, or it was given up. -/
theorem Reaches.accounted (h : Reaches s t) (start : s.Unused) (asked : .arrived id r ∈ t.history) :
    (∃ call, t.calls.get? id = some call) ∨ (∃ outcome, .ended id outcome ∈ t.history) ∨
      .dropped id ∈ t.history := by
  refine h.invariant (P := fun u => .arrived id r ∈ u.history →
    (∃ call, u.calls.get? id = some call) ∨ (∃ outcome, .ended id outcome ∈ u.history) ∨
      .dropped id ∈ u.history) (fun asked => ?_) (fun u v _ sofar step => ?_) asked
  · rw [start.history] at asked
    cases asked
  · intro asked
    cases step.seen id with
    | @moved call next live moves effect =>
      cases next with
      | some stage => exact .inl ⟨_, effect.calls_self live⟩
      | none =>
        cases effect with
        | finished => exact .inr (.inl ⟨_, List.mem_cons_self⟩)
    | arrived free eq =>
      subst eq
      exact .inl ⟨_, (State.arrive_calls ..).trans (if_pos rfl)⟩
    | dropped live eq =>
      subst eq
      refine .inr (.inr ?_)
      rw [State.drop_history live]
      exact List.mem_cons_self
    | elsewhere apart =>
      rcases sofar ((apart.quiet.mem_iff rfl).1 asked) with ⟨call, live⟩ | ⟨outcome, ended⟩ | gone
      · exact .inl ⟨call, apart.calls ▸ live⟩
      · exact .inr (.inl ⟨outcome, (apart.quiet.mem_iff rfl).2 ended⟩)
      · exact .inr (.inr ((apart.quiet.mem_iff rfl).2 gone))

section Still

variable (h : Reaches s t) (start : s.Unused) (permits : 0 < s.gate.capacity)
  (inside : ∀ n, .outside n ∉ t.gate.holders)
  (ready : ∀ {id call due}, t.calls.get? id = some call → call.stage.due? = some due →
    due ≤ t.clock)
  (still : ∀ j, t.step? j = none)
include h start permits inside ready still

/-- Where nobody can move nobody is in progress. -/
theorem Reaches.calls_of_still (id : CallId) : t.calls.get? id = none := by
  refine Option.eq_none_iff_forall_ne_some.2 fun call live => ?_
  obtain ⟨j, moves⟩ := h.progress start permits inside ready live
  rw [still j] at moves
  cases moves

/-- **Calls come to their end:** where no call waits for a time and none can move, every call that
arrived has ended, unless it was given up. -/
theorem Reaches.ended_of_still (asked : .arrived id r ∈ t.history) (kept : .dropped id ∉ t.history) :
    ∃ outcome, .ended id outcome ∈ t.history := by
  rcases h.accounted start asked with ⟨call, live⟩ | ended | gone
  · cases (h.calls_of_still start permits inside ready still id).symm.trans live
  · exact ended
  · exact absurd gone kept

end Still

/-! ### How far it is to the end -/

/-- How many steps the calls in progress can still take, all together. -/
def State.remaining (s : State) : Nat := (s.calls.values.map fun call => call.stage.ahead + 1).sum

/-- **Every step of a call leaves fewer steps to take.** -/
theorem Effect.remaining_lt (h : Effect s id call next t) (live : s.calls.get? id = some call) :
    t.remaining < s.remaining := by
  -- the step changes nobody else's stage, so the two sums differ in one term only
  have others (j : CallId) : (t.calls.erase id).get? j = (s.calls.erase id).get? j := by
    rw [Table.get?_erase, Table.get?_erase]
    split
    · rfl
    · next ne => exact h.calls_of_ne (Ne.symm ne)
  have same := Table.sum_values_congr others fun call => call.stage.ahead + 1
  have here := h.calls_self live
  unfold State.remaining
  rw [Table.sum_values_of_some live, ← same]
  cases next with
  | some stage =>
    have lt := h.ahead_lt
    rw [Table.sum_values_of_some here]
    dsimp only
    omega
  | none =>
    -- the call is gone, so nothing has to be erased
    have gone (j : CallId) : t.calls.get? j = (t.calls.erase id).get? j := by
      rw [Table.get?_erase]
      split
      · next same => exact same ▸ here
      · rfl
    rw [Table.sum_values_congr gone]
    omega

/-- Who is in progress stays so until it has ended. -/
theorem Unaided.live_or_ended (h : Unaided s t) (live : s.calls.get? id = some call) :
    (∃ call, t.calls.get? id = some call) ∨ ∃ outcome, .ended id outcome ∈ t.history := by
  induction h with
  | refl => exact .inl ⟨call, live⟩
  | waited ms _ ih => exact ih
  | @moved t u j before moves ih =>
    have after : Reaches t u := .single (.call j moves)
    rcases ih with ⟨now_, live'⟩ | ⟨outcome, ended⟩
    · obtain ⟨mover, was, next, effect⟩ := State.step?_effect moves
      by_cases same : id = j
      · subst same
        cases next with
        | some stage => exact .inl ⟨_, effect.calls_self was⟩
        | none =>
          cases effect with
          | finished => exact .inr ⟨_, List.mem_cons_self⟩
      · exact .inl ⟨now_, (effect.calls_of_ne same).trans live'⟩
    · exact .inr ⟨outcome, after.mem_history ended⟩

/-- Calls that move and time that passes lead to a state with nobody in progress. -/
theorem Reaches.exists_idle (h : Reaches s t) (start : s.Unused) (permits : 0 < s.gate.capacity)
    (away : ∀ n, t.gate.held (.outside n) + t.gate.queued (.outside n) = 0) :
    ∃ u, Unaided t u ∧ ∀ id, u.calls.get? id = none := by
  -- the induction is on the steps that are left to all calls together
  induction left : t.remaining using Nat.strong_induction_on generalizing t with
  | h n ih =>
    by_cases idle : ∀ id, t.calls.get? id = none
    · exact ⟨t, .refl, idle⟩
    · push Not at idle
      obtain ⟨id, some_⟩ := idle
      obtain ⟨call, live⟩ := Option.ne_none_iff_exists'.1 some_
      have inside (n : Nat) : Party.outside n ∉ t.gate.holders :=
        Gate.not_mem_of_held (by have := away n; omega)
      -- one of the calls waits for nobody and takes a step
      obtain ⟨j, mover, live', free⟩ := h.exists_free start permits inside live
      obtain ⟨ms, u, next, moves, effect⟩ := h.exists_effect start live' free
      have way : Unaided t u := (Unaided.refl.waited ms).moved j moves
      have fewer : u.remaining < n := left ▸ effect.remaining_lt live'
      obtain ⟨v, way', idle⟩ := ih _ fewer (h.trans way.reaches)
        (fun n => (way.kept n).total.trans (away n)) rfl
      exact ⟨v, way.trans way', idle⟩

/-- **From every moment all calls can come to their end** without any help and without giving anybody
up, if nobody outside is at the gate. -/
theorem Reaches.exists_ended (h : Reaches s t) (start : s.Unused) (permits : 0 < s.gate.capacity)
    (away : ∀ n, t.gate.held (.outside n) + t.gate.queued (.outside n) = 0) :
    ∃ u, Unaided t u ∧ ∀ {id call}, t.calls.get? id = some call →
      ∃ outcome, .ended id outcome ∈ u.history := by
  obtain ⟨u, way, idle⟩ := h.exists_idle start permits away
  refine ⟨u, way, fun {id call} live => ?_⟩
  rcases way.live_or_ended live with ⟨last, live'⟩ | ended
  · cases (idle id).symm.trans live'
  · exact ended

end Purse.Service
