import Purse.Proofs.Gate.Shares
import Purse.Proofs.Service.Records

/-!
# The permits of a call

A mutation asks for one permit when its arguments are checked and gives it back after the commit, or
when it ends. `Stage.Holds` says for each stage what the call holds: a place in the queue or a
permit while it is queued, one permit from its admission to the commit, nothing before and after. A
call that is about to end with an error may still hold its permit, and gives it back in its last
step; so a call that is gone holds nothing (`Reaches.permitted`).

Steps elsewhere can give a queued call its permit and do nothing else to it (`Elsewhere.gate`).
-/

namespace Purse.Service

variable {s t : State} {id : CallId} {call : Call} {next : Option Stage} {stage : Stage}
  {held queued : Nat}

/-! ### The gate during a step -/

/-- A step of a call touches the gate in the name of that call or not at all. -/
theorem Effect.gate (h : Effect s id call next t) :
    t.gate = s.gate ∨ (∃ deadline, t.gate = s.gate.request (.call id) deadline) ∨
      t.gate = s.gate.leave (.call id) ∨
      t.gate = s.gate.release (.call id) := by
  cases h with
  | queued => exact .inr (.inl ⟨_, rfl⟩)
  | timedOut => exact .inr (.inr (.inl rfl))
  | silent | announced | finished => exact .inr (.inr (.inr rfl))
  | _ => exact .inl (by simp)

theorem State.drop_gate (live : s.calls.get? id = some call) :
    (s.drop id).gate = (s.gate.leave (.call id)).release (.call id) := by
  have h : s.calls.contains id := (Table.contains_iff ..).2 ⟨call, live⟩
  simp [drop, h]

/-- **What happens elsewhere** gives the call a permit for its place in the queue, or leaves its
share as it is. -/
theorem Elsewhere.gate (h : Elsewhere id s t) : s.gate.Kept (.call id) t.gate := by
  have other {j : CallId} (ne : id ≠ j) : Party.call id ≠ .call j := fun h => ne (Party.call.inj h)
  cases h with
  | moved ne effect =>
    rcases effect.gate with h | ⟨deadline, h⟩ | h | h <;> rw [h]
    · exact .refl ..
    · exact Gate.kept_request (other ne)
    · exact Gate.kept_leave (other ne)
    · exact Gate.kept_release (other ne)
  | arrived ne eq => exact eq ▸ .refl ..
  | dropped ne live eq =>
    rw [eq, State.drop_gate live]
    exact (Gate.kept_leave (other ne)).trans (Gate.kept_release (other ne))
  | @around m arrives drops eq =>
    subst eq
    cases m with
    | arrive j request drawn => exact absurd rfl (arrives j request drawn)
    | drop j => exact absurd rfl (drops j)
    | hold n => exact Gate.kept_request nofun
    | release n => exact Gate.kept_release nofun
    | refreshCache table =>
      rw [State.move, State.refreshCache_gate]
      exact .refl ..
    | _ => exact .refl ..
  | idle eq => exact eq ▸ .refl ..

/-- The number of permits never changes. -/
theorem Reaches.capacity_eq (h : Reaches s t) : t.gate.capacity = s.gate.capacity := by
  refine h.invariant (P := fun u => u.gate.capacity = s.gate.capacity) rfl
    fun u v _ sofar step => ?_
  rw [← sofar]
  cases step with
  | call id moves =>
    obtain ⟨call, -, next, effect⟩ := State.step?_effect moves
    rcases effect.gate with h | ⟨deadline, h⟩ | h | h <;> simp [h]
  | arrive => rfl
  | outside m other =>
    cases m with
    | arrive id request drawn => exact absurd rfl (other id request drawn)
    | drop id =>
      cases live : u.calls.get? id with
      | none => rw [State.move, State.drop_eq_of_gone live]
      | some call => simp [State.move, State.drop_gate live]
    | _ => simp [State.move]

/-! ### What a call holds -/

/-- **The share of a call at a stage:** the permits that it holds and its places in the queue. -/
def Stage.Holds (held queued : Nat) : Stage → Prop
  | .queued _ => held + queued = 1
  | .ending (.error _) => held ≤ 1 ∧ queued = 0
  | stage => held = (if stage.isAdmitted then 1 else 0) ∧ queued = 0

/-- A permit may come for a place in the queue at any time. -/
theorem Stage.Holds.kept {held' queued' : Nat} (h : stage.Holds held queued) (le : held ≤ held')
    (total : held' + queued' = held + queued) : stage.Holds held' queued' := by
  unfold Stage.Holds at h ⊢
  split at h
  · exact total.trans h
  · exact ⟨by omega, by omega⟩
  · exact ⟨by omega, by omega⟩

theorem Stage.Holds.held_le (h : stage.Holds held queued) : held ≤ 1 := by
  unfold Stage.Holds at h
  split at h
  · omega
  · exact h.1
  · split at h <;> omega

theorem Stage.Holds.total_le (h : stage.Holds held queued) : held + queued ≤ 1 := by
  have le := h.held_le
  unfold Stage.Holds at h
  split at h
  · omega
  · omega
  · omega

theorem Quest.Finds.holds {quest : Quest} {cache : RateCache} {now due : Nat}
    (h : quest.Finds cache now due stage) (before : (Stage.consulting quest).Holds held queued) :
    stage.Holds held queued := by
  cases h with
  | listing | quote | exchange => exact before
  | unconvertible => exact ⟨Nat.le_of_eq before.1, before.2⟩

/-- **A step keeps the books:** what it does to the gate is what the next stage says. -/
theorem Effect.holds (h : Effect s id call (some stage) t)
    (before : call.stage.Holds (s.gate.held (.call id)) (s.gate.queued (.call id))) :
    stage.Holds (t.gate.held (.call id)) (t.gate.queued (.call id)) := by
  cases h with
  | queued at_ =>
    rw [at_] at before
    obtain ⟨nothing, nowhere⟩ := before
    -- one share more, and there was none
    refine Gate.shares_request.trans ?_
    rw [nothing, nowhere]
    rfl
  | admitted at_ holds =>
    rw [at_] at before
    have one : s.gate.held (.call id) + s.gate.queued (.call id) = 1 := before
    have some_ := Gate.holds_iff.1 holds
    -- the one share is a permit now
    refine ⟨?_, ?_⟩
    · change s.gate.held _ = 1
      omega
    · change s.gate.queued _ = 0
      omega
  | timedOut at_ holds =>
    rw [at_] at before
    have one : s.gate.held (.call id) + s.gate.queued (.call id) = 1 := before
    -- the place is given up; a permit would go back at the end
    obtain ⟨same, nowhere⟩ := Gate.shares_leave (g := s.gate) (a := Party.call id)
    exact ⟨show (s.gate.leave (.call id)).held _ ≤ 1 by omega, nowhere⟩
  | silent at_ | announced at_ =>
    rw [at_] at before
    obtain ⟨one, nowhere⟩ := before
    -- the one permit goes back
    obtain ⟨less, nowhere⟩ := Gate.shares_release nowhere
    exact ⟨less.trans (by rw [one]; rfl), nowhere⟩
  | located at_ | missed at_ | asked at_ | answered at_ =>
    rw [at_] at before
    -- the stage goes on with the same order or the same quest
    first
    | cases ‹Option Order› <;> exact before
    | cases ‹Quest› <;> exact before
  | refreshed at_ =>
    rw [at_] at before
    rw [State.goto_gate, State.refreshCache_gate]
    cases ‹Quest› <;> exact before
  | @read wallet order row at_ =>
    rw [at_] at before
    change Stage.Holds (s.gate.held (.call id)) (s.gate.queued (.call id)) _
    unfold State.afterRead
    split
    · exact before
    · exact before
    · exact before
    · split
      · exact before
      · exact ⟨Nat.le_of_eq before.1, before.2⟩
  | found at_ finds | foundLate at_ _ finds | served at_ finds =>
    rw [at_] at before
    exact finds.holds (by cases ‹Quest› <;> exact before)
  | unserved at_ =>
    rw [at_] at before
    cases ‹Quest› with
    | listing => exact before
    | quote | exchange => exact ⟨(show Stage.Holds _ _ (.serving _) from before).held_le, before.2⟩
  | unlocated at_ | unanswered at_ | vanished at_ | uncreated at_ | invalid at_ =>
    rw [at_] at before
    exact ⟨before.held_le, before.2⟩
  | broken at_ | untaken at_ | rejected at_ =>
    rw [at_] at before
    rw [State.fail_gate]
    exact ⟨before.held_le, before.2⟩
  | published at_ =>
    rw [at_] at before
    rw [State.publish_gate]
    exact before
  | created at_ | viewed at_ | taken at_ | committed at_ =>
    rw [at_] at before
    exact before
  | sought at_ asks =>
    rw [at_] at before
    unfold Quest.ofRequest? at asks
    split at asks <;> cases asks <;> exact before

/-- **The books of a call:** it holds what its stage says, and nothing when it is gone. -/
structure Permitted (s : State) (id : CallId) : Prop where
  holds : ∀ {call}, s.calls.get? id = some call →
    call.stage.Holds (s.gate.held (.call id)) (s.gate.queued (.call id))
  nothing : s.calls.get? id = none → s.gate.held (.call id) = 0 ∧ s.gate.queued (.call id) = 0

theorem State.Unused.permitted (h : s.Unused) (id : CallId) : Permitted s id where
  holds live := by rw [h.calls] at live; cases live
  nothing _ := by
    refine ⟨List.count_eq_zero.2 (h.holders id), List.countP_eq_zero.2 fun w hw who => ?_⟩
    exact h.waiting id (List.mem_map.2 ⟨w, hw, of_decide_eq_true who⟩)

theorem Permitted.step (h : Permitted s id) (record : Recorded s id) (step : Step s t) :
    Permitted t id := by
  cases step.seen id with
  | @moved call next live moves effect =>
    have calls := effect.calls_self live
    cases next with
    | some stage =>
      refine ⟨fun hl => ?_, fun gone => nomatch calls.symm.trans gone⟩
      obtain rfl := Option.some.inj (calls.symm.trans hl)
      exact effect.holds (h.holds live)
    | none =>
      refine ⟨fun hl => (nomatch calls.symm.trans hl), fun _ => ?_⟩
      cases effect with
      | @finished outcome at_ =>
        have before := h.holds live
        have le := before.held_le
        -- the last step gives back what an error may have kept
        have nowhere : s.gate.queued (.call id) = 0 := by
          rw [at_] at before
          cases outcome <;> exact before.2
        obtain ⟨less, nowhere⟩ := Gate.shares_release nowhere
        exact ⟨show (s.gate.release (.call id)).held _ = 0 by omega, nowhere⟩
  | arrived free eq =>
    subst eq
    -- the name is new, so nobody of that name holds anything
    have gone : s.calls.get? id = none := by
      refine Option.eq_none_iff_forall_ne_some.2 fun call live => ?_
      exact free _ (record.arrived_of_live live)
    refine ⟨fun hl => ?_, fun gone => by simp at gone⟩
    rw [State.arrive_calls, if_pos rfl] at hl
    obtain rfl := Option.some.inj hl
    exact h.nothing gone
  | dropped live eq =>
    subst eq
    refine ⟨fun hl => by simp at hl, fun _ => ?_⟩
    -- a call that is given up leaves the queue first, and then gives back its permit
    have le := (h.holds live).held_le
    obtain ⟨same, nowhere⟩ := Gate.shares_leave (g := s.gate) (a := Party.call id)
    obtain ⟨less, nowhere⟩ := Gate.shares_release nowhere
    rw [State.drop_gate live]
    exact ⟨by omega, nowhere⟩
  | elsewhere apart =>
    obtain ⟨le, total⟩ := apart.gate
    refine ⟨fun hl => (h.holds (apart.calls ▸ hl)).kept le total, fun gone => ?_⟩
    have := h.nothing (apart.calls ▸ gone)
    omega

/-- **The books of every call are right** at every moment of a run. -/
theorem Reaches.permitted (h : Reaches s t) (start : s.Unused) (id : CallId) : Permitted t id :=
  h.invariant (P := fun u => Permitted u id) (start.permitted id) fun _ _ before sofar step =>
    sofar.step (before.recorded start id) step

/-- When nobody has a call in progress and nobody outside holds a permit, every permit is free. -/
theorem Reaches.free_of_idle (h : Reaches s t) (start : s.Unused)
    (idle : ∀ id, t.calls.get? id = none) (outside : ∀ n, .outside n ∉ t.gate.holders) :
    t.gate.free = t.gate.capacity := by
  refine Gate.free_of_idle (List.eq_nil_iff_forall_not_mem.2 fun party held => ?_)
  cases party with
  | call id => exact Gate.not_mem_of_held ((h.permitted start id).nothing (idle id)).1 held
  | outside n => exact outside n held

end Purse.Service
