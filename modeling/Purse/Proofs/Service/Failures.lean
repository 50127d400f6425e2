import Purse.Proofs.Service.Linearization
import Purse.Proofs.Service.Permits

/-!
# Failures leave no trace

A call can fail at many places, before and after it got its permit, and in the store when half of an
exchange is already computed. None of them is treated by itself here. A call that has failed has
done no deed (`Reaches.deeds_of_error`), and only deeds change the rows or reach the receiver of
events (`Effect.untouched`), so none of its steps did. Its permit is covered by the books of the
gate, which say that a call that is gone holds nothing (`Reaches.permitted`).
-/

namespace Purse.Service

variable {s t : State} {id : CallId} {call : Call} {next : Option Stage}

/-- Notices are not offers of events. -/
theorem State.offered_of_noticed {ns : List Notice}
    (h : t.history = (ns.map Occurrence.noticed).reverse ++ s.history) :
    t.offered = s.offered := by
  rw [offered, h, List.countP_append, List.countP_eq_zero.2, Nat.zero_add, offered]
  intro o ho
  obtain ⟨n, -, rfl⟩ := List.mem_map.1 (List.mem_reverse.1 ho)
  exact Bool.false_ne_true

/-- The rows and the receiver of events are as they were. -/
structure Untouched (s t : State) : Prop where
  store : t.store = s.store
  sink : t.sink = s.sink
  offered : t.offered = s.offered

/-- **Without a deed nothing is touched.** -/
theorem Effect.untouched (h : Effect s id call next t) (none_ : t.deeds id = []) :
    Untouched s t := by
  -- whoever is in the history is among the deeds, if it is one
  have deed {o : Occurrence} (ho : o ∈ t.history) (is : o.isDeedOf id) : False := by
    have hd : o ∈ t.deeds id := State.mem_deeds.2 ⟨ho, is⟩
    rw [none_] at hd
    cases hd
  cases h with
  | created => exact (deed List.mem_cons_self (by simp)).elim
  | committed => exact (deed List.mem_cons_self (by simp)).elim
  | published =>
    refine (deed (State.publish_history .. ▸ List.mem_append_right _ List.mem_cons_self) ?_).elim
    simp
  | refreshed =>
    refine ⟨State.refreshCache_store .., State.refreshCache_sink .., ?_⟩
    exact State.offered_of_noticed (s := s.record (.refreshed ..)) (State.refreshCache_history ..)
  | broken | untaken | rejected =>
    exact ⟨State.fail_store .., State.fail_sink ..,
      State.offered_of_noticed (State.fail_history ..)⟩
  | _ => exact ⟨rfl, rfl, by simp [State.offered]⟩

/-- **The call left no trace** in a run from `s` to `t`. -/
structure Traceless (s t : State) (id : CallId) : Prop where
  /-- It has added no wallet, committed nothing and published nothing. -/
  deeds : t.deeds id = []
  /-- No step of it has changed a row, or offered anything to the receiver of events. -/
  untouched : ∀ {u v}, Reaches s u → u.step? id = some v → Reaches v t → Untouched u v
  /-- It holds no permit. -/
  holds : .call id ∉ t.gate.holders
  /-- It does not wait for one. -/
  waits : ∀ w ∈ t.gate.waiting, w.who ≠ .call id

/-- **Failed calls leave no trace** in the rows, the events and the gate, and when no call is in
progress and nobody outside holds a permit, all permits that there ever were are free. -/
theorem Reaches.traceless (h : Reaches s t) (start : s.Unused) :
    (∀ id e, .ended id (.error e) ∈ t.history → Traceless s t id) ∧
    ((∀ id, t.calls.get? id = none) → (∀ n, .outside n ∉ t.gate.holders) →
    t.gate.free = s.gate.capacity) := by
  refine ⟨fun id e hm => ?_, fun idle outside => ?_⟩
  · have nothing := (h.permitted start id).nothing ((h.recorded start id).gone_of_ended hm)
    refine ⟨h.deeds_of_error start hm, fun {u v} before moves after => ?_,
      Gate.not_mem_of_held nothing.1,
      Gate.not_mem_of_queued nothing.2⟩
    obtain ⟨call, live, next, effect⟩ := State.step?_effect moves
    refine effect.untouched (List.filter_eq_nil_iff.2 fun o ho deed => ?_)
    -- a deed of an earlier step would still be among the deeds at the end
    have told := State.mem_deeds.2 ⟨after.mem_history ho, deed⟩
    rw [h.deeds_of_error start hm] at told
    cases told
  · rw [h.free_of_idle start idle outside, h.capacity_eq]

/-- The exchange that was overtaken fails without a trace, and all permits are free in the end. -/
theorem traceless_overtaken : Traceless vacant overtaken 2 ∧ overtaken.gate.free = 2 := by
  have idle : overtaken.calls.entries = [] := List.isEmpty_iff.1 (by decide +kernel)
  have free : overtaken.gate.holders = [] := List.isEmpty_iff.1 (by decide +kernel)
  have failed : overtaken.hasFailed 2 .insufficientFunds := by decide +kernel
  obtain ⟨traceless, capacity⟩ := reaches_overtaken.traceless unused_vacant
  refine ⟨traceless 2 _ (State.mem_of_hasFailed failed), capacity (fun id => ?_) fun n => ?_⟩
  · rw [Table.get?, idle]
    rfl
  · rw [free]
    exact List.not_mem_nil

end Purse.Service
