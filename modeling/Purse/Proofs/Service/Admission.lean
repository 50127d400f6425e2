import Purse.Proofs.Service.Linearization
import Purse.Proofs.Service.Permits
import Purse.Proofs.Table

/-!
# The bound on mutations

A mutation is *admitted* from the moment it leaves the gate until it has given its permit back:
while it looks for the wallet, finds its rate and is with the store. Each admitted call holds one
permit (`Reaches.permitted`), the permits are as many as the gate was made with, and two calls never
hold the same one, so the admitted calls are no more than that (`Reaches.admitted_le`).

That the bound is one on what the store sees is a matter of the stages: a mutation looks at the
store only while it is admitted (`Stage.isAdmitted_of_isAtStore`), and it is admitted no more when
it offers its event.
-/

namespace Purse.Service

variable {s t : State} {id : CallId} {call : Call} {next : Option Stage} {stage : Stage}

/-! ### The permits of the gate -/

/-- The gate is sound at every moment of a run: nobody holds a permit that there is not. -/
theorem Reaches.gate_sound (h : Reaches s t) (start : s.Unused) : t.gate.Sound := by
  refine h.invariant (P := fun u => u.gate.Sound) start.gate fun u v _ sound step => ?_
  cases step with
  | call id moves =>
    obtain ⟨call, -, next, effect⟩ := State.step?_effect moves
    rcases effect.gate with h | ⟨deadline, h⟩ | h | h <;> rw [h]
    · exact sound
    · exact sound.request _ _
    · exact sound.leave _
    · exact sound.release _
  | arrive => exact sound
  | outside m other =>
    cases m with
    | arrive id request drawn => exact absurd rfl (other id request drawn)
    | drop id =>
      cases live : u.calls.get? id with
      | none => rwa [State.move, State.drop_eq_of_gone live]
      | some call =>
        rw [State.move, State.drop_gate live]
        exact (sound.leave _).release _
    | hold n => exact sound.request _ _
    | release n => exact sound.release _
    | refreshCache table => rwa [State.move, State.refreshCache_gate]
    | _ => exact sound

/-! ### The admitted calls -/

/-- The calls between their admission and the end of their mutation. -/
def State.admitted (s : State) : List CallId :=
  (s.calls.entries.filter fun e => e.2.stage.isAdmitted).map Prod.fst

theorem State.mem_admitted :
    id ∈ s.admitted ↔ ∃ call, s.calls.get? id = some call ∧ call.stage.isAdmitted := by
  constructor
  · intro hm
    obtain ⟨⟨j, call⟩, he, rfl⟩ := List.mem_map.1 hm
    obtain ⟨there, is⟩ := List.mem_filter.1 he
    exact ⟨call, Table.mem_entries_iff.1 there, is⟩
  · rintro ⟨call, live, is⟩
    exact List.mem_map.2 ⟨(id, call), List.mem_filter.2 ⟨Table.mem_entries_iff.2 live, is⟩, rfl⟩

theorem State.nodup_admitted : s.admitted.Nodup :=
  s.calls.nodup.sublist (List.filter_sublist.map _)

/-- The mutations that are with the store are among the admitted calls. -/
theorem State.mutating_le : s.mutating ≤ s.admitted.length := by
  rw [mutating, Table.values, List.countP_map, admitted, List.length_map,
    ← List.countP_eq_length_filter]
  refine List.countP_mono_left fun e _ mutates => ?_
  change e.2.stage.isMutating at mutates
  revert mutates
  cases e.2.stage <;> simp [Stage.isMutating, Stage.isAdmitted]

theorem Stage.Holds.of_admitted {held queued : Nat} (h : stage.Holds held queued)
    (is : stage.isAdmitted) : held = 1 ∧ queued = 0 := by
  unfold Stage.Holds at h
  split at h
  · cases is
  · cases is
  · rwa [if_pos is] at h

/-- **An admitted call holds one permit,** and does not wait for another. -/
theorem Reaches.held_of_admitted (h : Reaches s t) (start : s.Unused) (hm : id ∈ t.admitted) :
    t.gate.held (.call id) = 1 ∧ t.gate.queued (.call id) = 0 := by
  obtain ⟨call, live, is⟩ := State.mem_admitted.1 hm
  exact ((h.permitted start id).holds live).of_admitted is

/-- **No more calls are admitted than the gate has permits:** each has one of its own. -/
theorem Reaches.admitted_le (h : Reaches s t) (start : s.Unused) :
    t.admitted.length ≤ s.gate.capacity := by
  have parties : (t.admitted.map Party.call).Nodup :=
    State.nodup_admitted.map fun _ _ same => Party.call.inj same
  have hold : t.admitted.map Party.call ⊆ t.gate.holders := by
    intro party hp
    obtain ⟨id, hm, rfl⟩ := List.mem_map.1 hp
    have one := (h.held_of_admitted start hm).1
    exact List.count_pos_iff.1 (show 0 < t.gate.held (.call id) by omega)
  calc t.admitted.length
      = (t.admitted.map Party.call).length := (List.length_map _).symm
    _ ≤ t.gate.holders.length := parties.length_le_of_subset hold
    _ ≤ t.gate.capacity := (h.gate_sound start).bounded
    _ = s.gate.capacity := h.capacity_eq

/-! ### The stretch from the first look at the store to the last -/

/-- Whether the next step of the call looks at the store, or has to wait for a row. -/
def Stage.isAtStore : Stage → Bool
  | .locating _ | .reading _ _ | .storing .. | .writing .. => true
  | _ => false

/-- **A mutation is at the store only while it is admitted.** -/
theorem Stage.isAdmitted_of_isAtStore {r : Request} (h : stage.IsOf r) (mutates : r.order?.isSome)
    (is : stage.isAtStore) : stage.isAdmitted := by
  cases stage with
  | storing | writing => rfl
  | locating order | reading wallet order =>
    cases order with
    | some order => rfl
    | none =>
      -- without an order the call is a view
      obtain ⟨user, rfl⟩ := h
      cases mutates
  | _ => cases is

/-- While a call stays admitted its own steps leave the gate alone. -/
theorem Effect.gate_of_admitted (h : Effect s id call (some stage) t) (was : call.stage.isAdmitted)
    (is : stage.isAdmitted) : t.gate = s.gate := by
  cases h with
  -- the steps that touch the gate come before the admission or end it
  | queued at_ | timedOut at_ =>
    rw [at_] at was
    cases was
  | silent at_ | announced at_ => cases is
  | _ => simp

/-- A mutation changes the rows in the middle of the stretch: it is admitted before the step and
after it. -/
theorem Effect.admitted_of_changes (h : Effect s id call (some stage) t)
    (mutates : call.request.order?.isSome) (changes : t.store ≠ s.store) :
    call.stage.isAdmitted ∧ stage.isAdmitted := by
  cases h with
  | committed at_ => exact ⟨by rw [at_]; rfl, rfl⟩
  | created at_ asks =>
    rw [asks] at mutates
    cases mutates
  | _ => exact absurd (by simp) changes

/-! ### All together -/

/-- **The gate bounds the mutations** in the state `t` of a service with that many permits. -/
structure GateBounded (permits : Nat) (t : State) : Prop where
  /-- The calls between their admission and the end of their mutation are at most as many as the
  permits. -/
  admitted_le : t.admitted.length ≤ permits
  /-- So are the mutations that are with the store. -/
  mutating_le : t.mutating ≤ permits
  /-- A mutation whose next step looks at the store is among the admitted calls. -/
  admitted : ∀ {id call}, t.calls.get? id = some call → call.request.order?.isSome →
    call.stage.isAtStore → id ∈ t.admitted
  /-- Each admitted call holds one permit, and does not wait for another. -/
  held : ∀ {id}, id ∈ t.admitted → t.gate.held (.call id) = 1 ∧ t.gate.queued (.call id) = 0
  /-- It is the same permit all along: no step of the call inside the stretch touches the gate. -/
  kept : ∀ {id u}, t.step? id = some u → id ∈ t.admitted → id ∈ u.admitted → u.gate = t.gate
  /-- When a mutation changes the rows it is admitted, and is so still after that. -/
  changed : ∀ {id call u}, t.calls.get? id = some call → call.request.order?.isSome →
    t.step? id = some u → u.store ≠ t.store → id ∈ t.admitted ∧ id ∈ u.admitted
  /-- A call that publishes an event holds no permit, and does not wait for one. -/
  publishing : ∀ {id call answer event}, t.calls.get? id = some call →
    call.stage = .publishing answer event →
    t.gate.held (.call id) = 0 ∧ t.gate.queued (.call id) = 0

/-- **The gate bounds the mutations at every moment** of every run, whichever calls fail, time out
or are given up. -/
theorem Reaches.gateBounded (h : Reaches s t) (start : s.Unused) :
    GateBounded s.gate.capacity t where
  admitted_le := h.admitted_le start
  mutating_le := Nat.le_trans State.mutating_le (h.admitted_le start)
  admitted live mutates is :=
    State.mem_admitted.2 ⟨_, live, Stage.isAdmitted_of_isAtStore (h.isOf start live) mutates is⟩
  held hm := h.held_of_admitted start hm
  kept moves was is := by
    obtain ⟨call, live, next, effect⟩ := State.step?_effect moves
    obtain ⟨call', live', was⟩ := State.mem_admitted.1 was
    obtain rfl := Option.some.inj (live.symm.trans live')
    obtain ⟨later, live', is⟩ := State.mem_admitted.1 is
    rw [effect.calls_self live] at live'
    obtain ⟨stage, rfl, rfl⟩ := Option.map_eq_some_iff.1 live'
    exact effect.gate_of_admitted was is
  changed live mutates moves changes := by
    obtain ⟨call, live', next, effect⟩ := State.step?_effect moves
    obtain rfl := Option.some.inj (live'.symm.trans live)
    cases next with
    | none =>
      cases effect
      exact absurd rfl changes
    | some stage =>
      obtain ⟨was, is⟩ := effect.admitted_of_changes mutates changes
      exact ⟨State.mem_admitted.2 ⟨_, live, was⟩,
        State.mem_admitted.2 ⟨_, effect.calls_self live, is⟩⟩
  publishing {id call answer event} live at_ := by
    have holds := (h.permitted start id).holds live
    rw [at_] at holds
    exact holds

/-! ### A crowded service -/

/-- A deposit of 40000 USD is about to be published. An exchange waits for the source of rates and a
withdrawal for the store, each with a permit; another deposit waits at the gate, and a quote for the
refresh lock. -/
def crowding : List Turn :=
  let user := Uuid.ofNat 1
  let turns (id : CallId) (n : Nat) : List Turn := List.replicate n (.call id)
  .outside (.arrive 0 (.create user) (.ofNat 2)) :: turns 0 2 ++
  .outside (.arrive 1 (.deposit user "USD" 40000.0) (.ofNat 3)) :: turns 1 7 ++
  .outside (.setSource ⟨[⟨⟨.usd, .rub⟩, 90.0⟩], none, 10⟩) ::
  .outside (.setConditions ⟨10, none⟩) ::
  .outside (.arrive 2 (.exchange user "USD" "RUB" 60.0) (.ofNat 4)) :: turns 2 6 ++
  .outside (.arrive 3 (.withdraw user "USD" 70.0) (.ofNat 5)) :: turns 3 4 ++
  .outside (.arrive 4 (.deposit user "EUR" 5.0) (.ofNat 6)) :: turns 4 1 ++
  .outside (.arrive 5 (.quote ⟨.usd, .rub⟩) (.ofNat 7)) :: turns 5 2

set_option maxRecDepth 10000 in
theorem isSome_crowding : (vacant.follow? crowding).isSome := by decide +kernel

/-- The crowded service. -/
def crowded : State := (vacant.follow? crowding).get isSome_crowding

theorem reaches_crowded : Reaches vacant crowded :=
  reaches_of_follow? (Option.some_get _).symm

/-- The exchange and the withdrawal are all that two permits allow. -/
theorem gateBounded_crowded : crowded.admitted = [2, 3] ∧ GateBounded 2 crowded :=
  ⟨by decide +kernel, reaches_crowded.gateBounded unused_vacant⟩

end Purse.Service
