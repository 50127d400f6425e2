import Purse.Proofs.Service.Refreshes
import Purse.Proofs.Service.Serial
import Purse.Proofs.Service.Waiting

/-!
# Calls in a calm service

A service is undisturbed if the source gives it one and the same table, the store works, and the gate
has room (`Undisturbed`). Around it anything may happen that leaves it so (`Calm`): time passes, the
source and the store get slower or faster, others take permits and give them back.

While one call is alone in such a service (`Attended`), the service stays undisturbed, whatever the
call does: what it brings from the source is the table, and what it puts into the cache is fresh when
it looks. It never has to wait for anything but time, so every call comes to its end
(`Attended.exists_ending`), and any calls at all can be served one after another
(`Undisturbed.exists_serial`).
-/

namespace Purse.Service

variable {s s₀ t : State} {id : CallId} {call : Call} {next : Option Stage} {stage : Stage}
  {r : Request} {drawn : Uuid} {outcome : Outcome} {T : RateTable} {m : Move} {cs : List Served}

/-! ### A gate with room -/

/-- Whether the party is outside the service. -/
def Party.isOutside : Party → Bool
  | .outside _ => true
  | .call _ => false

/-- Nobody waits at the gate, and those outside leave a permit free. -/
structure HasRoom (g : Gate Party) : Prop where
  nobody : g.waiting = []
  room : g.holders.countP Party.isOutside < g.capacity

namespace HasRoom

variable {g : Gate Party} {deadline : Option Nat}

/-- If no call holds a permit, the next one gets one at once. -/
theorem request (h : HasRoom g) (idle : ∀ j, .call j ∉ g.holders) :
    HasRoom (g.request (.call id) deadline) := by
  have all : g.holders.countP Party.isOutside = g.holders.length := by
    refine List.countP_eq_length.2 fun party held => ?_
    cases party with
    | call j => exact absurd held (idle j)
    | outside n => rfl
  have free : 0 < g.free := by
    have room := h.room
    unfold Gate.free
    omega
  rw [Gate.request, if_pos free]
  exact ⟨h.nobody, by simpa [Party.isOutside] using h.room⟩

theorem release (h : HasRoom g) : HasRoom (g.release (.call id)) := by
  unfold Gate.release
  split
  · rw [h.nobody]
    have le : (g.holders.erase (.call id)).countP Party.isOutside ≤
        g.holders.countP Party.isOutside := List.erase_sublist.countP_le
    exact ⟨rfl, Nat.lt_of_le_of_lt le h.room⟩
  · exact h

theorem leave (h : HasRoom g) : HasRoom (g.leave (.call id)) :=
  ⟨by simp [Gate.leave, h.nobody], h.room⟩

end HasRoom

/-! ### An undisturbed service -/

/-- **An undisturbed service:** the source answers with the table, the store works, the cache holds
nothing else, and there is room at the gate. -/
structure Undisturbed (T : RateTable) (s : State) : Prop where
  source : s.source.answer = .ok T
  works : s.conditions.fault = none
  cache : s.cache.snapshot = .none ∨ ∃ time, s.cache.snapshot = .take time T
  gate : HasRoom s.gate

/-- **What may happen around a calm service:** anything that leaves it undisturbed. What a call has
put into the cache does not expire before the call has looked at it: between the two nothing is waited
for, and so no time to speak of passes. -/
def Calm (T : RateTable) (s : State) (m : Move) : Prop :=
  Undisturbed T (s.move m) ∧
    ∀ id call quest, s.calls.get? id = some call → call.stage = .serving quest →
      (s.move m).cache.isFresh (s.move m).clock

/-- What a call has from the source is the table, and what it has put into the cache is fresh. -/
def Current (T : RateTable) (s : State) : Stage → Prop
  | .refreshing _ table => table = T
  | .serving _ => s.cache.isFresh s.clock
  | _ => True

/-- A look into the cache leads to nothing that could be out of date. -/
theorem Quest.Finds.current {quest : Quest} {cache : RateCache} {now due : Nat}
    (h : quest.Finds cache now due stage) : Current T t stage := by
  cases h <;> trivial

theorem State.current_afterRead {row : Wallet} {amount : Float} {order : Option Order} :
    Current T t (s.afterRead row amount order) := by
  unfold State.afterRead
  split
  · trivial
  · trivial
  · trivial
  · split <;> trivial

/-- **A step leaves the service undisturbed.** -/
theorem Effect.undisturbed (h : Effect s id call next t) (calm : Undisturbed T s)
    (current : Current T s call.stage)
    (idle : call.stage = .arrived → ∀ j, .call j ∉ s.gate.holders) : Undisturbed T t := by
  obtain ⟨source, conditions, -⟩ := h.surroundings
  refine ⟨by rw [source, calm.source], by rw [conditions, calm.works], ?_, ?_⟩
  · cases h with
    | refreshed at_ =>
      rw [at_] at current
      obtain rfl : _ = T := current
      rw [State.goto_cache, State.refreshCache_cache]
      exact .inr ⟨s.clock, rfl⟩
    | broken | untaken | rejected =>
      rw [State.fail_cache]
      exact calm.cache
    | published =>
      rw [State.publish_cache]
      exact calm.cache
    | _ => exact calm.cache
  · cases h with
    | queued at_ => exact calm.gate.request (idle at_)
    | timedOut => exact calm.gate.leave
    | silent | announced | finished => exact calm.gate.release
    | _ => simpa using calm.gate

/-- **A step leads to what is current.** -/
theorem Effect.current (h : Effect s id call (some stage) t) (calm : Undisturbed T s) :
    Current T t stage := by
  cases h with
  | answered at_ ready replies => exact Except.ok.inj (replies.symm.trans calm.source)
  | refreshed at_ =>
    unfold Current
    rw [State.goto_cache, State.goto_clock, State.refreshCache_cache, State.refreshCache_clock]
    exact RateCache.isFresh_refresh.2 (Nat.le_add_right ..)
  | read => exact State.current_afterRead
  | found at_ finds | foundLate at_ _ finds | served at_ finds => exact finds.current
  | _ => trivial

/-- Time alone disturbs nothing. -/
theorem Undisturbed.tick (h : Undisturbed T s) (ms : Nat) : Undisturbed T (s.move (.tick ms)) :=
  ⟨h.source, h.works, h.cache, h.gate⟩

/-! ### A call alone in an undisturbed service -/

/-- **One call is alone in an undisturbed service.** -/
structure Attended (T : RateTable) (s : State) (id : CallId) (r : Request) (drawn : Uuid)
    (stage : Stage) : Prop where
  live : s.calls.get? id = some ⟨r, drawn, stage⟩
  others : ∀ j, j ≠ id → s.calls.get? j = none
  calm : Undisturbed T s
  current : Current T s stage

namespace Attended

variable {stage' : Stage}

theorem arrive (calm : Undisturbed T s) (idle : ∀ j, s.calls.get? j = none) :
    Attended T (s.arrive id r drawn) id r drawn .arrived where
  live := State.arrive_calls_self ..
  others j ne := by rw [State.arrive_calls, if_neg (Ne.symm ne), idle]
  calm := ⟨calm.source, calm.works, calm.cache, calm.gate⟩
  current := trivial

/-- What happens around the call disturbs nothing. -/
theorem around (h : Attended T s id r drawn stage) (apart : m.isAround) (allowed : Calm T s m) :
    Attended T (s.move m) id r drawn stage where
  live := (congrArg (·.get? id) (State.move_calls apart)).trans h.live
  others j ne := (congrArg (·.get? j) (State.move_calls apart)).trans (h.others j ne)
  calm := allowed.1
  current := by
    cases stage with
    | serving quest => exact allowed.2 id _ quest h.live rfl
    | refreshing => exact h.current
    | _ => trivial

section

variable (h : Attended T s id r drawn stage) (reach : Reaches s₀ s) (start : s₀.Unused)
include h reach start

/-- Before it asks for one, no call holds a permit. -/
theorem not_mem_holders (at_ : stage = .arrived) (j : CallId) : .call j ∉ s.gate.holders := by
  refine Gate.not_mem_of_held ?_
  by_cases same : j = id
  · subst same at_
    exact ((reach.permitted start j).holds h.live).1
  · exact ((reach.permitted start j).nothing (h.others j same)).1

/-- What the call does disturbs nothing. -/
theorem moved (effect : Effect s id ⟨r, drawn, stage⟩ (some stage') t) :
    Attended T t id r drawn stage' where
  live := effect.calls_self h.live
  others j ne := (effect.calls_of_ne ne).trans (h.others j ne)
  calm := effect.undisturbed h.calm h.current (h.not_mem_holders reach start)
  current := effect.current h.calm

/-- **What every step keeps and nothing around the call undoes,** holds at the end. -/
theorem invariant {P : State → Stage → Prop} (alone : Alone (Calm T) id s t) (base : P s stage)
    (step : ∀ {u v stage stage'}, Reaches s₀ u → Attended T u id r drawn stage → P u stage →
      Effect u id ⟨r, drawn, stage⟩ (some stage') v → P v stage')
    (around : ∀ {u m stage}, Attended T u id r drawn stage → m.isAround → Calm T u m →
      P u stage → P (u.move m) stage)
    (live : t.calls.get? id = some ⟨r, drawn, stage'⟩) :
    Attended T t id r drawn stage' ∧ P t stage' := by
  induction alone generalizing stage' with
  | start =>
    cases h.live.symm.trans live
    exact ⟨h, base⟩
  | @moved t u way moves ih =>
    obtain ⟨call, before, next, effect⟩ := State.step?_effect moves
    obtain ⟨earlier, rfl⟩ := way.exists_stage ⟨stage, h.live⟩ before
    obtain ⟨attended, holds⟩ := ih before
    rw [effect.calls_self before] at live
    obtain ⟨later, rfl, same⟩ := Option.map_eq_some_iff.1 live
    cases same
    have sofar := reach.trans way.reaches
    exact ⟨attended.moved sofar start effect, step sofar attended holds effect⟩
  | @around t m way apart allowed ih =>
    rw [State.move_calls apart] at live
    obtain ⟨attended, holds⟩ := ih live
    exact ⟨attended.around apart allowed, around attended apart allowed holds⟩

/-- **The call waits for nothing but time.** -/
theorem not_awaitedBy (resource : Resource) : ¬ s.AwaitedBy id resource := by
  intro waits
  cases resource with
  | permit =>
    obtain ⟨w, hw, -⟩ := List.mem_map.1 waits
    rw [h.calm.gate.nobody] at hw
    cases hw
  | lock name =>
    -- whoever holds the lock is in progress, and so it is the call itself
    obtain ⟨j, holds⟩ := (reach.lock_sound start name).holder waits
    obtain ⟨call, live⟩ := reach.live_of_heldBy start (r := .lock name) holds
    obtain rfl : j = id := by
      by_contra ne
      rw [h.others j ne] at live
      cases live
    exact reach.not_awaitedBy_of_lock start holds _ waits

omit reach start in
/-- Once its time has come, the call is where it was. -/
theorem exists_ready : ∃ t, Alone (Calm T) id s t ∧ Attended T t id r drawn stage ∧
    ∀ due, stage.due? = some due → due ≤ t.clock := by
  cases waits : stage.due? with
  | none => exact ⟨s, .start, h, nofun⟩
  | some due =>
    have calm : Calm T s (.tick (due - s.clock)) := by
      refine ⟨h.calm.tick _, fun j call quest live at_ => ?_⟩
      obtain rfl : j = id := by
        by_contra ne
        rw [h.others j ne] at live
        cases live
      -- who waits for a time is not looking into the cache
      cases h.live.symm.trans live
      obtain rfl : stage = .serving quest := at_
      cases waits
    refine ⟨_, .around .start rfl calm, h.around rfl calm, fun due' same => ?_⟩
    cases same
    change due ≤ s.clock + (due - s.clock)
    omega

/-- **Every call comes to its end.** -/
theorem exists_ending : ∃ t outcome, Alone (Calm T) id s t ∧
    t.calls.get? id = some ⟨r, drawn, .ending outcome⟩ := by
  induction n : stage.ahead using Nat.strongRecOn generalizing s stage with
  | ind n ih =>
    obtain ⟨t, way, attended, ready⟩ := h.exists_ready
    have sofar := reach.trans way.reaches
    obtain ⟨u, moves⟩ := Option.isSome_iff_exists.1 (sofar.isSome_step? start attended.live
      (attended.not_awaitedBy sofar start) ready)
    obtain ⟨call, live, next, effect⟩ := State.step?_effect moves
    cases attended.live.symm.trans live
    cases next with
    | none =>
      cases effect with
      | finished at_ =>
        obtain rfl : stage = _ := at_
        exact ⟨t, _, way, attended.live⟩
    | some stage' =>
      have lt := effect.ahead_lt
      obtain ⟨v, outcome, rest, ends⟩ := ih stage'.ahead (n ▸ lt)
        (attended.moved sofar start effect) (sofar.tail (.call id moves)) rfl
      exact ⟨v, outcome, (way.moved moves).trans rest, ends⟩

end

end Attended

/-! ### Sequential runs of a calm service -/

/-- **A calm service stays undisturbed.** -/
theorem Serial.undisturbed (h : Serial (Calm T) s t cs) (start : s.Unused)
    (calm : Undisturbed T s) : Undisturbed T t := by
  induction h with
  | start => exact calm
  | around _ _ allowed _ => exact allowed.1
  | @call t u cs c sofar free alone ends ih =>
    have attended : Attended T (t.arrive c.id c.request c.drawn) c.id c.request c.drawn .arrived :=
      .arrive ih (sofar.idle start)
    have arrived := sofar.reaches.tail (.arrive c.id c.request c.drawn free)
    obtain ⟨last, -⟩ := attended.invariant arrived start (P := fun _ _ => True) alone trivial
      (fun _ _ _ _ => trivial) (fun _ _ _ _ => trivial) ends
    have finished : Effect u c.id ⟨c.request, c.drawn, .ending c.outcome⟩ none
        (u.finish c.id c.outcome) := .finished rfl
    exact finished.undisturbed last.calm last.current nofun

/-- **Any calls can be served one after another,** if only their names differ. -/
theorem Undisturbed.exists_serial (calm : Undisturbed T s) (start : s.Unused)
    {calls : List (CallId × Request × Uuid)} (differ : (calls.map Prod.fst).Nodup) :
    ∃ t cs, Serial (Calm T) s t cs ∧ cs.map Served.asked = calls := by
  induction calls using List.reverseRecOn with
  | nil => exact ⟨s, [], .start, rfl⟩
  | append_singleton calls call ih =>
    obtain ⟨id, request, drawn⟩ := call
    rw [List.map_append, List.nodup_append] at differ
    obtain ⟨differ, -, new⟩ := differ
    obtain ⟨t, cs, sofar, rfl⟩ := ih differ
    have free (r : Request) : .arrived id r ∉ t.history := by
      intro hm
      have old := sofar.mem_of_arrived start hm
      refine new id ?_ id List.mem_cons_self rfl
      rwa [List.map_map]
    have attended : Attended T (t.arrive id request drawn) id request drawn .arrived :=
      .arrive (sofar.undisturbed start calm) (sofar.idle start)
    obtain ⟨u, outcome, alone, ends⟩ :=
      attended.exists_ending (sofar.reaches.tail (.arrive id request drawn free)) start
    refine ⟨_, _, sofar.call (c := ⟨id, request, drawn, outcome⟩) free alone ends, ?_⟩
    rw [List.map_append]
    rfl

end Purse.Service
