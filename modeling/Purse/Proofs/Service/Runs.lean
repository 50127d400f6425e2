import Purse.Proofs.Service.Effect
import Purse.Proofs.Store.Memory

/-!
# Runs

`Reaches s t` says that a run leads from `s` to `t`. This module holds what is true of runs whatever
the service does in them: they compose, an invariant of every step is an invariant of every run
(`Reaches.invariant`), and carrying out a list of turns one after another makes a run
(`reaches_of_follow?`), so that particular runs can be computed.

A statement about a run speaks of a *moment*, a state that the run passes through. `Run s t us`
keeps these states, and `During us id P` says that at one of them the call `id` was in progress and
`P` held.
-/

namespace Purse.Service

variable {s t u v : State} {us : List State} {id : CallId}

/-- **A service that was not called yet.** Its store holds any rows that stores can hold, its cache
holds anything, and any number of permits may be held from outside. -/
structure State.Unused (s : State) : Prop where
  calls : ∀ id, s.calls.get? id = none
  history : s.history = []
  store : s.store.Sound
  gate : s.gate.Sound
  holders : ∀ id, .call id ∉ s.gate.holders
  waiting : ∀ id, .call id ∉ s.gate.waiting.map Waiter.who
  refreshLock : s.refreshLock = .open_
  rowLocks : ∀ wallet, s.rowLock wallet = .open_

theorem State.unused_initial {origin : Timestamp} {capacity : Nat} {timeout : Option Nat}
    {gate : Gate Party} {ttl : Nat} {threshold : Float} {source : RateSource}
    {conditions : StoreConditions} {sink : Sink} (h : Gate.create? capacity timeout = some gate) :
    (State.initial origin gate ttl threshold source conditions sink).Unused := by
  -- a gate that was just made has nobody at it
  have sound : gate.Sound ∧ gate.holders = [] ∧ gate.waiting = [] := by
    unfold Gate.create? at h
    split at h
    · obtain rfl := Option.some.inj h
      exact ⟨⟨Nat.zero_le _, fun hw => absurd rfl hw⟩, rfl, rfl⟩
    · cases h
  exact {
    calls := fun _ => rfl
    history := rfl
    store := .empty
    gate := sound.1
    holders := fun id hm => by simp [State.initial, sound.2.1] at hm
    waiting := fun id hm => by simp [State.initial, sound.2.2] at hm
    refreshLock := rfl
    rowLocks := fun _ => rfl }

namespace Reaches

theorem single (h : Step s t) : Reaches s t := .tail (.refl s) h

theorem trans (h : Reaches s t) (k : Reaches t u) : Reaches s u := by
  induction k with
  | refl => exact h
  | tail _ last ih => exact .tail ih last

/-- **An invariant of every step holds at the end of every run.** A step may use that the run passes
through the state where it begins. -/
theorem invariant {P : State → Prop} (h : Reaches s t) (start : P s)
    (step : ∀ u v, Reaches s u → P u → Step u v → P v) : P t := by
  induction h with
  | refl => exact start
  | tail before last ih => exact step _ _ before ih last

end Reaches

/-! ### Moments of a run -/

/-- A run from `s` to `t` through the states of the list, latest first, both ends among them. -/
inductive Run (s : State) : State → List State → Prop
  | start : Run s s [s]
  | next {t u : State} {us : List State} : Run s t us → Step t u → Run s u (u :: us)

theorem Run.reaches (h : Run s t us) : Reaches s t := by
  induction h with
  | start => exact .refl s
  | next _ last ih => exact .tail ih last

theorem Reaches.exists_run (h : Reaches s t) : ∃ us, Run s t us := by
  induction h with
  | refl => exact ⟨[s], .start⟩
  | tail _ last ih =>
    obtain ⟨us, run⟩ := ih
    exact ⟨_, run.next last⟩

/-- The first state of the list is the one that the run has come to. -/
theorem Run.eq_cons (h : Run s t us) : ∃ past, us = t :: past := by
  cases h with
  | start => exact ⟨[], rfl⟩
  | next => exact ⟨_, rfl⟩

theorem Run.mem_self (h : Run s t us) : t ∈ us := by
  obtain ⟨past, rfl⟩ := h.eq_cons
  exact List.mem_cons_self

/-- Every moment of a run is the end of a shorter run. -/
theorem Run.reaches_of_mem (h : Run s t us) (hu : u ∈ us) : Reaches s u := by
  induction h with
  | start =>
    obtain rfl := List.mem_singleton.1 hu
    exact .refl u
  | next before last ih =>
    rcases List.mem_cons.1 hu with rfl | hu
    · exact (before.next last).reaches
    · exact ih hu

/-- From every moment of a run its end is reached. -/
theorem Run.reaches_from_mem (h : Run s t us) (hu : u ∈ us) : Reaches u t := by
  induction h with
  | start =>
    obtain rfl := List.mem_singleton.1 hu
    exact .refl u
  | next before last ih =>
    rcases List.mem_cons.1 hu with rfl | hu
    · exact .refl u
    · exact .tail (ih hu) last

/-- At some moment of the run through the states, with the call in progress, `P` held. -/
def During (us : List State) (id : CallId) (P : State → Prop) : Prop :=
  ∃ u ∈ us, (∃ call, u.calls.get? id = some call) ∧ P u

/-! ### Runs that can be computed -/

/-- Whose turn it is in a run: a call moves on, or something happens from outside. -/
inductive Turn where
  | call (id : CallId)
  | outside (m : Move)

/-- Whether a call of this name ever arrived. -/
def State.isTaken (s : State) (id : CallId) : Bool :=
  s.history.any fun o => match o with | .arrived j _ => j = id | _ => false

/-- One turn; none if the call has to wait, or if a new call has a name that was used before. -/
def State.turn? (s : State) : Turn → Option State
  | .call id => s.step? id
  | .outside m =>
    match m with
    | .arrive id _ _ => if s.isTaken id then none else some (s.move m)
    | _ => some (s.move m)

/-- Turns carried out one after another. -/
def State.follow? (s : State) : List Turn → Option State
  | [] => some s
  | turn :: turns => (s.turn? turn).bind fun t => t.follow? turns

/-- The turn of a call that can move. -/
theorem State.follow?_call (moves : s.step? id = some t) (turns : List Turn) :
    s.follow? (.call id :: turns) = t.follow? turns := by
  rw [follow?, turn?, moves, Option.bind_some]

theorem State.not_mem_of_not_isTaken (h : ¬ s.isTaken id) (r : Request) :
    .arrived id r ∉ s.history := by
  intro hm
  refine h (List.any_eq_true.2 ⟨_, hm, ?_⟩)
  simp

theorem Step.of_turn? {turn : Turn} (h : s.turn? turn = some t) : Step s t := by
  cases turn with
  | call id => exact .call id h
  | outside m =>
    unfold State.turn? at h
    dsimp only at h
    split at h
    · next id request drawn =>
      split at h
      · cases h
      · next free =>
        obtain rfl := Option.some.inj h
        -- an arrival is a step only under a new name
        exact .arrive id request drawn (State.not_mem_of_not_isTaken free)
    · next other =>
      obtain rfl := Option.some.inj h
      exact .outside m fun id request drawn hm => other id request drawn hm

/-- A run with a step before it. -/
theorem Run.cons (first : Step s u) (h : Run u t us) : Run s t (us ++ [s]) := by
  induction h with
  | start => exact .next .start first
  | next _ last ih => exact .next ih last

/-- The states that turns lead through, the latest first. -/
def State.trail (s : State) : List Turn → List State
  | [] => [s]
  | turn :: turns =>
    match s.turn? turn with
    | some t => t.trail turns ++ [s]
    | none => [s]

/-- **Turns make a run** through the states that they lead through. -/
theorem Run.of_follow? {turns : List Turn} (h : s.follow? turns = some t) :
    Run s t (s.trail turns) := by
  induction turns generalizing s with
  | nil =>
    obtain rfl := Option.some.inj h
    exact .start
  | cons turn turns ih =>
    obtain ⟨u, first, rest⟩ := Option.bind_eq_some_iff.1 h
    rw [State.trail, first]
    exact (ih rest).cons (.of_turn? first)

/-- **What turns lead to, a run leads to.** -/
theorem reaches_of_follow? {turns : List Turn} (h : s.follow? turns = some t) : Reaches s t :=
  (Run.of_follow? h).reaches

/-- Turns carried out one after another go on with a run, and what they keep holds all along. -/
theorem Run.exists_follow {P : State → Prop} {turns : List Turn} (h : Run s u us)
    (holds : ∀ w ∈ us, P w) (follow : u.follow? turns = some t)
    (kept : ∀ {turn w x}, turn ∈ turns → w.turn? turn = some x → P w → P x) :
    ∃ vs, Run s t vs ∧ ∀ w ∈ vs, P w := by
  induction turns generalizing u us with
  | nil =>
    obtain rfl := Option.some.inj follow
    exact ⟨us, h, holds⟩
  | cons turn turns ih =>
    obtain ⟨v, first, rest⟩ := Option.bind_eq_some_iff.1 follow
    have now_ : P v := kept List.mem_cons_self first (holds u h.mem_self)
    refine ih (h.next (.of_turn? first)) (fun w hw => ?_) rest fun later =>
      kept (List.mem_cons_of_mem turn later)
    exact (List.mem_cons.1 hw).elim (fun same => same ▸ now_) (holds w)

/-! ### What a step adds to the history -/

namespace Occurrence

/-- The call that an occurrence is about. -/
def call? : Occurrence → Option CallId
  | arrived id _ | created id _ | read id _ | committed id _ _ | fetchStarted id _ => some id
  | published id _ _ _ | ended id _ | dropped id => some id
  | refreshed by_ _ _ => by_
  | noticed _ => none

/-- What a step of a call can add to the history: something about that call or about none, and no
arrival. -/
def IsNews (id : CallId) (o : Occurrence) : Prop :=
  (∀ j r, o ≠ .arrived j r) ∧ (o.call? = some id ∨ o.call? = none)

end Occurrence

/-- Whatever was added to the history on the way from `s` to `t` has the property. -/
def Adds (p : Occurrence → Prop) (s t : State) : Prop :=
  ∃ new, t.history = new ++ s.history ∧ ∀ o ∈ new, p o

namespace Adds

variable {p : Occurrence → Prop}

theorem nothing (h : t.history = s.history) : Adds p s t := ⟨[], h, by simp⟩

theorem one {o : Occurrence} (h : t.history = o :: s.history) (holds : p o) : Adds p s t :=
  ⟨[o], h, by simpa using holds⟩

theorem mono {q : Occurrence → Prop} (h : Adds p s t) (weaker : ∀ o, p o → q o) : Adds q s t := by
  obtain ⟨new, hnew, holds⟩ := h
  exact ⟨new, hnew, fun o ho => weaker o (holds o ho)⟩

theorem trans (h : Adds p s t) (k : Adds p t u) : Adds p s u := by
  obtain ⟨new, hnew, holds⟩ := h
  obtain ⟨newer, hnewer, holds'⟩ := k
  refine ⟨newer ++ new, by rw [hnewer, hnew, List.append_assoc], fun o ho => ?_⟩
  rcases List.mem_append.1 ho with ho | ho
  · exact holds' o ho
  · exact holds o ho

/-- What was added on the whole way was added before and after a state on the way. -/
theorem split (h : Adds p s u) (before : s.history <:+ t.history) (after : t.history <:+ u.history) :
    Adds p s t ∧ Adds p t u := by
  obtain ⟨all, hall, holds⟩ := h
  obtain ⟨old, hold⟩ := before
  obtain ⟨new, hnew⟩ := after
  have parts : all ++ s.history = (new ++ old) ++ s.history := by
    rw [← hall, ← hnew, ← hold, List.append_assoc]
  obtain rfl := List.append_cancel_right parts
  exact ⟨⟨old, hold.symm, fun o ho => holds o (List.mem_append_right _ ho)⟩,
    ⟨new, hnew.symm, fun o ho => holds o (List.mem_append_left _ ho)⟩⟩

/-- A choice of occurrences of which none were added is the same. -/
theorem filterMap_eq {α : Type} {f : Occurrence → Option α} (h : Adds (fun o => f o = none) s t) :
    t.history.filterMap f = s.history.filterMap f := by
  obtain ⟨new, hnew, none_⟩ := h
  rw [hnew, List.filterMap_append, List.filterMap_eq_nil_iff.2 none_, List.nil_append]

/-- Notices are all alike, whoever adds them and after what. -/
theorem noticed {ns : List Notice}
    (h : u.history = (ns.map Occurrence.noticed).reverse ++ t.history)
    (notices : ∀ n, p (.noticed n)) (before : Adds p s t) : Adds p s u := by
  obtain ⟨new, hnew, holds⟩ := before
  refine ⟨(ns.map Occurrence.noticed).reverse ++ new, by rw [h, hnew, List.append_assoc],
    fun o ho => ?_⟩
  rcases List.mem_append.1 ho with ho | ho
  · obtain ⟨n, -, rfl⟩ := List.mem_map.1 (List.mem_reverse.1 ho)
    exact notices n
  · exact holds o ho

end Adds

namespace State

variable {p : Occurrence → Prop} (notices : ∀ n, p (.noticed n))
include notices

theorem refreshCache_adds {by_ : Option CallId} {table : RateTable}
    (holds : p (.refreshed by_ s.clock table)) :
    Adds p s (s.refreshCache by_ table) :=
  Adds.noticed (t := s.record (.refreshed by_ s.clock table)) (refreshCache_history ..) notices
    (.one rfl holds)

theorem publish_adds {answer : Answer} {event : WalletEvent}
    (holds : p (.published id event.key event (s.refusal event))) :
    Adds p s (s.publish id answer event) :=
  Adds.noticed (t := s.record (.published id event.key event (s.refusal event)))
    (publish_history ..) notices (.one rfl holds)

theorem fail_adds {change : Change} {e : WalletError} : Adds p s (s.fail id change e) :=
  Adds.noticed (fail_history ..) notices (.nothing rfl)

end State

theorem Effect.history {call : Call} {next : Option Stage} (h : Effect s id call next t) :
    Adds (Occurrence.IsNews id) s t := by
  have notices (n : Notice) : (Occurrence.noticed n).IsNews id := ⟨by simp, .inr rfl⟩
  cases h with
  | created | read | asked | committed | finished => exact .one rfl ⟨by simp, .inl rfl⟩
  | refreshed => exact State.refreshCache_adds notices ⟨by simp, .inl rfl⟩
  | published => exact State.publish_adds notices ⟨by simp, .inl rfl⟩
  | broken | untaken | rejected => exact State.fail_adds notices
  | _ => exact .nothing rfl

/-! ### A step, seen from one call -/

/-- From `s` to `t` nothing is added to the history that is about the call. -/
def Quiet (id : CallId) (s t : State) : Prop := Adds (fun o => o.call? ≠ some id) s t

namespace Quiet

theorem refl (s : State) : Quiet id s s := Adds.nothing rfl

theorem trans (h : Quiet id s t) (k : Quiet id t u) : Quiet id s u := Adds.trans h k

theorem mem_iff (h : Quiet id s t) {o : Occurrence} (about : o.call? = some id) :
    o ∈ t.history ↔ o ∈ s.history := by
  obtain ⟨new, hnew, others⟩ := h
  rw [hnew, List.mem_append]
  -- what is new is about others
  exact ⟨fun ho => ho.resolve_left fun hn => others o hn about, .inr⟩

/-- A choice of occurrences of the call is the same before and after. -/
theorem filter_eq (h : Quiet id s t) {p : Occurrence → Bool}
    (about : ∀ o, p o → o.call? = some id) :
    t.history.filter p = s.history.filter p := by
  obtain ⟨new, hnew, others⟩ := h
  rw [hnew, List.filter_append, List.filter_eq_nil_iff.2 fun o ho hp => others o ho (about o hp)]
  rfl

end Quiet

namespace State

@[simp] theorem arrive_calls (s : State) (id j : CallId) (request : Request) (drawn : Uuid) :
    (s.arrive id request drawn).calls.get? j =
      if id = j then some ⟨request, drawn, .arrived⟩ else s.calls.get? j :=
  Table.get?_insert ..

theorem arrive_calls_self (s : State) (id : CallId) (request : Request) (drawn : Uuid) :
    (s.arrive id request drawn).calls.get? id = some ⟨request, drawn, .arrived⟩ := by
  rw [arrive_calls, if_pos rfl]

@[simp] theorem arrive_history (s : State) (id : CallId) (request : Request) (drawn : Uuid) :
    (s.arrive id request drawn).history = .arrived id request :: s.history := rfl

theorem drop_eq_of_gone (gone : s.calls.get? id = none) : s.drop id = s := by
  have h : s.calls.contains id = false := by simp [Table.contains, gone]
  simp [drop, h]

@[simp] theorem drop_calls (s : State) (id j : CallId) :
    (s.drop id).calls.get? j = if id = j then none else s.calls.get? j := by
  unfold drop
  split
  · exact Table.get?_erase ..
  · next h =>
    split
    · next hj =>
      subst hj
      simpa [Table.contains] using h
    · rfl

theorem drop_history {call : Call} (live : s.calls.get? id = some call) :
    (s.drop id).history = .dropped id :: s.history := by
  have h : s.calls.contains id := (Table.contains_iff ..).2 ⟨call, live⟩
  simp [drop, h]

end State

/-- **A step that is not one of the call:** another call moves, arrives or is given up, or something
happens around the service. -/
inductive Elsewhere (id : CallId) (s t : State) : Prop
  | moved {j : CallId} {call : Call} {next : Option Stage} (ne : id ≠ j)
      (effect : Effect s j call next t)
  | arrived {j : CallId} {request : Request} {drawn : Uuid} (ne : id ≠ j)
      (eq : t = s.arrive j request drawn)
  | dropped {j : CallId} {call : Call} (ne : id ≠ j) (live : s.calls.get? j = some call)
      (eq : t = s.drop j)
  | around {m : Move} (arrives : ∀ j request drawn, m ≠ .arrive j request drawn)
      (drops : ∀ j, m ≠ .drop j) (eq : t = s.move m)
  | idle (eq : t = s)

namespace Elsewhere

/-- The call stays where it is. -/
theorem calls (h : Elsewhere id s t) : t.calls.get? id = s.calls.get? id := by
  cases h with
  | moved ne effect => exact effect.calls_of_ne ne
  | arrived ne eq => rw [eq, State.arrive_calls, if_neg (Ne.symm ne)]
  | dropped ne live eq => rw [eq, State.drop_calls, if_neg (Ne.symm ne)]
  | @around m arrives drops eq =>
    subst eq
    cases m with
    | arrive j request drawn => exact absurd rfl (arrives j request drawn)
    | drop j => exact absurd rfl (drops j)
    | refreshCache table => exact congrArg (·.get? id) (State.refreshCache_calls ..)
    | _ => rfl
  | idle eq => rw [eq]

/-- Nothing is said of the call. -/
theorem quiet (h : Elsewhere id s t) : Quiet id s t := by
  cases h with
  | moved ne effect =>
    -- what another call adds is about that call, or about none
    obtain ⟨new, hnew, news⟩ := effect.history
    refine ⟨new, hnew, fun o ho about => ?_⟩
    rcases (news o ho).2 with h | h
    · exact ne (Option.some.inj (about.symm.trans h))
    · cases about.symm.trans h
  | arrived ne eq =>
    subst eq
    exact Adds.one rfl fun about => ne (Option.some.inj about).symm
  | dropped ne live eq =>
    subst eq
    exact Adds.one (State.drop_history live) fun about => ne (Option.some.inj about).symm
  | @around m arrives drops eq =>
    subst eq
    cases m with
    | arrive j request drawn => exact absurd rfl (arrives j request drawn)
    | drop j => exact absurd rfl (drops j)
    | refreshCache table => exact State.refreshCache_adds (fun _ => nofun) nofun
    | _ => exact .refl s
  | idle eq =>
    subst eq
    exact .refl t

end Elsewhere

/-- **How one step looks to one call:** it is a step of that call, its arrival, or its being given
up, or it is elsewhere. -/
inductive Seen (id : CallId) (s t : State) : Prop
  | moved {call : Call} {next : Option Stage} (live : s.calls.get? id = some call)
      (moves : s.step? id = some t) (effect : Effect s id call next t)
  | arrived {request : Request} {drawn : Uuid} (free : ∀ r, .arrived id r ∉ s.history)
      (eq : t = s.arrive id request drawn)
  | dropped {call : Call} (live : s.calls.get? id = some call) (eq : t = s.drop id)
  | elsewhere (apart : Elsewhere id s t)

/-- Every step looks like one of these to every call. -/
theorem Step.seen (h : Step s t) (id : CallId) : Seen id s t := by
  cases h with
  | call j moves =>
    obtain ⟨call, live, next, effect⟩ := State.step?_effect moves
    by_cases hj : id = j
    · subst hj
      exact .moved live moves effect
    · exact .elsewhere (.moved hj effect)
  | arrive j request drawn free =>
    by_cases hj : id = j
    · subst hj
      exact .arrived free rfl
    · exact .elsewhere (.arrived hj rfl)
  | outside m other =>
    by_cases drops : ∃ j, m = .drop j
    · obtain ⟨j, rfl⟩ := drops
      -- giving up a call that is not there changes nothing
      cases live : s.calls.get? j with
      | none => exact .elsewhere (.idle (State.drop_eq_of_gone live))
      | some call =>
        by_cases hj : id = j
        · subst hj
          exact .dropped live rfl
        · exact .elsewhere (.dropped hj live rfl)
    · exact .elsewhere (.around other (fun j hm => drops ⟨j, hm⟩) rfl)

/-- The history only grows. -/
theorem Seen.history (h : Seen id s t) : ∃ new, t.history = new ++ s.history := by
  cases h with
  | moved live moves effect =>
    obtain ⟨new, hnew, -⟩ := effect.history
    exact ⟨new, hnew⟩
  | arrived free eq =>
    subst eq
    exact ⟨[_], rfl⟩
  | dropped live eq =>
    subst eq
    exact ⟨[_], State.drop_history live⟩
  | elsewhere apart =>
    obtain ⟨new, hnew, -⟩ := apart.quiet
    exact ⟨new, hnew⟩

namespace Reaches

/-- A history only grows. -/
theorem suffix_history (h : Reaches s t) : s.history <:+ t.history := by
  refine h.invariant (P := fun u => s.history <:+ u.history) (List.suffix_refl _)
    fun u v _ hu step => ?_
  obtain ⟨new, hn⟩ := (step.seen 0).history
  exact hu.trans ⟨new, hn.symm⟩

theorem mem_history (h : Reaches s t) {o : Occurrence} (ho : o ∈ s.history) : o ∈ t.history :=
  h.suffix_history.subset ho

end Reaches

/-- A run from `s` to `t` takes a step from `u` to `v` when it has passed through the states of
`past`. -/
structure Passes (s t : State) (us past : List State) (u v : State) : Prop where
  before : Run s u past
  step : Step u v
  after : Reaches v t
  suffix : v :: past <:+ us

namespace Passes

variable {past : List State}

theorem later (h : Passes s t us past u v) : Reaches u t := (Reaches.single h.step).trans h.after

/-- The two states follow one another in the run. -/
theorem isInfix (h : Passes s t us past u v) : [v, u] <:+: us := by
  obtain ⟨rest, rfl⟩ := h.before.eq_cons
  exact (List.prefix_append [v, u] rest).isInfix.trans h.suffix.isInfix

/-- A run that goes on has taken the same steps. -/
theorem tail (h : Passes s t us past u v) {w : State} (last : Step t w) :
    Passes s w (w :: us) past u v :=
  ⟨h.before, h.step, h.after.tail last, h.suffix.trans (List.suffix_cons w us)⟩

/-- The step starts at a moment of the run. -/
theorem mem (h : Passes s t us past u v) : u ∈ us :=
  h.suffix.subset (List.mem_cons_of_mem v h.before.mem_self)

/-- Of two steps that a run takes, one comes before the other unless they are the same. -/
theorem before_or_after {past' : List State} {u' v' : State} (h : Passes s t us past u v)
    (k : Passes s t us past' u' v') :
    past' = past ∨ Reaches v u' ∨ Reaches v' u := by
  rcases List.suffix_or_suffix_of_suffix h.suffix k.suffix with hk | kh
  · rcases List.suffix_cons_iff.1 hk with same | earlier
    · exact .inl (List.cons.inj same).2.symm
    · exact .inr (.inl (k.before.reaches_from_mem (earlier.subset List.mem_cons_self)))
  · rcases List.suffix_cons_iff.1 kh with same | earlier
    · exact .inl (List.cons.inj same).2
    · exact .inr (.inr (h.before.reaches_from_mem (earlier.subset List.mem_cons_self)))

end Passes

namespace Run

/-- **What happened, happened in a step** of the run. -/
theorem happened {o : Occurrence} (h : Run s t us) (start : o ∉ s.history) (ho : o ∈ t.history) :
    ∃ past u v, Passes s t us past u v ∧ o ∉ u.history ∧ o ∈ v.history := by
  induction h with
  | start => exact absurd ho start
  | @next w x ws run last ih =>
    -- the step is the last one, or it is among those before it
    by_cases hw : o ∈ w.history
    · obtain ⟨past, u, v, passes, was, is⟩ := ih hw
      exact ⟨past, u, v, passes.tail last, was, is⟩
    · exact ⟨ws, w, x, ⟨run, last, .refl x, List.suffix_refl _⟩, hw, ho⟩

/-- **An invariant from one step of the run on:** what holds after the step, and is kept by all
steps that the run takes later, holds at the end. -/
theorem invariant_after {P : State → Prop} {past : List State} (h : Run s t us)
    (passes : Passes s t us past u v) (start : P v)
    (step : ∀ {ws w x}, Passes s t us ws w x → Reaches v w → P w → P x) : P t := by
  induction h with
  | start =>
    -- a run without steps takes none
    obtain ⟨rest, rfl⟩ := passes.before.eq_cons
    have short := passes.suffix.length_le
    simp at short
  | @next w x ws before last ih =>
    rcases List.suffix_cons_iff.1 passes.suffix with same | earlier
    · obtain ⟨rfl, -⟩ := List.cons.inj same
      exact start
    · have mid : Reaches v w := before.reaches_from_mem (earlier.subset List.mem_cons_self)
      refine step ⟨before, last, .refl x, List.suffix_refl _⟩ mid ?_
      exact ih ⟨passes.before, passes.step, mid, earlier⟩ fun inner => step (inner.tail last)

/-- **An invariant of the calls in progress:** what holds of a call that has just arrived, stays
true while others move, and stays true when the call itself goes to another stage, holds of every
call in progress. It may speak of all moments up to now. -/
theorem calls_invariant {Q : List State → State → CallId → Call → Prop} (h : Run s t us)
    (start : s.Unused)
    (arrived : ∀ {us u id request drawn}, Run s u us → (∀ r, .arrived id r ∉ u.history) →
      Q (u.arrive id request drawn :: us) (u.arrive id request drawn) id
        ⟨request, drawn, .arrived⟩)
    (apart : ∀ {us u v id call}, Run s u us → Step u v → Quiet id u v → Q us u id call →
      Q (v :: us) v id call)
    (moved : ∀ {us u v id call stage}, Run s u us → Step u v → u.calls.get? id = some call →
      Q us u id call → Effect u id call (some stage) v → Q (v :: us) v id { call with stage }) :
    ∀ {id call}, t.calls.get? id = some call → Q us t id call := by
  intro id call live
  induction h generalizing call with
  | start =>
    rw [start.calls] at live
    cases live
  | @next u v us before step holds =>
    -- a call that is in progress now has just moved, has just arrived, or was left alone
    cases step.seen id with
    | moved was moves effect =>
      rw [effect.calls_self was] at live
      obtain ⟨stage, rfl, rfl⟩ := Option.map_eq_some_iff.1 live
      exact moved before step was (holds was) effect
    | arrived free eq =>
      subst eq
      rw [State.arrive_calls, if_pos rfl] at live
      obtain rfl := Option.some.inj live
      exact arrived before free
    | dropped was eq =>
      subst eq
      rw [State.drop_calls, if_pos rfl] at live
      cases live
    | elsewhere away => exact apart before step away.quiet (holds (away.calls ▸ live))

end Run

/-- Likewise for an invariant that speaks of the present only. -/
theorem Reaches.calls_invariant {Q : State → CallId → Call → Prop} (h : Reaches s t)
    (start : s.Unused)
    (arrived : ∀ {u id request drawn}, Reaches s u → (∀ r, .arrived id r ∉ u.history) →
      Q (u.arrive id request drawn) id ⟨request, drawn, .arrived⟩)
    (apart : ∀ {u v id call}, Reaches s u → Step u v → Quiet id u v → Q u id call → Q v id call)
    (moved : ∀ {u v id call stage}, Reaches s u → Step u v → u.calls.get? id = some call →
      Q u id call → Effect u id call (some stage) v → Q v id { call with stage }) :
    ∀ {id call}, t.calls.get? id = some call → Q t id call := by
  obtain ⟨us, run⟩ := h.exists_run
  exact run.calls_invariant (Q := fun _ => Q) start (fun before => arrived before.reaches)
    (fun before => apart before.reaches) fun before => moved before.reaches

/-- A call that arrives in one of the turns is in the history of what they lead to. -/
theorem arrived_of_follow? {turns : List Turn} {r : Request} {drawn : Uuid}
    (h : s.follow? turns = some t) (hm : .outside (.arrive id r drawn) ∈ turns) :
    .arrived id r ∈ t.history := by
  induction turns generalizing s with
  | nil => cases hm
  | cons turn turns ih =>
    obtain ⟨u, first, rest⟩ := Option.bind_eq_some_iff.1 h
    -- the arrival is in the first turn, and stays in the history, or it is in a later one
    rcases List.mem_cons.1 hm with rfl | later
    · refine (reaches_of_follow? rest).mem_history ?_
      unfold State.turn? at first
      dsimp only at first
      split at first
      · cases first
      · obtain rfl := Option.some.inj first
        exact List.mem_cons_self
    · exact ih rest later

/-! ### Time -/

namespace State

@[simp] theorem notice_clock (s : State) (ns : List Notice) : (s.notice ns).clock = s.clock := by
  rw [notice_eq]

@[simp] theorem goto_clock (s : State) (id : CallId) (stage : Stage) :
    (s.goto id stage).clock = s.clock := rfl

@[simp] theorem refreshCache_clock (s : State) (by_ : Option CallId) (table : RateTable) :
    (s.refreshCache by_ table).clock = s.clock := notice_clock ..

@[simp] theorem fail_clock (s : State) (id : CallId) (change : Change) (e : WalletError) :
    (s.fail id change e).clock = s.clock := notice_clock ..

@[simp] theorem publish_clock (s : State) (id : CallId) (answer : Answer) (event : WalletEvent) :
    (s.publish id answer event).clock = s.clock := by
  rw [publish_eq]
  exact notice_clock ..

@[simp] theorem drop_clock (s : State) (id : CallId) : (s.drop id).clock = s.clock := by
  unfold drop
  split <;> rfl

end State

/-- Calls take no time. -/
theorem Effect.clock_eq {call : Call} {next : Option Stage} (h : Effect s id call next t) :
    t.clock = s.clock := by
  cases h with
  | refreshed => exact State.refreshCache_clock ..
  | broken | untaken | rejected => exact State.fail_clock ..
  | published => exact State.publish_clock ..
  | _ => rfl

theorem Step.clock_le (h : Step s t) : s.clock ≤ t.clock := by
  cases h with
  | call id moves =>
    obtain ⟨call, -, next, effect⟩ := State.step?_effect moves
    exact Nat.le_of_eq effect.clock_eq.symm
  | arrive => exact Nat.le_refl _
  | outside m other =>
    cases m with
    | tick ms => exact Nat.le_add_right ..
    | drop id => exact Nat.le_of_eq (State.drop_clock ..).symm
    | refreshCache table => exact Nat.le_of_eq (State.refreshCache_clock ..).symm
    | _ => exact Nat.le_refl _

/-- **Time never goes back.** -/
theorem Reaches.clock_le (h : Reaches s t) : s.clock ≤ t.clock :=
  h.invariant (P := fun u => s.clock ≤ u.clock) (Nat.le_refl _) fun _ _ _ sofar step =>
    Nat.le_trans sofar step.clock_le

end Purse.Service
