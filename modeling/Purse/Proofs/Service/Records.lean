import Purse.Proofs.Service.Runs

/-!
# What the history says of a call

`Recorded` ties the history to the table of calls, for one call at a time: a call in progress has
arrived with the request it carries, a name is used once, nothing is said of a call before it
arrived, and a call that has ended is gone. All four hold of a service that was not called yet and
are kept by every step (`Recorded.step`), so that a request can be read off the history as well as
off the call.

From them follows where the words about a call come from. What is said of it, it did itself in one
of its steps (`Run.did`). It ended in a step of its own, and nothing was said of it from then on
(`Run.ended`).
-/

namespace Purse.Service

variable {s t : State} {us : List State} {id : CallId} {call : Call} {next : Option Stage}
  {r : Request} {outcome : Outcome}

/-- A step records the end of a call only by ending that call. -/
theorem Effect.ended (h : Effect s id call next t) (hm : .ended id outcome ∈ t.history) :
    .ended id outcome ∈ s.history ∨ call.stage = .ending outcome ∧ t = s.finish id outcome := by
  cases h with
  | finished at_ =>
    -- only the last step of a call records an end
    rcases List.mem_cons.1 hm with hm | hm
    · cases hm
      exact .inr ⟨at_, rfl⟩
    · exact .inl hm
  | _ => exact .inl (by simpa using hm)

/-! ### The invariant -/

/-- **The history and the calls agree** about the call. -/
structure Recorded (s : State) (id : CallId) : Prop where
  /-- A call in progress has arrived, with its request. -/
  arrived_of_live : ∀ {call}, s.calls.get? id = some call → .arrived id call.request ∈ s.history
  /-- A name is used once. -/
  arrived_unique : ∀ {r r'}, .arrived id r ∈ s.history → .arrived id r' ∈ s.history → r = r'
  /-- Nothing is said of a call before it arrived. -/
  arrived_of_mem : ∀ {o}, o ∈ s.history → o.call? = some id → ∃ r, .arrived id r ∈ s.history
  /-- A call that has ended is gone. -/
  gone_of_ended : ∀ {outcome}, .ended id outcome ∈ s.history → s.calls.get? id = none

theorem State.Unused.recorded (h : s.Unused) (id : CallId) : Recorded s id where
  arrived_of_live live := by rw [h.calls] at live; cases live
  arrived_unique hm := by rw [h.history] at hm; cases hm
  arrived_of_mem hm := by rw [h.history] at hm; cases hm
  gone_of_ended hm := by rw [h.history] at hm; cases hm

theorem Recorded.moved (h : Recorded s id) (live : s.calls.get? id = some call)
    (e : Effect s id call next t) :
    Recorded t id := by
  obtain ⟨new, hnew, news⟩ := e.history
  have old {o : Occurrence} (ho : o ∈ s.history) : o ∈ t.history :=
    hnew ▸ List.mem_append_right _ ho
  -- no arrival is among what the step adds
  have arrival {r : Request} (hm : .arrived id r ∈ t.history) : .arrived id r ∈ s.history := by
    rw [hnew] at hm
    exact (List.mem_append.1 hm).resolve_left fun hn => (news _ hn).1 id r rfl
  have told := h.arrived_of_live live
  refine ⟨fun {later} hl => ?_, fun ha hb => h.arrived_unique (arrival ha) (arrival hb),
    fun _ _ => ⟨_, old told⟩, fun {outcome} hm => ?_⟩
  · rw [e.calls_self live] at hl
    obtain ⟨stage, -, rfl⟩ := Option.map_eq_some_iff.1 hl
    exact old told
  · rcases e.ended hm with hm | ⟨-, rfl⟩
    -- an end that was recorded before would have taken the call off the table
    · rw [h.gone_of_ended hm] at live
      cases live
    · simp

theorem Recorded.arrived (h : Recorded s id) {drawn : Uuid}
    (free : ∀ r, .arrived id r ∉ s.history) : Recorded (s.arrive id r drawn) id := by
  -- nothing was said of the name before, so the arrival is all that is said of it now
  have only {o : Occurrence} (ho : o ∈ (s.arrive id r drawn).history) (about : o.call? = some id) :
      o = .arrived id r := by
    refine (List.mem_cons.1 ho).resolve_right fun hs => ?_
    obtain ⟨r', hr'⟩ := h.arrived_of_mem hs about
    exact free r' hr'
  refine ⟨fun {later} hl => ?_, fun ha hb => ?_, fun _ _ => ⟨r, List.mem_cons_self⟩, fun hm => ?_⟩
  · rw [State.arrive_calls, if_pos rfl] at hl
    obtain rfl := Option.some.inj hl
    exact List.mem_cons_self
  · cases only ha rfl
    cases only hb rfl
    rfl
  · cases only hm rfl

theorem Recorded.dropped (h : Recorded s id) (live : s.calls.get? id = some call) :
    Recorded (s.drop id) id := by
  -- that it was given up is all that is new
  have arrival {r : Request} (hm : .arrived id r ∈ (s.drop id).history) :
      .arrived id r ∈ s.history := by
    rw [State.drop_history live] at hm
    exact (List.mem_cons.1 hm).resolve_left nofun
  have gone : (s.drop id).calls.get? id = none := by simp
  refine ⟨fun hl => ?_, fun ha hb => h.arrived_unique (arrival ha) (arrival hb),
    fun _ _ => ⟨call.request, ?_⟩, fun _ => gone⟩
  · rw [gone] at hl
    cases hl
  · rw [State.drop_history live]
    exact List.mem_cons_of_mem _ (h.arrived_of_live live)

theorem Recorded.step (h : Recorded s id) (step : Step s t) : Recorded t id := by
  cases step.seen id with
  | moved live moves effect => exact h.moved live effect
  | arrived free eq => exact eq ▸ h.arrived free
  | dropped live eq => exact eq ▸ h.dropped live
  | elsewhere apart =>
    have quiet := apart.quiet
    refine ⟨fun hl => (quiet.mem_iff rfl).2 (h.arrived_of_live (apart.calls ▸ hl)),
      fun ha hb => h.arrived_unique ((quiet.mem_iff rfl).1 ha) ((quiet.mem_iff rfl).1 hb),
      fun ho about => ?_,
      fun hm => apart.calls ▸ h.gone_of_ended ((quiet.mem_iff rfl).1 hm)⟩
    obtain ⟨r, hr⟩ := h.arrived_of_mem ((quiet.mem_iff about).1 ho) about
    exact ⟨r, (quiet.mem_iff rfl).2 hr⟩

theorem Reaches.recorded (h : Reaches s t) (start : s.Unused) (id : CallId) : Recorded t id :=
  h.invariant (start.recorded id) fun _ _ _ => Recorded.step

/-- **A call carries the request that it arrived with** at every moment. -/
theorem Reaches.request_eq {u : State} (h : Reaches s t) (start : s.Unused)
    (asked : .arrived id r ∈ t.history) (before : Reaches s u) (live : u.calls.get? id = some call)
    (after : Reaches u t) : r = call.request := by
  have told := (before.recorded start id).arrived_of_live live
  exact (h.recorded start id).arrived_unique asked (after.mem_history told)

/-! ### Who says what -/

/-- **What is said of a call, it did itself,** its arrival and its being given up apart. -/
theorem Run.did {o : Occurrence} (h : Run s t us) (start : s.Unused) (ho : o ∈ t.history)
    (about : o.call? = some id) (other : ∀ r, o ≠ .arrived id r) (kept : o ≠ .dropped id) :
    ∃ past u v call next, Passes s t us past u v ∧ u.calls.get? id = some call ∧
      u.step? id = some v ∧ Effect u id call next v ∧ o ∉ u.history ∧ o ∈ v.history := by
  -- of the steps that say something of the call, only its own can have said this
  obtain ⟨past, u, v, passes, was, is⟩ := h.happened (by simp [start.history]) ho
  cases passes.step.seen id with
  | moved live moves effect => exact ⟨past, u, v, _, _, passes, live, moves, effect, was, is⟩
  | arrived free eq =>
    subst eq
    rcases List.mem_cons.1 is with is | is
    · exact absurd is (other _)
    · exact absurd is was
  | dropped live eq =>
    subst eq
    rw [State.drop_history live] at is
    rcases List.mem_cons.1 is with is | is
    · exact absurd is kept
    · exact absurd is was
  | elsewhere apart => exact absurd ((apart.quiet.mem_iff about).1 is) was

/-- After its end nothing is said of a call. -/
theorem Reaches.quiet_of_ended {u : State} (h : Reaches s t) (start : s.Unused) (k : Reaches t u)
    (hm : .ended id outcome ∈ t.history) : Quiet id t u := by
  refine k.invariant (P := fun v => Quiet id t v) (.refl t) fun v w mid sofar step => ?_
  have record := (h.trans mid).recorded start id
  have ended : .ended id outcome ∈ v.history := (sofar.mem_iff rfl).2 hm
  -- a call that is gone does not move, and its name is not used again
  have gone := record.gone_of_ended ended
  cases step.seen id with
  | moved live => cases gone.symm.trans live
  | arrived free =>
    obtain ⟨r, hr⟩ := record.arrived_of_mem ended rfl
    exact absurd hr (free r)
  | dropped live => cases gone.symm.trans live
  | elsewhere apart => exact sofar.trans apart.quiet

/-- **The end of a call:** it stood at its last stage with the outcome, ended in a step of its own,
and nothing was said of it from then on. -/
theorem Run.ended (h : Run s t us) (start : s.Unused) (hm : .ended id outcome ∈ t.history) :
    ∃ past u call, Passes s t us past u (u.finish id outcome) ∧ u.calls.get? id = some call ∧
      call.stage = .ending outcome ∧ Quiet id (u.finish id outcome) t := by
  obtain ⟨past, u, v, call, next, passes, live, moves, effect, was, is⟩ :=
    h.did start hm rfl (by simp) (by simp)
  rcases effect.ended is with old | ⟨at_, rfl⟩
  · exact absurd old was
  · have now_ : Reaches s (u.finish id outcome) := passes.before.reaches.tail passes.step
    exact ⟨past, u, call, passes, live, at_, now_.quiet_of_ended start passes.after is⟩

end Purse.Service
