import Purse.Proofs.Service.Records

/-!
# Calls one after another

In a sequential run nobody calls while another call is in progress, and no call is given up. `Serial`
builds such runs from whole calls, each of which goes on `Alone` from its arrival to its end; around
them time passes and things change as far as `may` allows it. It keeps a list of the calls, with what
they asked for and how they ended.

A sequential run is a run (`Serial.reaches`), between its calls nobody is in the service
(`Serial.idle`), and during a call nothing is said of anybody else (`Alone.adds`). Sequential runs
can be computed (`Serial.serveAll?`).
-/

namespace Purse.Service

variable {s t u : State} {id j : CallId} {r : Request} {drawn : Uuid} {outcome : Outcome} {m : Move}
  {may may' : State → Move → Prop}

/-- Whether the move is about no call. -/
def Move.isAround : Move → Bool
  | .arrive .. | .drop _ => false
  | _ => true

/-- A call that was served: what it asked for, the identifier drawn for it, and how it ended. -/
structure Served where
  id : CallId
  request : Request
  drawn : Uuid
  outcome : Outcome

/-- What was asked for, under which name and with which identifier. -/
def Served.asked (c : Served) : CallId × Request × Uuid := (c.id, c.request, c.drawn)

/-- **A call goes on alone:** it moves, or something happens around the service. -/
inductive Alone (may : State → Move → Prop) (id : CallId) (s : State) : State → Prop
  | start : Alone may id s s
  | moved {t u : State} : Alone may id s t → t.step? id = some u → Alone may id s u
  | around {t : State} {m : Move} : Alone may id s t → m.isAround → may t m →
      Alone may id s (t.move m)

/-- **A sequential run,** with the calls that were served in it, in order. -/
inductive Serial (may : State → Move → Prop) (s : State) : State → List Served → Prop
  | start : Serial may s s []
  | around {t : State} {cs : List Served} {m : Move} : Serial may s t cs → m.isAround → may t m →
      Serial may s (t.move m) cs
  | call {t u : State} {cs : List Served} {c : Served} : Serial may s t cs →
      (∀ r, .arrived c.id r ∉ t.history) → Alone may c.id (t.arrive c.id c.request c.drawn) u →
      u.calls.get? c.id = some ⟨c.request, c.drawn, .ending c.outcome⟩ →
      Serial may s (u.finish c.id c.outcome) (cs ++ [c])

/-! ### What happens around the service -/

theorem Step.of_isAround (h : m.isAround) : Step s (s.move m) := by
  refine .outside m ?_
  rintro id r drawn rfl
  cases h

theorem Elsewhere.of_isAround (h : m.isAround) : Elsewhere id s (s.move m) := by
  refine .around ?_ ?_ rfl
  · rintro j r drawn rfl
    cases h
  · rintro j rfl
    cases h

/-- Of no call anything is said. -/
theorem State.move_adds (h : m.isAround) : Adds (fun o => o.call? = none) s (s.move m) := by
  cases m with
  | arrive | drop => cases h
  | refreshCache table => exact State.refreshCache_adds (fun _ => rfl) rfl
  | _ => exact .nothing rfl

theorem State.move_calls (h : m.isAround) : (s.move m).calls = s.calls := by
  cases m with
  | arrive | drop => cases h
  | refreshCache table => exact State.refreshCache_calls ..
  | _ => rfl

/-! ### A call alone -/

namespace Alone

theorem mono (h : Alone may id s t) (weaker : ∀ u m, may u m → may' u m) : Alone may' id s t := by
  induction h with
  | start => exact .start
  | moved _ moves ih => exact ih.moved moves
  | around _ apart allowed ih => exact ih.around apart (weaker _ _ allowed)

theorem trans (h : Alone may id s t) (k : Alone may id t u) : Alone may id s u := by
  induction k with
  | start => exact h
  | moved _ moves ih => exact ih.moved moves
  | around _ apart allowed ih => exact ih.around apart allowed

theorem reaches (h : Alone may id s t) : Reaches s t := by
  induction h with
  | start => exact .refl s
  | moved _ moves ih => exact ih.tail (.call id moves)
  | around _ apart _ ih => exact ih.tail (.of_isAround apart)

/-- Others stand where they stood. -/
theorem calls_of_ne (h : Alone may id s t) (ne : j ≠ id) :
    t.calls.get? j = s.calls.get? j := by
  induction h with
  | start => rfl
  | moved _ moves ih =>
    obtain ⟨call, -, next, effect⟩ := State.step?_effect moves
    exact (effect.calls_of_ne ne).trans ih
  | around _ apart _ ih => exact (congrArg (·.get? j) (State.move_calls apart)).trans ih

/-- The call keeps its request and its identifier. -/
theorem exists_stage {call : Call} (h : Alone may id s t)
    (was : ∃ stage, s.calls.get? id = some ⟨r, drawn, stage⟩) (live : t.calls.get? id = some call) :
    ∃ stage, call = ⟨r, drawn, stage⟩ := by
  induction h generalizing call with
  | start =>
    obtain ⟨stage, was⟩ := was
    exact ⟨stage, Option.some.inj (live.symm.trans was)⟩
  | moved _ moves ih =>
    obtain ⟨before, live', next, effect⟩ := State.step?_effect moves
    obtain ⟨stage, rfl⟩ := ih live'
    rw [effect.calls_self live'] at live
    obtain ⟨stage', -, rfl⟩ := Option.map_eq_some_iff.1 live
    exact ⟨stage', rfl⟩
  | around _ apart _ ih => exact ih (State.move_calls apart ▸ live)

/-- **Nothing is said of anybody else,** and nobody arrives. -/
theorem adds (h : Alone may id s t) : Adds (Occurrence.IsNews id) s t := by
  induction h with
  | start => exact .nothing rfl
  | moved _ moves ih =>
    obtain ⟨call, -, next, effect⟩ := State.step?_effect moves
    exact ih.trans effect.history
  | around _ apart _ ih =>
    refine ih.trans ((State.move_adds apart).mono fun o about => ⟨?_, .inr about⟩)
    rintro j r rfl
    cases about

end Alone

/-! ### A sequential run -/

namespace Serial

variable {cs ds : List Served}

theorem mono (h : Serial may s t cs) (weaker : ∀ u m, may u m → may' u m) :
    Serial may' s t cs := by
  induction h with
  | start => exact .start
  | around _ apart allowed ih => exact ih.around apart (weaker _ _ allowed)
  | call _ free alone ends ih => exact ih.call free (alone.mono weaker) ends

/-- The run up to the last call, the call, and its end. -/
theorem reaches_call {c : Served} (free : ∀ r, .arrived c.id r ∉ t.history)
    (alone : Alone may c.id (t.arrive c.id c.request c.drawn) u) : Reaches t u :=
  (Reaches.single (.arrive c.id c.request c.drawn free)).trans alone.reaches

theorem step_finish {c : Served} (ends : u.calls.get? c.id = some ⟨c.request, c.drawn, .ending c.outcome⟩) :
    Step u (u.finish c.id c.outcome) :=
  .call c.id ((Effect.finished rfl).step?_eq ends)

theorem reaches (h : Serial may s t cs) : Reaches s t := by
  induction h with
  | start => exact .refl s
  | around _ apart _ ih => exact ih.tail (.of_isAround apart)
  | call _ free alone ends ih => exact (ih.trans (reaches_call free alone)).tail (step_finish ends)

/-- **Between the calls nobody is in the service.** -/
theorem idle (h : Serial may s t cs) (start : s.Unused) (id : CallId) :
    t.calls.get? id = none := by
  induction h with
  | start => exact start.calls id
  | around _ apart _ ih => rw [State.move_calls apart, ih]
  | @call t u cs c _ free alone ends ih =>
    rw [State.finish_calls]
    by_cases same : c.id = id
    · rw [if_pos same]
    · rw [if_neg same, alone.calls_of_ne (Ne.symm same), State.arrive_calls, if_neg same, ih]

/-- Only the calls that were served have arrived. -/
theorem mem_of_arrived (h : Serial may s t cs) (start : s.Unused)
    (hm : .arrived j r ∈ t.history) : j ∈ cs.map Served.id := by
  induction h with
  | start =>
    rw [start.history] at hm
    cases hm
  | @around t cs m _ apart _ ih =>
    obtain ⟨new, history, about⟩ := State.move_adds (s := t) apart
    rw [history] at hm
    rcases List.mem_append.1 hm with hm | hm
    · cases about _ hm
    · exact ih hm
  | @call t u cs c _ _ alone _ ih =>
    obtain ⟨new, history, news⟩ := alone.adds
    rw [State.finish_history, history] at hm
    rw [List.map_append]
    rcases List.mem_cons.1 hm with hm | hm
    · cases hm
    rcases List.mem_append.1 hm with hm | hm
    · exact absurd rfl ((news _ hm).1 j r)
    rcases List.mem_cons.1 hm with hm | hm
    · cases hm
      exact List.mem_append_right _ List.mem_cons_self
    · exact List.mem_append_left _ (ih hm)

theorem arrived_of_mem {c : Served} (h : Serial may s t cs) (hm : c ∈ cs) :
    .arrived c.id c.request ∈ t.history := by
  induction h with
  | start => cases hm
  | around _ apart _ ih => exact (Reaches.single (.of_isAround apart)).mem_history (ih hm)
  | call sofar free alone ends ih =>
    refine (Reaches.single (step_finish ends)).mem_history ?_
    rcases List.mem_append.1 hm with hm | hm
    · exact (reaches_call free alone).mem_history (ih hm)
    · obtain rfl := List.mem_singleton.1 hm
      exact alone.reaches.mem_history List.mem_cons_self

/-- **No name is used twice.** -/
theorem nodup_ids (h : Serial may s t cs) : (cs.map Served.id).Nodup := by
  induction h with
  | start => exact .nil
  | around _ _ _ ih => exact ih
  | @call t u cs c sofar free _ _ ih =>
    rw [List.map_append, List.nodup_append]
    refine ⟨ih, List.pairwise_singleton .., fun j hj j' hj' same => ?_⟩
    obtain ⟨d, hd, rfl⟩ := List.mem_map.1 hj
    obtain rfl : j' = c.id := List.mem_singleton.1 hj'
    exact free d.request (same ▸ sofar.arrived_of_mem hd)

end Serial

/-! ### Sequential runs that can be computed -/

/-- The call moves on until it is about to end. -/
def State.endAlone? (s : State) (id : CallId) : (fuel : Nat) → Option (State × Outcome)
  | 0 => none
  | fuel + 1 =>
    match (s.calls.get? id).map Call.stage with
    | some (.ending outcome) => some (s, outcome)
    | some _ => (s.step? id).bind fun t => t.endAlone? id fuel
    | none => none

/-- A call from its arrival to its end, if it never has to wait. -/
def State.serve? (s : State) (id : CallId) (request : Request) (drawn : Uuid) :
    Option (State × Served) :=
  if s.isTaken id then none
  else ((s.arrive id request drawn).endAlone? id 15).map fun e =>
    (e.1.finish id e.2, ⟨id, request, drawn, e.2⟩)

/-- Calls one after another. -/
def State.serveAll? (s : State) : List (CallId × Request × Uuid) → Option (State × List Served)
  | [] => some (s, [])
  | (id, request, drawn) :: rest =>
    (s.serve? id request drawn).bind fun e =>
      (e.1.serveAll? rest).map fun e' => (e'.1, e.2 :: e'.2)

theorem Alone.of_endAlone? {fuel : Nat} (h : s.endAlone? id fuel = some (t, outcome)) :
    Alone may id s t ∧ ∃ call, t.calls.get? id = some call ∧ call.stage = .ending outcome := by
  induction fuel generalizing s with
  | zero => cases h
  | succ fuel ih =>
    unfold State.endAlone? at h
    split at h
    · next at_ =>
      cases h
      exact ⟨.start, Option.map_eq_some_iff.1 at_⟩
    · obtain ⟨u, moves, rest⟩ := Option.bind_eq_some_iff.1 h
      obtain ⟨way, ends⟩ := ih rest
      exact ⟨(Alone.start.moved moves).trans way, ends⟩
    · cases h

/-- **Calls that are computed one after another** go on with a sequential run. -/
theorem Serial.serveAll? {cs : List Served} {calls : List (CallId × Request × Uuid)}
    {e : State × List Served} (h : Serial may s t cs) (serves : t.serveAll? calls = some e) :
    Serial may s e.1 (cs ++ e.2) := by
  induction calls generalizing t cs e with
  | nil =>
    cases serves
    rwa [List.append_nil]
  | cons call rest ih =>
    obtain ⟨id, request, drawn⟩ := call
    obtain ⟨⟨v, c⟩, first, serves⟩ := Option.bind_eq_some_iff.1 serves
    obtain ⟨e', later, rfl⟩ := Option.map_eq_some_iff.1 serves
    rw [List.append_cons]
    refine ih ?_ later
    unfold State.serve? at first
    split at first
    · cases first
    · next free =>
      obtain ⟨⟨w, outcome⟩, ends, same⟩ := Option.map_eq_some_iff.1 first
      cases same
      obtain ⟨alone, call, live, at_⟩ : Alone may id _ w ∧ _ := Alone.of_endAlone? ends
      obtain ⟨stage, rfl⟩ := alone.exists_stage ⟨.arrived, State.arrive_calls_self ..⟩ live
      obtain rfl : stage = .ending outcome := at_
      exact h.call (c := ⟨id, request, drawn, outcome⟩) (State.not_mem_of_not_isTaken free) alone
        live

/-- Calls that are computed from the start are a sequential run. -/
theorem serial_of_serveAll? {calls : List (CallId × Request × Uuid)} {e : State × List Served}
    (serves : s.serveAll? calls = some e) : Serial may s e.1 e.2 :=
  Serial.start.serveAll? serves

/-- The calls that are served are those that were asked for. -/
theorem State.asked_serveAll? {calls : List (CallId × Request × Uuid)} {e : State × List Served}
    (h : s.serveAll? calls = some e) : e.2.map Served.asked = calls := by
  induction calls generalizing s e with
  | nil =>
    cases h
    rfl
  | cons call rest ih =>
    obtain ⟨id, request, drawn⟩ := call
    obtain ⟨⟨u, c⟩, first, h⟩ := Option.bind_eq_some_iff.1 h
    obtain ⟨e', later, rfl⟩ := Option.map_eq_some_iff.1 h
    have asked : c.asked = (id, request, drawn) := by
      unfold State.serve? at first
      split at first
      · cases first
      · obtain ⟨e, -, same⟩ := Option.map_eq_some_iff.1 first
        cases same
        rfl
    rw [List.map_cons, asked, ih later]

end Purse.Service
