import Purse.Proofs.Service.Runs

/-!
# Services that differ in a farewell

What the service does next depends on its history in two ways only: a receiver of events may look at
how many were offered, and the name of a new call must not have been used. So two states that are
the same but for what a call has left in the history on its way out (`Alike`) go on in the same way:
whatever turns are taken, the one can take them exactly if the other can, and they are alike again
(`Alike.follow?`).

A step adds the same to any history, whoever receives the events, unless it offers one
(`Effect.retold`). That is where the steps are gone through. What every turn keeps of two states,
runs keep (`State.rel_follow?`).
-/

namespace Purse.Service

variable {s t : State} {id j : CallId} {call : Call} {next : Option Stage}
  {h k l new : List Occurrence}

/-! ### Steps on another history -/

namespace State

/-- The state with another history. -/
def withHistory (s : State) (h : List Occurrence) : State := { s with history := h }

/-- The state with another receiver of events and another history. -/
def retold (s : State) (sink : Sink) (h : List Occurrence) : State := { s with sink, history := h }

variable (s : State) (sink : Sink) (h : List Occurrence)

theorem notice_retold (ns : List Notice) :
    (s.retold sink h).notice ns =
      (s.notice ns).retold sink ((ns.map Occurrence.noticed).reverse ++ h) := by
  rw [notice_eq, notice_eq]
  rfl

theorem refreshCache_retold (by_ : Option CallId) (table : RateTable) :
    (s.retold sink h).refreshCache by_ table =
      (s.refreshCache by_ table).retold sink
        (((Notice.ofTable table).map Occurrence.noticed).reverse ++
          .refreshed by_ s.clock table :: h) := by
  unfold refreshCache
  rw [notice_eq, notice_eq]
  rfl

theorem fail_retold (id : CallId) (change : Change) (e : WalletError) :
    (s.retold sink h).fail id change e =
      (s.fail id change e).retold sink
        (((Notice.ofFailure change.kind e).map Occurrence.noticed).reverse ++ h) :=
  congrArg (·.goto id (.ending (.error e))) (notice_retold ..)

end State

/-- **A step adds the same to any history,** whoever receives the events, unless it offers one. -/
theorem Effect.retold (effect : Effect s id call next t) (sink : Sink) (k : List Occurrence) :
    (∃ new, t.history = new ++ s.history ∧ t.sink = s.sink ∧
      Effect (s.retold sink k) id call next (t.retold sink (new ++ k))) ∨
    ∃ answer event, call.stage = .publishing answer event ∧ next = some (.ending (.ok answer)) ∧
      t = s.publish id answer event := by
  cases effect with
  | published at_ => exact .inr ⟨_, _, at_, rfl, rfl⟩
  | created at_ asks made => exact .inl ⟨[_], rfl, rfl, .created at_ asks made⟩
  | uncreated at_ asks fails => exact .inl ⟨[], rfl, rfl, .uncreated at_ asks fails⟩
  | viewed at_ asks => exact .inl ⟨[], rfl, rfl, .viewed at_ asks⟩
  | sought at_ asks => exact .inl ⟨[], rfl, rfl, .sought at_ asks⟩
  | invalid at_ asks => exact .inl ⟨[], rfl, rfl, .invalid at_ asks⟩
  | queued at_ asks => exact .inl ⟨[], rfl, rfl, .queued at_ asks⟩
  | admitted at_ holds => exact .inl ⟨[], rfl, rfl, .admitted at_ holds⟩
  | timedOut at_ holds overdue => exact .inl ⟨[], rfl, rfl, .timedOut at_ holds overdue⟩
  | located at_ for_ there => exact .inl ⟨[], rfl, rfl, .located at_ for_ there⟩
  | unlocated at_ for_ fails => exact .inl ⟨[], rfl, rfl, .unlocated at_ for_ fails⟩
  | read at_ turn there => exact .inl ⟨[_], rfl, rfl, .read at_ turn there⟩
  | vanished at_ turn gone => exact .inl ⟨[], rfl, rfl, .vanished at_ turn gone⟩
  | found at_ finds => exact .inl ⟨[], rfl, rfl, .found at_ finds⟩
  | missed at_ misses => exact .inl ⟨[], rfl, rfl, .missed at_ misses⟩
  | foundLate at_ turn finds => exact .inl ⟨[], rfl, rfl, .foundLate at_ turn finds⟩
  | asked at_ turn misses => exact .inl ⟨[_], rfl, rfl, .asked at_ turn misses⟩
  | answered at_ ready replies => exact .inl ⟨[], rfl, rfl, .answered at_ ready replies⟩
  | unanswered at_ ready replies => exact .inl ⟨[], rfl, rfl, .unanswered at_ ready replies⟩
  | served at_ finds => exact .inl ⟨[], rfl, rfl, .served at_ finds⟩
  | unserved at_ misses => exact .inl ⟨[], rfl, rfl, .unserved at_ misses⟩
  | taken at_ ready works there => exact .inl ⟨[], rfl, rfl, .taken at_ ready works there⟩
  | committed at_ turn done => exact .inl ⟨[_], rfl, rfl, .committed at_ turn done⟩
  | silent at_ small => exact .inl ⟨[], rfl, rfl, .silent at_ small⟩
  | announced at_ large => exact .inl ⟨[], rfl, rfl, .announced at_ large⟩
  | finished at_ => exact .inl ⟨[_], rfl, rfl, .finished at_⟩
  -- the ways that write notices
  | refreshed at_ =>
    have way : Effect (s.retold sink k) id call _ _ := .refreshed at_
    rw [State.refreshCache_retold, List.append_cons] at way
    exact .inl ⟨_, (State.refreshCache_history ..).trans (List.append_cons ..),
      State.refreshCache_sink .., way⟩
  | broken at_ ready fails =>
    have way : Effect (s.retold sink k) id call _ _ := .broken at_ ready fails
    rw [State.fail_retold] at way
    exact .inl ⟨_, State.fail_history .., State.fail_sink .., way⟩
  | untaken at_ ready works gone =>
    have way : Effect (s.retold sink k) id call _ _ := .untaken at_ ready works gone
    rw [State.fail_retold] at way
    exact .inl ⟨_, State.fail_history .., State.fail_sink .., way⟩
  | @rejected wallet change e at_ turn fails =>
    have way : Effect (s.retold sink k) id call _ _ := .rejected at_ turn fails
    have same := (s.withRowLock wallet (·.withdraw id)).fail_retold sink k id change e
    exact .inl ⟨_, State.fail_history .., State.fail_sink .., same ▸ way⟩

/-- Moves from outside never look at the history, except that a call must be there to be given up,
and never at the receiver. -/
theorem State.move_retold (s : State) (sink : Sink) (k : List Occurrence) {m : Move}
    (keeps : ∀ sink, m ≠ .setSink sink) :
    ∃ new, (s.move m).history = new ++ s.history ∧ (s.move m).sink = s.sink ∧
      (s.retold sink k).move m = (s.move m).retold sink (new ++ k) := by
  cases m with
  | setSink sink => exact absurd rfl (keeps sink)
  | arrive id request drawn => exact ⟨[_], rfl, rfl, rfl⟩
  | drop id =>
    cases live : s.calls.get? id with
    | none =>
      have gone : (s.retold sink k).calls.get? id = none := live
      rw [State.move, State.drop_eq_of_gone live, State.move, State.drop_eq_of_gone gone]
      exact ⟨[], rfl, rfl, rfl⟩
    | some call =>
      have there : s.calls.contains id := (Table.contains_iff ..).2 ⟨call, live⟩
      have there' : (s.retold sink k).calls.contains id := there
      rw [State.move, State.drop, if_pos there, State.move, State.drop, if_pos there']
      exact ⟨[_], rfl, rfl, rfl⟩
  | refreshCache table =>
    refine ⟨_, (State.refreshCache_history ..).trans (List.append_cons ..),
      State.refreshCache_sink .., ?_⟩
    rw [State.move, State.refreshCache_retold, List.append_cons]
    rfl
  | _ => exact ⟨[], rfl, rfl, rfl⟩

/-! ### Services that go on alike -/

section Rel

variable {R : State → State → Prop}

/-- States are related that a step leads to, if each of two states can follow the other. -/
theorem State.rel_step? {s t : State} (j : CallId)
    (forth : ∀ s', s.step? j = some s' → ∃ t', t.step? j = some t' ∧ R s' t')
    (back : ∀ t', t.step? j = some t' → (s.step? j).isSome) :
    Option.Rel R (s.step? j) (t.step? j) := by
  cases hs : s.step? j with
  | some s' =>
    obtain ⟨t', ht, related⟩ := forth s' hs
    rw [ht]
    exact .some related
  | none =>
    cases ht : t.step? j with
    | some t' =>
      have moves := back t' ht
      rw [hs] at moves
      cases moves
    | none => exact .none

/-- **What every turn keeps, any number of turns keeps:** the one state can take them exactly if the
other can, and where they lead to is related again. -/
theorem State.rel_follow? (keeps : ∀ {s t : State} (turn : Turn), R s t →
      Option.Rel R (s.turn? turn) (t.turn? turn))
    {s t : State} (related : R s t) (turns : List Turn) :
    Option.Rel R (s.follow? turns) (t.follow? turns) := by
  induction turns generalizing s t with
  | nil => exact .some related
  | cons turn turns ih =>
    unfold State.follow?
    have first := keeps turn related
    generalize s.turn? turn = next at first ⊢
    generalize t.turn? turn = next' at first ⊢
    cases first with
    | none => exact .none
    | some related => exact ih related

end Rel

/-! ### Farewells -/

/-- What a call may leave in the history on its way out, if it does nothing else: a row that it read,
and that it ended or was given up. Notices are not told apart. -/
def Occurrence.IsFarewell (id : CallId) : Occurrence → Prop
  | read j _ | ended j _ | dropped j => j = id
  | noticed _ => True
  | _ => False

/-- Two histories that differ in one place, in what the call has left there. -/
def SameRecord (id : CallId) (h k : List Occurrence) : Prop :=
  ∃ later a b before, h = later ++ (a ++ before) ∧ k = later ++ (b ++ before) ∧
    (∀ o ∈ a, o.IsFarewell id) ∧ ∀ o ∈ b, o.IsFarewell id

namespace SameRecord

theorem symm (r : SameRecord id h k) : SameRecord id k h := by
  obtain ⟨later, a, b, before, hh, hk, ha, hb⟩ := r
  exact ⟨later, b, a, before, hk, hh, hb, ha⟩

theorem append (r : SameRecord id h k) (new : List Occurrence) :
    SameRecord id (new ++ h) (new ++ k) := by
  obtain ⟨later, a, b, before, rfl, rfl, ha, hb⟩ := r
  exact ⟨new ++ later, a, b, before, by rw [List.append_assoc], by rw [List.append_assoc], ha, hb⟩

/-- What no farewell is occurs as often in both. -/
theorem countP_eq (r : SameRecord id h k) {p : Occurrence → Bool}
    (apart : ∀ o, o.IsFarewell id → p o = false) : h.countP p = k.countP p := by
  have none_ {a : List Occurrence} (ha : ∀ o ∈ a, o.IsFarewell id) : a.countP p = 0 :=
    List.countP_eq_zero.2 fun o ho hp => Bool.false_ne_true ((apart o (ha o ho)).symm.trans hp)
  obtain ⟨later, a, b, before, rfl, rfl, ha, hb⟩ := r
  simp only [List.countP_append, none_ ha, none_ hb]

end SameRecord

/-- **The same state, up to what the call has left in the history** on its way out. -/
structure Alike (id : CallId) (s t : State) : Prop where
  same : t = s.withHistory t.history
  record : SameRecord id s.history t.history

namespace Alike

/-- The receiver is the same. -/
theorem retold_eq (a : Alike id s t) : s.retold s.sink t.history = t := a.same.symm

theorem symm (a : Alike id s t) : Alike id t s where
  same := by
    rw [a.same]
    rfl
  record := a.record.symm

/-- As many events were offered. -/
theorem offered_eq (a : Alike id s t) : t.offered = s.offered := by
  refine (a.record.countP_eq fun o farewell => ?_).symm
  cases o with
  | published => exact farewell.elim
  | _ => rfl

/-- The same names were used. -/
theorem isTaken_eq (a : Alike id s t) (j : CallId) : t.isTaken j = s.isTaken j := by
  unfold State.isTaken
  rw [Bool.eq_iff_iff, List.any_eq_true, List.any_eq_true, ← List.countP_pos_iff,
    ← List.countP_pos_iff, a.record.countP_eq]
  intro o farewell
  cases o with
  | arrived => exact farewell.elim
  | _ => rfl

/-- What adds the same to both keeps them alike. -/
theorem extend {s' t' : State} (a : Alike id s t) {new : List Occurrence}
    (adds : s'.history = new ++ s.history) (same : t' = s'.retold s'.sink (new ++ t.history)) :
    Alike id s' t' where
  same := by
    rw [same]
    rfl
  record := by
    rw [same, adds]
    exact a.record.append new

/-- The receiver is offered the same event, since as many were offered before. -/
theorem publish (a : Alike id s t) (j : CallId) (answer : Answer) (event : WalletEvent) :
    Alike id (s.publish j answer event) (t.publish j answer event) := by
  have offers := a.offered_eq
  have sink : t.sink = s.sink := by rw [a.same]; rfl
  have refusal : t.refusal event = s.refusal event := by
    unfold State.refusal
    rw [offers, sink]
  have notices : t.publishNotices event = s.publishNotices event := by
    unfold State.publishNotices
    rw [refusal]
  refine a.extend ((State.publish_history ..).trans (List.append_cons ..)) ?_
  rw [State.publish_eq, State.publish_eq, refusal, notices, offers, sink, State.notice_eq,
    State.notice_eq, ← a.retold_eq]
  simp [State.retold, State.goto, State.record]

/-! ### Alike services go on alike -/

theorem step?_eq_some {s' : State} (a : Alike id s t) (moves : s.step? j = some s') :
    ∃ t', t.step? j = some t' ∧ Alike id s' t' := by
  obtain ⟨call, live, next, effect⟩ := State.step?_effect moves
  have live' : t.calls.get? j = some call := by
    rw [a.same]
    exact live
  rcases effect.retold s.sink t.history with
    ⟨new, adds, sink, effect'⟩ | ⟨answer, event, at_, rfl, rfl⟩
  · rw [a.retold_eq] at effect'
    exact ⟨_, effect'.step?_eq live', a.extend adds (by rw [sink])⟩
  · exact ⟨_, (Effect.published at_).step?_eq live', a.publish j answer event⟩

theorem move (a : Alike id s t) (m : Move) : Alike id (s.move m) (t.move m) := by
  by_cases changes : ∃ sink, m = .setSink sink
  · obtain ⟨sink, rfl⟩ := changes
    refine a.extend (show s.history = [] ++ s.history from rfl) ?_
    rw [a.same]
    rfl
  · obtain ⟨new, adds, sink, same⟩ := s.move_retold s.sink t.history (m := m)
      fun sink hm => changes ⟨sink, hm⟩
    rw [a.retold_eq] at same
    exact a.extend adds (by rw [same, sink])

theorem turn? (a : Alike id s t) (turn : Turn) :
    Option.Rel (Alike id) (s.turn? turn) (t.turn? turn) := by
  cases turn with
  | call j =>
    refine State.rel_step? j (fun s' => a.step?_eq_some) fun t' moves => ?_
    obtain ⟨s', moves', -⟩ := a.symm.step?_eq_some moves
    exact Option.isSome_iff_exists.2 ⟨s', moves'⟩
  | outside m =>
    unfold State.turn?
    cases m with
    | arrive j request drawn =>
      dsimp only
      rw [a.isTaken_eq]
      split
      · exact .none
      · exact .some (a.move _)
    | _ => exact .some (a.move _)

/-- **Alike services go on alike,** whatever turns are taken. -/
theorem follow? (a : Alike id s t) (turns : List Turn) :
    Option.Rel (Alike id) (s.follow? turns) (t.follow? turns) :=
  State.rel_follow? (fun turn a => a.turn? turn) a turns

end Alike

end Purse.Service
