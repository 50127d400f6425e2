import Purse.Proofs.Service.Deeds
import Purse.Proofs.Service.Linearization

/-!
# The order of events

An event is offered after the commit that it tells of and before its call ends
(`Reaches.mem_committers_of_publishers`, `Reaches.mem_filterMap_of_ended`). Between the commit and
the event the call holds nothing: the lock of the row went back with the commit, and the permit goes
back before the event is offered. So calls that follow one another offer their events in the order
of their commits (`Reaches.orderly`). Calls that overlap need not, not even for one user, and the
gate does not prevent it: of two deposits into one wallet the one that was committed later can be
the one that is told of first (`not_forall_publishesBefore`).
-/

namespace Purse.Service

variable {s t u : State} {id a b : CallId} {outcome : Outcome}

namespace State

/-- The calls whose changes were committed, the latest first. -/
def committers (s : State) : List CallId :=
  s.history.filterMap fun o => match o with | .committed id _ _ => some id | _ => none

/-- The calls whose events were offered, the latest first. -/
def publishers (s : State) : List CallId :=
  s.history.filterMap fun o => match o with | .published id _ _ _ => some id | _ => none

/-- The change of `a` was committed before that of `b`. -/
def CommitsBefore (s : State) (a b : CallId) : Prop := [b, a].Sublist s.committers

/-- The event of `a` was offered before that of `b`. -/
def PublishesBefore (s : State) (a b : CallId) : Prop := [b, a].Sublist s.publishers

instance : Decidable (s.CommitsBefore a b) := inferInstanceAs (Decidable ([b, a].Sublist _))

instance : Decidable (s.PublishesBefore a b) := inferInstanceAs (Decidable ([b, a].Sublist _))

theorem mem_committers_of_committed {change : Change} {row : Wallet}
    (h : .committed id change row ∈ s.history) : id ∈ s.committers :=
  List.mem_filterMap.2 ⟨_, h, rfl⟩

theorem published_of_mem_publishers (h : id ∈ s.publishers) :
    ∃ key event refusal, .published id key event refusal ∈ s.history := by
  obtain ⟨o, ho, about⟩ := List.mem_filterMap.1 h
  cases o with
  | published j key event refusal =>
    obtain rfl := Option.some.inj about
    exact ⟨key, event, refusal, ho⟩
  | _ => cases about

end State

/-! ### What comes before and after an event -/

namespace Reaches

/-- The history at the end of a run is that at its start with something before it. -/
theorem history_append (h : Reaches s t) : ∃ new, t.history = new ++ s.history := by
  refine h.invariant (P := fun u => ∃ new, u.history = new ++ s.history) ⟨[], rfl⟩
    fun u v _ sofar step => ?_
  obtain ⟨new, hnew⟩ := sofar
  obtain ⟨newer, hnewer⟩ := (step.seen 0).history
  exact ⟨newer ++ new, by rw [hnewer, hnew, List.append_assoc]⟩

/-- **An event comes after the commit that it tells of.** -/
theorem mem_committers_of_publishers (h : Reaches s t) (start : s.Unused)
    (offered : id ∈ t.publishers) : id ∈ t.committers := by
  obtain ⟨key, event, refusal, hm⟩ := State.published_of_mem_publishers offered
  obtain ⟨us, run⟩ := h.exists_run
  obtain ⟨past, u, v, call, next, passes, live, -, effect, was, is⟩ :=
    run.did start hm rfl (by simp) (by simp)
  have done := passes.before.reaches.done start live
  cases effect with
  | @published answer event at_ =>
    rw [at_] at done
    -- the commit is the one deed that a call has behind it when it publishes
    obtain ⟨change, row, -, -, deeds⟩ := done
    have entered : .committed id change row ∈ u.deeds id := by
      rw [deeds]
      exact List.mem_singleton_self _
    have hm := passes.later.mem_history (State.mem_deeds.1 entered).1
    exact State.mem_committers_of_committed hm
  | _ => exact absurd (by simpa using is) was

section

-- `f` tells of an occurrence which call it comes from, if it is of the kind in question
variable {f : Occurrence → Option CallId}

/-- **Nothing comes after the end of its call.** -/
theorem mem_filterMap_of_ended (h : Reaches s t) (start : s.Unused)
    (own : ∀ {o}, f o = some id → o.call? = some id) (ended : .ended id outcome ∈ t.history)
    (k : Reaches t u) (hm : id ∈ u.history.filterMap f) : id ∈ t.history.filterMap f := by
  obtain ⟨o, ho, about⟩ := List.mem_filterMap.1 hm
  have quiet := h.quiet_of_ended start k ended
  exact List.mem_filterMap.2 ⟨o, (quiet.mem_iff (own about)).1 ho, about⟩

/-- What one call does before it ends comes before what another one has yet to do then. -/
theorem sublist_of_ended (h : Reaches s t) (start : s.Unused)
    (own : ∀ {o}, f o = some a → o.call? = some a) (ended : .ended a outcome ∈ t.history)
    (k : Reaches t u) (yet : b ∉ t.history.filterMap f) (ha : a ∈ u.history.filterMap f)
    (hb : b ∈ u.history.filterMap f) : [b, a].Sublist (u.history.filterMap f) := by
  have old := h.mem_filterMap_of_ended start own ended k ha
  obtain ⟨new, history⟩ := k.history_append
  rw [history, List.filterMap_append] at hb ⊢
  have fresh := (List.mem_append.1 hb).resolve_right yet
  exact (List.singleton_sublist.2 fresh).append (List.singleton_sublist.2 old)

end

end Reaches

/-- **Calls that follow one another** commit and publish in the order in which they are made: if the
one has ended when the change of the other is not committed yet, then its commit and its event come
before those of the other. -/
theorem Reaches.orderly (h : Reaches s t) (start : s.Unused)
    (ended : .ended a outcome ∈ t.history) (yet : b ∉ t.committers) (k : Reaches t u) :
    (a ∈ u.committers → b ∈ u.committers → u.CommitsBefore a b) ∧
      (a ∈ u.publishers → b ∈ u.publishers → u.PublishesBefore a b) := by
  constructor
  · refine h.sublist_of_ended start (fun {o} about => ?_) ended k yet
    cases o <;> cases about
    rfl
  · have yet' : b ∉ t.publishers := fun offered =>
      yet (h.mem_committers_of_publishers start offered)
    refine h.sublist_of_ended start (fun {o} about => ?_) ended k yet'
    cases o <;> cases about
    rfl

/-- Whether the call has ended with an answer. -/
def State.hasAnswered (s : State) (id : CallId) : Bool :=
  s.history.any fun o => match o with | .ended j (.ok _) => j = id | _ => false

theorem State.mem_of_hasAnswered (h : s.hasAnswered id) :
    ∃ answer, .ended id (.ok answer) ∈ s.history := by
  obtain ⟨o, ho, matches_⟩ := List.any_eq_true.1 h
  split at matches_
  · obtain rfl : _ = id := by simpa using matches_
    exact ⟨_, ho⟩
  · cases matches_

theorem State.hasAnswered_of_mem {answer : Answer} (h : .ended id (.ok answer) ∈ s.history) :
    s.hasAnswered id :=
  List.any_eq_true.2 ⟨_, h, decide_eq_true rfl⟩

/-- A deposit that is worth an event, from start to end. -/
def depositing (id : CallId) (amount : Float) (drawn : Uuid) : List Turn :=
  .outside (.arrive id (.deposit (.ofNat 1) "USD" amount) drawn) :: List.replicate 9 (.call id)

/-- A wallet is created and a deposit made into it. -/
def starting : List Turn :=
  .outside (.arrive 0 (.create (.ofNat 1)) (.ofNat 2)) :: .call 0 :: .call 0 ::
    depositing 1 40000.0 (.ofNat 3)

set_option maxRecDepth 10000 in
theorem isSome_starting : (vacant.follow? starting).isSome := by decide +kernel

/-- The service after one deposit. -/
def started : State := (vacant.follow? starting).get isSome_starting

set_option maxRecDepth 10000 in
theorem isSome_continuing : (started.follow? (depositing 2 50000.0 (.ofNat 4))).isSome := by
  decide +kernel

/-- The service after another one. -/
def continued : State := (started.follow? (depositing 2 50000.0 (.ofNat 4))).get isSome_continuing

/-- Of two deposits that follow one another the first is told of first. -/
theorem orderly_continued : continued.PublishesBefore 1 2 := by
  have first : Reaches vacant started := reaches_of_follow? (Option.some_get _).symm
  have second : Reaches started continued := reaches_of_follow? (Option.some_get _).symm
  obtain ⟨answer, ended⟩ := State.mem_of_hasAnswered (show started.hasAnswered 1 by decide +kernel)
  exact (first.orderly unused_vacant ended (by decide +kernel) second).2 (by decide +kernel)
    (by decide +kernel)

/-! ### Events that overtake each other -/

/-- Two deposits of one user, both worth an event. The first is committed; then the second is
carried out from start to end, and only then the event of the first is offered. -/
def inverting : List Turn :=
  let user := Uuid.ofNat 1
  let turns (id : CallId) (n : Nat) : List Turn := List.replicate n (.call id)
  .outside (.arrive 0 (.create user) (.ofNat 2)) :: turns 0 2 ++
  .outside (.arrive 1 (.deposit user "USD" 40000.0) (.ofNat 3)) :: turns 1 6 ++
  .outside (.arrive 2 (.deposit user "USD" 50000.0) (.ofNat 4)) :: turns 2 9 ++
  turns 1 3

set_option maxRecDepth 10000 in
theorem isSome_inverting : (vacant.follow? inverting).isSome := by decide +kernel

/-- The service after the two deposits. -/
def inverted : State := (vacant.follow? inverting).get isSome_inverting

theorem follow?_inverting : vacant.follow? inverting = some inverted := (Option.some_get _).symm

/-- **Events of one user need not be published in the order of the commits:** not for calls that
overlap. -/
theorem not_forall_publishesBefore : ¬ ∀ (s t : State) (a b : CallId) (user : Uuid) (q r : Request),
    s.Unused → 2 ≤ s.gate.capacity → Reaches s t →
    .arrived a q ∈ t.history → .arrived b r ∈ t.history →
    q.user? = some user → r.user? = some user →
    ¬ q.amount < s.threshold → ¬ r.amount < s.threshold →
    t.CommitsBefore a b → a ∈ t.publishers → b ∈ t.publishers → t.PublishesBefore a b := by
  intro ordered
  have first : Turn.outside (.arrive 1 (.deposit (.ofNat 1) "USD" 40000.0) (.ofNat 3)) ∈
      inverting := by simp [inverting]
  have second : Turn.outside (.arrive 2 (.deposit (.ofNat 1) "USD" 50000.0) (.ofNat 4)) ∈
      inverting := by simp [inverting]
  have before : inverted.PublishesBefore 1 2 :=
    ordered vacant inverted 1 2 (.ofNat 1) _ _ unused_vacant (by decide)
      (reaches_of_follow? follow?_inverting) (arrived_of_follow? follow?_inverting first)
      (arrived_of_follow? follow?_inverting second) rfl rfl (by decide +kernel) (by decide +kernel)
      (by decide +kernel) (by decide +kernel) (by decide +kernel)
  exact absurd before (by decide +kernel)

end Purse.Service
