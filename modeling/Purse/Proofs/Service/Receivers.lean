import Purse.Proofs.Service.Alike

/-!
# What the receiver of events cannot do

Whether an event is received shows in the history, as a reason why it was refused and as a notice of
the refusal, and nowhere else. `State.muted` is what is left of a state if one does not listen to the
receiver. Two services that are the same to such a listener go on in the same way, each with its own
receiver (`State.muted_follow?`): receivers can be replaced at any time, and refuse whatever they
want, and every call ends as it would have ended (`Indistinct`).
-/

namespace Purse.Service

variable {s t s' t' : State} {id : CallId} {turns turns' : List Turn}

/-- What is left of an occurrence if one does not listen to the receiver: not whether an event was
refused. -/
def Occurrence.muted? : Occurrence → Option Occurrence
  | published id key event _ => some (published id key event none)
  | noticed (.publishFailed ..) => none
  | o => some o

/-- What was offered to the receiver. -/
def Occurrence.publication? : Occurrence → Option Published
  | published _ key event _ => some (key, event)
  | _ => none

namespace State

/-- What is left of a state if one does not listen to the receiver. -/
def muted (s : State) : State := s.retold .accepting (s.history.filterMap Occurrence.muted?)

/-- Two states that are the same but for the receiver are one state, told in two ways. -/
theorem retold_of_muted (same : s.muted = t.muted) : s.retold t.sink t.history = t :=
  congrArg (·.retold t.sink t.history) same

/-- What adds the same to both keeps them the same. -/
theorem muted_retold (same : s.muted = t.muted) {new : List Occurrence}
    (adds : s'.history = new ++ s.history) :
    s'.muted = (s'.retold t.sink (new ++ t.history)).muted := by
  have before : s.history.filterMap Occurrence.muted? = t.history.filterMap Occurrence.muted? :=
    congrArg State.history same
  unfold muted
  rw [adds, List.filterMap_append, before, ← List.filterMap_append]
  rfl

/-- An event that is offered is offered to whoever receives it. -/
theorem muted_publish (answer : Answer) (event : WalletEvent) :
    (s.publish id answer event).muted =
      (s.muted.record (.published id event.key event none)).goto id (.ending (.ok answer)) := by
  have quiet : ((s.publishNotices event).map Occurrence.noticed).reverse.filterMap
      Occurrence.muted? = [] := by
    unfold publishNotices
    cases s.refusal event <;> rfl
  unfold muted
  rw [publish_history, List.filterMap_append, quiet, publish_eq, notice_eq]
  rfl

/-! ### One turn -/

theorem muted_step? {j : CallId} (same : s.muted = t.muted) (moves : s.step? j = some s') :
    ∃ t', t.step? j = some t' ∧ s'.muted = t'.muted := by
  obtain ⟨call, live, next, effect⟩ := State.step?_effect moves
  have calls : s.muted.calls = t.muted.calls := congrArg State.calls same
  have live : t.calls.get? j = some call := congrArg (·.get? j) calls ▸ live
  rcases effect.retold t.sink t.history with
    ⟨new, adds, -, effect'⟩ | ⟨answer, event, at_, rfl, rfl⟩
  · rw [retold_of_muted same] at effect'
    exact ⟨_, effect'.step?_eq live, muted_retold same adds⟩
  · refine ⟨_, (Effect.published at_).step?_eq live, ?_⟩
    rw [muted_publish, muted_publish, same]

/-- The same names were used. -/
theorem isTaken_of_muted (same : s.muted = t.muted) (j : CallId) : s.isTaken j = t.isTaken j := by
  have heard (u : State) : u.muted.isTaken j = u.isTaken j := by
    unfold isTaken muted retold
    dsimp only
    rw [List.any_filterMap]
    refine congrArg (fun f => u.history.any f) (funext fun o => ?_)
    cases o with
    | noticed n => cases n <;> rfl
    | _ => rfl
  rw [← heard s, ← heard t, same]

theorem muted_move (same : s.muted = t.muted) (m : Move) : (s.move m).muted = (t.move m).muted := by
  by_cases replaces : ∃ sink, m = .setSink sink
  · obtain ⟨sink, rfl⟩ := replaces
    exact same
  · obtain ⟨new, adds, -, moved⟩ := s.move_retold t.sink t.history (m := m)
      fun sink hm => replaces ⟨sink, hm⟩
    rw [retold_of_muted same] at moved
    rw [moved]
    exact muted_retold same adds

theorem muted_turn? (same : s.muted = t.muted) (turn : Turn) :
    Option.Rel (fun s t => s.muted = t.muted) (s.turn? turn) (t.turn? turn) := by
  cases turn with
  | call j =>
    refine State.rel_step? j (fun s' => muted_step? same) fun t' moves => ?_
    obtain ⟨s', moves', -⟩ := muted_step? same.symm moves
    exact Option.isSome_iff_exists.2 ⟨s', moves'⟩
  | outside m =>
    unfold State.turn?
    cases m with
    | arrive j request drawn =>
      dsimp only
      rw [isTaken_of_muted same]
      split
      · exact .none
      · exact .some (muted_move same _)
    | _ => exact .some (muted_move same _)

end State

/-! ### Any number of turns -/

/-- Whether the turn leaves the receiver in place. -/
def Turn.keepsSink : Turn → Bool
  | .outside (.setSink _) => false
  | _ => true

namespace State

/-- The same turns lead to the same, with any receivers. -/
theorem muted_follow? (same : s.muted = t.muted) (turns : List Turn) :
    (s.follow? turns).map muted = (t.follow? turns).map muted := by
  have both := State.rel_follow? (fun turn same => muted_turn? same turn) same turns
  generalize s.follow? turns = a, t.follow? turns = b at both
  cases both with
  | none => rfl
  | some same => exact congrArg some same

/-- It does not matter whether and when the receiver is replaced. -/
theorem muted_filter (s : State) (turns : List Turn) :
    (s.follow? turns).map muted = (s.follow? (turns.filter Turn.keepsSink)).map muted := by
  induction turns generalizing s with
  | nil => rfl
  | cons turn turns ih =>
    rw [List.filter_cons]
    split
    · unfold State.follow?
      cases s.turn? turn with
      | none => rfl
      | some t => exact ih t
    · next replaces =>
      cases turn with
      | call id => exact absurd rfl replaces
      | outside m =>
        cases m with
        | setSink sink =>
          -- who does not listen does not notice that somebody else does
          calc (s.follow? (.outside (.setSink sink) :: turns)).map muted
            _ = ((s.move (.setSink sink)).follow? turns).map muted := rfl
            _ = (s.follow? turns).map muted :=
              muted_follow? (show (s.move (.setSink sink)).muted = s.muted from rfl) turns
            _ = _ := ih s
        | _ => exact absurd rfl replaces

/-- How calls have ended, the latest first. -/
def results (s : State) : List (CallId × Outcome) :=
  s.history.filterMap fun o => match o with | .ended id outcome => some (id, outcome) | _ => none

/-- What was offered to the receivers, the earliest first. -/
def publications (s : State) : List Published :=
  (s.history.filterMap Occurrence.publication?).reverse

end State

/-- **The same to the callers:** two states with the same results, the same events offered, and the
same in the store, in the cache, at the gate and in progress. -/
structure Indistinct (s t : State) : Prop where
  results : s.results = t.results
  publications : s.publications = t.publications
  store : s.store = t.store
  cache : s.cache = t.cache
  gate : s.gate = t.gate
  calls : s.calls = t.calls

theorem Indistinct.of_muted (same : s.muted = t.muted) : Indistinct s t where
  store := show s.muted.store = t.muted.store by rw [same]
  cache := show s.muted.cache = t.muted.cache by rw [same]
  gate := show s.muted.gate = t.muted.gate by rw [same]
  calls := show s.muted.calls = t.muted.calls by rw [same]
  -- both lists can be read off what is left of the history
  results := by
    have heard (u : State) : u.muted.results = u.results := by
      unfold State.results State.muted State.retold
      dsimp only
      rw [List.filterMap_filterMap]
      refine congrArg (fun f => u.history.filterMap f) (funext fun o => ?_)
      cases o with
      | noticed n => cases n <;> rfl
      | _ => rfl
    rw [← heard s, ← heard t, same]
  publications := by
    have heard (u : State) : u.muted.publications = u.publications := by
      unfold State.publications State.muted State.retold
      dsimp only
      rw [List.filterMap_filterMap]
      refine congrArg (fun f => (u.history.filterMap f).reverse) (funext fun o => ?_)
      cases o with
      | noticed n => cases n <;> rfl
      | _ => rfl
    rw [← heard s, ← heard t, same]

/-- **The receiver of events cannot do anything.** Take the same turns with any two receivers, which
may be replaced by others at any time: the one run can be taken exactly if the other can, and what
they lead to is the same to all callers. -/
theorem State.indistinct_follow? (s : State) (sink sink' : Sink)
    (same : turns.filter Turn.keepsSink = turns'.filter Turn.keepsSink) :
    Option.Rel Indistinct (({ s with sink } : State).follow? turns)
      (({ s with sink := sink' } : State).follow? turns') := by
  have start : ({ s with sink } : State).muted = ({ s with sink := sink' } : State).muted := rfl
  have both : (({ s with sink } : State).follow? turns).map State.muted =
      (({ s with sink := sink' } : State).follow? turns').map State.muted := by
    rw [State.muted_filter, State.muted_filter _ turns', ← same]
    exact State.muted_follow? start _
  cases first : ({ s with sink } : State).follow? turns with
  | none =>
    rw [first] at both
    rw [Option.map_eq_none_iff.1 both.symm]
    exact .none
  | some t =>
    rw [first] at both
    obtain ⟨t', second, same⟩ := Option.map_eq_some_iff.1 both.symm
    rw [second]
    exact .some (.of_muted same.symm)

end Purse.Service
