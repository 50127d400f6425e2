import Purse.Proofs.Service.Records

/-!
# A call never goes back

The stages of a call come in one order, and every step of it leads to a later one
(`Effect.ahead_lt`). So a call takes no more steps than there are stages, and whoever is seen at a
stage was on the way to it at every moment before (`Reaches.earlier`). What a call stands at last is
what it ends with (`Reaches.ended_of_ending`).
-/

namespace Purse.Service

variable {s t u : State} {id : CallId} {call : Call} {stage : Stage} {outcome outcome' : Outcome}

/-! ### The order of the stages -/

/-- How many stages may still come after this one. -/
def Stage.ahead : Stage → Nat
  | .arrived => 13
  | .queued _ => 12
  | .locating _ => 11
  | .reading .. => 10
  | .consulting _ => 9
  | .awaitingRefresh _ => 8
  | .fetching .. => 7
  | .refreshing .. => 6
  | .serving _ => 5
  | .storing .. => 4
  | .writing .. => 3
  | .committed .. => 2
  | .publishing .. => 1
  | .ending _ => 0

/-- What a look into the cache leads to comes after all looks. -/
theorem Quest.Finds.ahead_lt {quest : Quest} {cache : RateCache} {now due : Nat}
    (h : quest.Finds cache now due stage) : stage.ahead < 5 := by
  cases h <;> simp [Stage.ahead]

theorem State.ahead_afterRead_lt {row : Wallet} {amount : Float} {order : Option Order} :
    (s.afterRead row amount order).ahead < 10 := by
  unfold afterRead
  split
  · simp [Stage.ahead]
  · simp [Stage.ahead]
  · simp [Stage.ahead]
  · split <;> simp [Stage.ahead]

/-- **Every step leads to a later stage.** -/
theorem Effect.ahead_lt (h : Effect s id call (some stage) t) : stage.ahead < call.stage.ahead := by
  cases h with
  | read at_ =>
    rw [at_]
    exact State.ahead_afterRead_lt
  | found at_ finds | foundLate at_ _ finds | served at_ finds =>
    rw [at_]
    exact Nat.lt_of_lt_of_le finds.ahead_lt (by simp [Stage.ahead])
  | created at_ | uncreated at_ | viewed at_ | sought at_ | invalid at_ | queued at_ | admitted at_
  | timedOut at_ | located at_ | unlocated at_ | vanished at_ | missed at_ | asked at_
  | answered at_ | unanswered at_ | refreshed at_ | unserved at_ | broken at_ | taken at_
  | untaken at_ | committed at_ | rejected at_ | silent at_ | announced at_ | published at_ =>
    simp [at_, Stage.ahead]

/-! ### What was before -/

/-- **A call in progress was in progress ever since it arrived,** with the same request, and stood
no further than it stands now. -/
theorem Reaches.earlier (h : Reaches s t) {r : Request} (arrived : .arrived id r ∈ s.history)
    (live : t.calls.get? id = some call) :
    ∃ before, s.calls.get? id = some before ∧ before.request = call.request ∧
      call.stage.ahead ≤ before.stage.ahead := by
  induction h generalizing call with
  | refl => exact ⟨call, live, rfl, Nat.le_refl _⟩
  | @tail u v sofar step ih =>
    cases step.seen id with
    | moved was moves effect =>
      rw [effect.calls_self was] at live
      obtain ⟨stage, rfl, rfl⟩ := Option.map_eq_some_iff.1 live
      obtain ⟨before, there, same, le⟩ := ih was
      exact ⟨before, there, same, Nat.le_trans (Nat.le_of_lt effect.ahead_lt) le⟩
    -- the name was used before, so this is no arrival of it
    | arrived free => exact absurd (sofar.mem_history arrived) (free r)
    | dropped was eq =>
      subst eq
      rw [State.drop_calls, if_pos rfl] at live
      cases live
    | elsewhere apart => exact ih (apart.calls ▸ live)

/-! ### What comes last -/

/-- The call is still where it was, or it is gone, with the outcome or with none. -/
def Concluding (id : CallId) (call : Call) (outcome : Outcome) (s : State) : Prop :=
  (s.calls.get? id = some call ∧ ∀ o, .ended id o ∉ s.history) ∨
    (s.calls.get? id = none ∧ ∀ o, .ended id o ∈ s.history → o = outcome)

namespace Concluding

theorem at_of_live {call' : Call} (h : Concluding id call outcome s)
    (live : s.calls.get? id = some call') : call' = call ∧ ∀ o, .ended id o ∉ s.history := by
  rcases h with ⟨here, none_⟩ | ⟨gone, -⟩
  · exact ⟨Option.some.inj (live.symm.trans here), none_⟩
  · cases gone.symm.trans live

/-- At its last stage a call stays where it is up to its last step, and then nothing more is said of
it. -/
theorem step {r : Request} (h : Concluding id call outcome s) (ends : call.stage = .ending outcome)
    (told : .arrived id r ∈ s.history) (step : Step s t) : Concluding id call outcome t := by
  cases step.seen id with
  | @moved call' next was moves effect =>
    obtain ⟨rfl, none_⟩ := h.at_of_live was
    cases next with
    | some stage =>
      -- nothing comes after the last stage
      have lt := effect.ahead_lt
      rw [ends] at lt
      exact absurd lt (Nat.not_lt_zero _)
    | none =>
      cases effect with
      | finished at_ =>
        obtain rfl := Stage.ending.inj (at_.symm.trans ends)
        refine .inr ⟨by simp, fun o hm => ?_⟩
        rcases List.mem_cons.1 hm with hm | hm
        · cases hm
          rfl
        · exact absurd hm (none_ o)
  | arrived free => exact absurd told (free _)
  | dropped was eq =>
    subst eq
    obtain ⟨-, none_⟩ := h.at_of_live was
    refine .inr ⟨by simp, fun o hm => ?_⟩
    rw [State.drop_history was] at hm
    rcases List.mem_cons.1 hm with hm | hm
    · cases hm
    · exact absurd hm (none_ o)
  | elsewhere apart =>
    unfold Concluding
    rw [apart.calls]
    rcases h with ⟨here, none_⟩ | ⟨gone, all⟩
    · exact .inl ⟨here, fun o hm => none_ o ((apart.quiet.mem_iff rfl).1 hm)⟩
    · exact .inr ⟨gone, fun o hm => all o ((apart.quiet.mem_iff rfl).1 hm)⟩

end Concluding

/-- **A call ends with what it stands at last,** unless it is given up. -/
theorem Reaches.ended_of_ending (h : Reaches s t) (start : s.Unused)
    (live : t.calls.get? id = some call) (ends : call.stage = .ending outcome) (k : Reaches t u)
    (hm : .ended id outcome' ∈ u.history) : outcome' = outcome := by
  have record := h.recorded start id
  have told := record.arrived_of_live live
  have concluding : Concluding id call outcome u := by
    refine k.invariant (.inl ⟨live, fun o hm => ?_⟩) fun v w sofar before step =>
      before.step ends (sofar.mem_history told) step
    rw [record.gone_of_ended hm] at live
    cases live
  rcases concluding with ⟨-, none_⟩ | ⟨-, all⟩
  · exact absurd hm (none_ outcome')
  · exact all outcome' hm

end Purse.Service
