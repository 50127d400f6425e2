import Purse.Proofs.Service.Records
import Purse.Proofs.Service.Requests

/-!
# The deeds of a call

A call does little that anybody else can see: it adds a wallet, commits a change, or offers an
event. These are its deeds, and the history has them all (`State.deeds`). `Done` says for each stage
which deeds a call that stands there has behind it. There are none before a commit; a commit is
followed by at most one event, and by nothing else.

The invariant has the stage for its locator: a call never does a deed and stays where it is, so
counting deeds along a run comes down to looking at one step at a time (`Effect.done`). What is left
at the end is `Accomplished`: the deeds that belong to an answer. A call that ends with an error has
none (`Reaches.deeds_of_error`).
-/

namespace Purse

/-- The row that an answer shows. -/
def Answer.row? : Answer → Option Wallet
  | wallet row | exchanged row _ _ _ => some row
  | rate _ | rates _ => none

@[simp] theorem Change.row?_answer (change : Change) (row : Wallet) :
    (change.answer row).row? = some row := by
  cases change <;> rfl

namespace Service

variable {s t : State} {id : CallId} {call : Call} {stage : Stage} {r : Request} {outcome : Outcome}
  {answer : Answer} {e : WalletError} {ds : List Occurrence}

/-- Whether the occurrence is a deed of the call. -/
def Occurrence.isDeedOf (id : CallId) : Occurrence → Bool
  | created j _ | committed j _ _ | published j _ _ _ => j = id
  | _ => false

@[simp] theorem Occurrence.isDeedOf_created (row : Wallet) : (created id row).isDeedOf id :=
  decide_eq_true rfl

@[simp] theorem Occurrence.isDeedOf_committed (change : Change) (row : Wallet) :
    (committed id change row).isDeedOf id := decide_eq_true rfl

@[simp] theorem Occurrence.isDeedOf_published (key : String) (event : WalletEvent)
    (refusal : Option PartnerFault) :
    (published id key event refusal).isDeedOf id := decide_eq_true rfl

theorem Occurrence.call?_of_isDeedOf {o : Occurrence} (h : o.isDeedOf id) : o.call? = some id := by
  cases o with
  | created | committed | published => exact congrArg some (of_decide_eq_true h)
  | _ => cases h

/-- What the call has done, the latest first. -/
def State.deeds (s : State) (id : CallId) : List Occurrence :=
  s.history.filter (Occurrence.isDeedOf id)

theorem State.mem_deeds {o : Occurrence} : o ∈ s.deeds id ↔ o ∈ s.history ∧ o.isDeedOf id :=
  List.mem_filter

theorem Quiet.deeds_eq (h : Quiet id s t) : t.deeds id = s.deeds id :=
  h.filter_eq fun _ => Occurrence.call?_of_isDeedOf

/-- Notices are not deeds. -/
theorem filter_isDeedOf_noticed (ns : List Notice) (os : List Occurrence) :
    ((ns.map Occurrence.noticed).reverse ++ os).filter (Occurrence.isDeedOf id) =
      os.filter (Occurrence.isDeedOf id) := by
  rw [List.filter_append, List.filter_eq_nil_iff.2, List.nil_append]
  intro o ho
  obtain ⟨n, -, rfl⟩ := List.mem_map.1 (List.mem_reverse.1 ho)
  exact Bool.false_ne_true

/-! ### What is done at each stage -/

/-- **The deeds behind an answer.** -/
inductive Accomplished (id : CallId) (r : Request) : Answer → List Occurrence → Prop
  | created {user : Uuid} {row : Wallet} (asks : r = .create user) :
      Accomplished id r (.wallet row) [.created id row]
  | viewed {user : Uuid} {row : Wallet} (asks : r = .view user) : Accomplished id r (.wallet row) []
  | informed {quest : Quest} {answer : Answer} (asks : Quest.ofRequest? r = some quest)
      (rates : answer.row? = none) :
      Accomplished id r answer []
  | silent {change : Change} {row : Wallet} (asks : r.Asks change) :
      Accomplished id r (change.answer row) [.committed id change row]
  | announced {change : Change} {row : Wallet} {event : WalletEvent} {refusal : Option PartnerFault}
      (asks : r.Asks change) :
      Accomplished id r (change.answer row)
        [.published id event.key event refusal, .committed id change row]

/-- **The deeds behind a stage.** -/
def Done (id : CallId) (r : Request) (ds : List Occurrence) : Stage → Prop
  | .committed change row => ds = [.committed id change row]
  | .publishing answer _ => ∃ change row, r.Asks change ∧ answer = change.answer row ∧
      ds = [.committed id change row]
  | .ending (.ok answer) => Accomplished id r answer ds
  | _ => ds = []

/-- What a look into the cache leads to has the deeds behind it that the look had: none. -/
theorem Quest.Finds.done {quest : Quest} {cache : RateCache} {now due : Nat}
    (h : quest.Finds cache now due stage) (is : quest.IsOf r) : Done id r [] stage := by
  cases h with
  | listing | quote => exact .informed is rfl
  | exchange | unconvertible => rfl

theorem Quest.missing_done {quest : Quest} (is : quest.IsOf r) :
    Done id r [] (.ending quest.missing) := by
  cases quest with
  | listing => exact .informed is rfl
  | quote | exchange => rfl

theorem Effect.done (h : Effect s id call (some stage) t) (is : call.stage.IsOf call.request)
    (done : Done id call.request (s.deeds id) call.stage) :
    Done id call.request (t.deeds id) stage := by
  cases h with
  -- the three ways that enter a deed
  | created at_ asks =>
    rw [at_] at done
    have none_ : s.deeds id = [] := done
    rw [State.deeds, State.goto_history, State.record_history, List.filter_cons_of_pos (by simp)]
    change Done id call.request (_ :: s.deeds id) _
    rw [none_]
    exact .created asks
  | committed at_ =>
    rw [at_] at done
    have none_ : s.deeds id = [] := done
    rw [State.deeds, State.goto_history, State.record_history, List.filter_cons_of_pos (by simp)]
    change _ :: s.deeds id = _
    rw [none_]
  | published at_ =>
    rw [at_] at done
    obtain ⟨change, row, asks, rfl, hd⟩ := done
    rw [State.deeds, State.publish_history, filter_isDeedOf_noticed,
      List.filter_cons_of_pos (by simp)]
    change Done id call.request (_ :: s.deeds id) _
    rw [hd]
    exact .announced asks
  -- the ways on from a commit, which keep the deeds and only change what is expected of them
  | silent at_ =>
    rw [at_] at done is
    have one : s.deeds id = _ := done
    change Accomplished id call.request _ (s.deeds id)
    rw [one]
    exact .silent is
  | announced at_ =>
    rw [at_] at done is
    exact ⟨_, _, is, rfl, done⟩
  -- before a commit there are none, and these ways lead to answers and errors that need none
  | read at_ =>
    rw [at_] at done is
    have none_ : s.deeds id = [] := done
    change Done id call.request (s.deeds id) _
    rw [none_]
    -- a view ends with what it has read; whatever an order goes on to, it has done nothing yet
    unfold State.afterRead
    split
    · obtain ⟨user, asks⟩ := is
      exact .viewed asks
    · rfl
    · rfl
    · split <;> rfl
  | found at_ finds | foundLate at_ _ finds | served at_ finds =>
    rw [at_] at done is
    have none_ : s.deeds id = [] := done
    change Done id call.request (s.deeds id) _
    rw [none_]
    exact finds.done is
  | unserved at_ =>
    rw [at_] at done is
    have none_ : s.deeds id = [] := done
    change Done id call.request (s.deeds id) _
    rw [none_]
    exact Quest.missing_done is
  -- notices are no deeds
  | refreshed at_ =>
    rw [at_] at done
    change (((s.refreshCache (some id) _).goto id _).deeds id) = []
    rw [State.deeds, State.goto_history, State.refreshCache_history, filter_isDeedOf_noticed]
    exact done
  | broken at_ | untaken at_ | rejected at_ =>
    rw [at_] at done
    change (State.fail _ id _ _).deeds id = []
    rw [State.deeds, State.fail_history, filter_isDeedOf_noticed]
    exact done
  | uncreated at_ | viewed at_ | sought at_ | invalid at_ | queued at_ | admitted at_ | timedOut at_
  | located at_ | unlocated at_ | vanished at_ | missed at_ | asked at_ | answered at_
  | unanswered at_ | taken at_ =>
    rw [at_] at done
    exact done

/-- **Every call in progress has the deeds of its stage behind it.** -/
theorem Reaches.done (h : Reaches s t) (start : s.Unused) (live : t.calls.get? id = some call) :
    Done id call.request (t.deeds id) call.stage := by
  refine h.calls_invariant start
    (Q := fun u id call => Done id call.request (u.deeds id) call.stage) ?_ ?_ ?_ live
  · intro u id request drawn before free
    -- nothing was said of the call before it arrived
    change (u.arrive id request drawn).deeds id = []
    refine List.filter_eq_nil_iff.2 fun o ho deed => ?_
    rcases List.mem_cons.1 ho with rfl | ho
    · cases deed
    · obtain ⟨r, hr⟩ :=
        (before.recorded start id).arrived_of_mem ho (Occurrence.call?_of_isDeedOf deed)
      exact free r hr
  · intro u v id call _ _ quiet done
    exact quiet.deeds_eq ▸ done
  · intro u v id call stage before _ live done effect
    exact effect.done (before.isOf start live) done

/-! ### What is done in the end -/

/-- The deeds of a call that has ended are those that it had at its last stage. -/
theorem Reaches.done_of_ended (h : Reaches s t) (start : s.Unused)
    (hm : .ended id outcome ∈ t.history) (asked : .arrived id r ∈ t.history) :
    Done id r (t.deeds id) (.ending outcome) := by
  -- the last step adds no deed, and nothing comes after it
  obtain ⟨us, run⟩ := h.exists_run
  obtain ⟨past, u, call, passes, live, at_, quiet⟩ := run.ended start hm
  have before := passes.before.reaches
  obtain rfl := h.request_eq start asked before live passes.later
  rw [quiet.deeds_eq, ← at_]
  exact before.done start live

/-- **A call that ended with an error has done nothing.** -/
theorem Reaches.deeds_of_error (h : Reaches s t) (start : s.Unused)
    (hm : .ended id (.error e) ∈ t.history) :
    t.deeds id = [] := by
  obtain ⟨r, asked⟩ := (h.recorded start id).arrived_of_mem hm rfl
  exact h.done_of_ended start hm asked

/-- **A call that ended with an answer has done what belongs to it.** -/
theorem Reaches.accomplished (h : Reaches s t) (start : s.Unused)
    (hm : .ended id (.ok answer) ∈ t.history) (asked : .arrived id r ∈ t.history) :
    Accomplished id r answer (t.deeds id) :=
  h.done_of_ended start hm asked

/-! ### Commits are counted -/

/-- Whether the occurrence is a commit of the call. -/
def Occurrence.isCommitOf (id : CallId) : Occurrence → Bool
  | committed j _ _ => j = id
  | _ => false

/-- The commits of the call. -/
def State.commits (s : State) (id : CallId) : List Occurrence :=
  s.history.filter (Occurrence.isCommitOf id)

/-- Commits are deeds. -/
theorem State.commits_eq : s.commits id = (s.deeds id).filter (Occurrence.isCommitOf id) := by
  rw [commits, deeds, List.filter_filter]
  refine List.filter_congr fun o _ => ?_
  cases o <;> simp [Occurrence.isCommitOf, Occurrence.isDeedOf]

theorem Accomplished.commits_length_le (h : Accomplished id r answer ds) :
    (ds.filter (Occurrence.isCommitOf id)).length ≤ 1 := by
  cases h <;> simp [Occurrence.isCommitOf]

theorem Done.commits_length_le (h : Done id r ds stage) :
    (ds.filter (Occurrence.isCommitOf id)).length ≤ 1 := by
  unfold Done at h
  split at h
  · simp [h, Occurrence.isCommitOf]
  · obtain ⟨change, row, -, -, rfl⟩ := h
    simp [Occurrence.isCommitOf]
  · exact h.commits_length_le
  · simp [h]

/-- **No call commits twice,** whether it is in progress, has ended or was given up. -/
theorem Reaches.commits_length_le (h : Reaches s t) (start : s.Unused) (id : CallId) :
    (t.commits id).length ≤ 1 := by
  refine h.invariant (P := fun u => (u.commits id).length ≤ 1) ?_ fun u v before sofar step => ?_
  · rw [State.commits, start.history]
    exact Nat.zero_le 1
  · cases live : v.calls.get? id with
    | some call =>
      rw [State.commits_eq]
      exact ((before.tail step).done start live).commits_length_le
    | none =>
      -- a call that is gone has just ended or been given up, which are no commits, or was not there
      -- before
      cases step.seen id with
      | moved was moves effect =>
        rw [effect.calls_self was] at live
        obtain rfl := Option.map_eq_none_iff.1 live
        cases effect with
        | finished => exact sofar
      | arrived free eq =>
        subst eq
        simp at live
      | dropped was eq =>
        subst eq
        rw [State.commits, State.drop_history was]
        exact sofar
      | elsewhere apart =>
        rw [State.commits_eq, apart.quiet.deeds_eq, ← State.commits_eq]
        exact sofar

end Service

end Purse
