import Purse.Proofs.Service.Deeds
import Purse.Proofs.Service.Rows

/-!
# A call changes the rows once, or not at all

Whatever a call does, the rows see it as one step or they do not see it. `Alters` says what such a
step is: a new wallet, or the whole of the change that was asked for, in the row of the user who
asked. `rows_of_arrived` says that no call takes two of them, wherever it stands in the end, so a call
that is given up has changed its row as a whole or not at all.
-/

namespace Purse.Service

variable {s t u v : State} {us past : List State} {id : CallId} {call : Call} {next : Option Stage}
  {r : Request}

/-- **A change of the rows that carries out a request** as a whole. -/
inductive Alters (r : Request) (s t : State) : Prop
  | added {name user : Uuid} (asks : r = .create user)
      (made : s.store.create (Wallet.create name user s.now) = .ok t.store)
  | changed {user wallet : Uuid} {change : Change} {before after : Wallet}
      (for_ : r.user? = some user) (asks : r.Asks change)
      (owns : s.store.byUser.get? user = some wallet)
      (there : s.store.rows.get? wallet = some before)
      (whole : change.mutation.applyTo s.now before = .ok after)
      (written : t.store = { s.store with rows := s.store.rows.insert wallet after })

/-- A step of a call that changes the rows is the first deed of the call. -/
theorem Effect.alters (h : Effect s id call next t) (is : call.stage.IsOf call.request)
    (located : Located s.store call) (done : Done id call.request (s.deeds id) call.stage) :
    t.store = s.store ∨ Alters call.request s t ∧ s.deeds id = [] ∧ t.deeds id ≠ [] := by
  have first {o : Occurrence} (ho : o ∈ t.history) (deed : o.isDeedOf id) : t.deeds id ≠ [] :=
    List.ne_nil_of_mem (State.mem_deeds.2 ⟨ho, deed⟩)
  cases h with
  | created at_ asks made =>
    rw [at_] at done
    exact .inr ⟨.added asks made, done, first List.mem_cons_self (by simp)⟩
  | @committed wallet change store row at_ turn made =>
    rw [at_] at done is
    obtain ⟨user, for_, owns⟩ := located wallet (by rw [at_]; rfl)
    obtain ⟨before, there, whole, written⟩ := MemoryStore.mutate_eq_ok made
    exact .inr ⟨.changed for_ is owns there whole written, done,
      first List.mem_cons_self (by simp)⟩
  | refreshed => exact .inl (State.refreshCache_store ..)
  | published => exact .inl (State.publish_store ..)
  | broken | untaken | rejected => exact .inl (State.fail_store ..)
  | _ => exact .inl rfl

/-- **What a call has done to the rows** in a run. -/
inductive Rows (s t : State) (us : List State) (id : CallId) (r : Request) : Prop
  /-- None of its steps has changed them. -/
  | untouched (kept : ∀ {past u v}, Passes s t us past u v → u.step? id = some v →
      v.store = u.store)
  /-- One of its steps has, as a whole, and no other. -/
  | altered {past : List State} {u v : State} (passes : Passes s t us past u v)
      (moves : u.step? id = some v) (alters : Alters r u v)
      (once : ∀ {past' u' v'}, Passes s t us past' u' v' → u'.step? id = some v' → past' ≠ past →
        v'.store = u'.store)

/-- What one step of a call in a run does to the rows. -/
theorem Passes.alters (h : Passes s t us past u v) (start : s.Unused)
    (asked : .arrived id r ∈ t.history) (moves : u.step? id = some v) :
    v.store = u.store ∨ Alters r u v ∧ u.deeds id = [] ∧ v.deeds id ≠ [] := by
  have before := h.before.reaches
  obtain ⟨call, live, next, effect⟩ := State.step?_effect moves
  obtain rfl := (before.trans h.later).request_eq start asked before live h.later
  exact effect.alters (before.isOf start live) (before.located start live) (before.done start live)

/-- Deeds are never undone. -/
theorem Reaches.deeds_eq_nil (h : Reaches s t) (nothing : t.deeds id = []) : s.deeds id = [] := by
  refine List.filter_eq_nil_iff.2 fun o ho deed => ?_
  have told := State.mem_deeds.2 ⟨h.mem_history ho, deed⟩
  rw [nothing] at told
  cases told

/-- **Every call changes the rows as a whole and once,** or not at all. -/
theorem rows_of_arrived (start : s.Unused) (asked : .arrived id r ∈ t.history) :
    Rows s t us id r := by
  by_cases alters : ∃ past u v, Passes s t us past u v ∧ u.step? id = some v ∧ v.store ≠ u.store
  · obtain ⟨past, u, v, passes, moves, changes⟩ := alters
    obtain ⟨alters, nothing, something⟩ := (passes.alters start asked moves).resolve_left changes
    refine .altered passes moves alters fun {past' u' v'} passes' moves' other => ?_
    rcases passes'.alters start asked moves' with kept | ⟨-, nothing', something'⟩
    · exact kept
    -- of two such steps, whichever comes later has a deed behind it
    · rcases passes.before_or_after passes' with same | later | earlier
      · exact absurd same other
      · exact absurd (later.deeds_eq_nil nothing') something
      · exact absurd (earlier.deeds_eq_nil nothing) something'
  · refine .untouched fun {past u v} passes moves => Classical.byContradiction fun changes => ?_
    exact alters ⟨past, u, v, passes, moves, changes⟩

end Purse.Service
