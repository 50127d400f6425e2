import Purse.Proofs.Service.Records
import Purse.Proofs.Service.Rows

/-!
# The moments at which calls take effect

Calls overlap, and yet each outcome belongs to one moment. A change takes effect in the step that
commits it, and its caller gets the row as that step left it (`Run.wrote`). A view shows the
user's row as it was when the row was read under its lock, and finds no wallet only if there was
none (`Effect.view_outcome`). A refusal for lack of funds is due to a row that had less than was to
be taken, in the snapshot of an exchange or under the lock (`Effect.short`).

For views and refusals the moment is over when the call ends. It is the last step but one of the
call, which an invariant keeps (`Run.concluded`).
-/

namespace Purse.Service

variable {s t : State} {us : List State} {id : CallId} {call : Call} {next : Option Stage}
  {r : Request} {outcome : Outcome}

/-! ### Views -/

/-- **A view ends with what its user's row is when it looks,** or with the error that there is
none. -/
theorem Effect.view_outcome {user : Uuid} (h : Effect s id call next t)
    (leads : next = some (.ending outcome)) (asked : call.request = .view user)
    (is : call.stage.IsOf call.request) (found : Located s.store call) (sound : s.store.Sound) :
    outcome = (s.store.get user).map .wallet := by
  rw [asked] at is
  cases h with
  | unlocated at_ for_ fails =>
    rw [asked] at for_
    cases for_
    cases leads
    rw [fails]
    rfl
  | @read wallet order row at_ turn there =>
    rw [at_] at is
    cases order with
    | none =>
      cases leads
      obtain ⟨user', row', hu, hr, hg, -⟩ :=
        found.row sound (show call.stage.wallet? = some wallet by rw [at_]; rfl)
      rw [asked] at hu
      cases hu
      cases there.symm.trans hr
      rw [hg]
      rfl
    | some order => cases is
  | @vanished wallet order at_ turn gone =>
    -- a wallet that was found does not vanish
    obtain ⟨user', row, hu, hr, -⟩ :=
      found.row sound (show call.stage.wallet? = some wallet by rw [at_]; rfl)
    cases gone.symm.trans hr
  -- the other ways that lead to an end are not those of a view
  | created at_ asks | uncreated at_ asks => cases asked.symm.trans asks
  | invalid at_ asks =>
    rw [asked] at asks
    cases asks
  | timedOut at_ =>
    rw [at_] at is
    cases is
  | found at_ | foundLate at_ | unanswered at_ | served at_ | unserved at_ =>
    rw [at_] at is
    exact absurd is Quest.not_isOf_view
  | broken at_ | untaken at_ | rejected at_ | silent at_ =>
    rw [at_] at is
    obtain ⟨order, parsed, -⟩ := is
    cases parsed
  | published at_ =>
    rw [at_] at is
    obtain ⟨change, row, ⟨order, parsed, -⟩, -⟩ := is
    cases parsed
  | _ => cases leads

/-! ### Refusals for lack of funds -/

/-- The user's row has less than the request asks to take. -/
def Short (r : Request) (s : State) : Prop :=
  ∃ user row c units, r.user? = some user ∧ s.store.get user = .ok row ∧
    r.debit? = some (c, units) ∧
    (row.balance c).units < units.units

theorem Quest.missing_ne_insufficientFunds {quest : Quest} :
    quest.missing ≠ .error .insufficientFunds := by
  cases quest <;> nofun

/-- **A call is refused for lack of funds only if its user's row is short.** -/
theorem Effect.short (h : Effect s id call next t)
    (leads : next = some (.ending (.error .insufficientFunds))) (is : call.stage.IsOf call.request)
    (found : Located s.store call) (sound : s.store.Sound) :
    Short call.request s := by
  cases h with
  -- most errors are not for lack of funds
  | uncreated at_ asks fails =>
    cases leads
    rcases MemoryStore.create_eq_error fails with h | h <;> cases h
  | invalid at_ asks =>
    cases leads
    rcases Request.order?_eq_error asks with h | ⟨symbol, h⟩ | h <;> cases h
  | unlocated at_ for_ fails =>
    cases leads
    cases MemoryStore.get_eq_error fails
  | @read wallet order row at_ turn there =>
    obtain ⟨user, row', hu, hr, hg, -⟩ :=
      found.row sound (show call.stage.wallet? = some wallet by rw [at_]; rfl)
    cases there.symm.trans hr
    rw [at_] at is
    -- only an exchange looks at the balance, and it looks at that of the sold currency
    have ends := Option.some.inj leads
    unfold State.afterRead at ends
    split at ends
    · cases ends
    · cases ends
    · cases ends
    · next pair debit =>
      split at ends
      · cases ends
      · next fails =>
        cases ends
        have less := (Wallet.debit_eq_insufficientFunds_iff.1 fails).2
        refine ⟨user, row, pair.sold, debit, hu, hg, ?_, less⟩
        rw [Request.debit?, show call.request.order? = some (.ok (.exchange pair debit)) from is]
        rfl
  | rejected at_ turn fails =>
    cases leads
    obtain ⟨user, row, hu, hr, hg, -⟩ := found.row sound (by rw [at_]; rfl)
    rw [at_] at is
    rcases MemoryStore.mutate_eq_error fails with ⟨-, h⟩ | ⟨before, there, fails⟩
    · cases h
    · cases there.symm.trans hr
      obtain ⟨c, units, takes, less⟩ := Mutation.applyTo_eq_insufficientFunds fails
      exact ⟨user, row, c, units, hu, hg, is.debit?_eq ▸ takes, less⟩
  | found at_ finds | foundLate at_ _ finds | served at_ finds =>
    cases leads
    cases finds
  | unserved at_ =>
    have ends := Option.some.inj leads
    exact absurd (Stage.ending.inj ends) Quest.missing_ne_insufficientFunds
  | _ => cases leads

/-! ### The moment is kept -/

/-- The outcome of the request belongs to a moment of the call: that of a view to when the user's
row was as it shows, a refusal for lack of funds to when the row was short. -/
structure Justified (us : List State) (id : CallId) (r : Request) (outcome : Outcome) : Prop where
  view : ∀ user, r = .view user → During us id fun u => outcome = (u.store.get user).map .wallet
  short : outcome = .error .insufficientFunds → During us id (Short r)

/-- **A call that is about to end went there in one of its steps.** -/
theorem Run.concluded (h : Run s t us) (start : s.Unused) (live : t.calls.get? id = some call)
    (at_ : call.stage = .ending outcome) :
    ∃ u ∈ us, ∃ v before, u.calls.get? id = some before ∧ before.request = call.request ∧
      Effect u id before (some (.ending outcome)) v := by
  refine h.calls_invariant start
    (Q := fun us _ id call => ∀ outcome, call.stage = .ending outcome →
      ∃ u ∈ us, ∃ v before, u.calls.get? id = some before ∧ before.request = call.request ∧
        Effect u id before (some (.ending outcome)) v)
    ?_ ?_ ?_ live outcome at_
  · intro us u id request drawn _ _ outcome at_
    cases at_
  · intro us u v id call _ _ _ sofar outcome at_
    obtain ⟨w, hw, rest⟩ := sofar outcome at_
    exact ⟨w, List.mem_cons_of_mem v hw, rest⟩
  · intro us u v id call stage run _ live _ effect outcome at_
    obtain rfl : stage = .ending outcome := at_
    exact ⟨u, List.mem_cons_of_mem v run.mem_self, v, call, live, rfl, effect⟩

/-- The last step but one of a call that has ended. -/
theorem Run.concluded_of_ended (h : Run s t us) (start : s.Unused)
    (hm : .ended id outcome ∈ t.history) (asked : .arrived id r ∈ t.history) :
    ∃ u ∈ us, ∃ v before, u.calls.get? id = some before ∧ before.request = r ∧
      Effect u id before (some (.ending outcome)) v := by
  obtain ⟨past, u, call, passes, live, at_, -⟩ := h.ended start hm
  obtain rfl := h.reaches.request_eq start asked passes.before.reaches live passes.later
  obtain ⟨w, hw, rest⟩ := passes.before.concluded start live at_
  exact ⟨w, passes.suffix.subset (List.mem_cons_of_mem _ hw), rest⟩

/-- **The outcome of a call that has ended belongs to a moment of the call.** -/
theorem Run.justified_of_ended (h : Run s t us) (start : s.Unused)
    (hm : .ended id outcome ∈ t.history) (asked : .arrived id r ∈ t.history) :
    Justified us id r outcome := by
  -- the moment is the one at which the call takes its last step but one
  obtain ⟨u, hu, v, call, live, rfl, effect⟩ := h.concluded_of_ended start hm asked
  have before := h.reaches_of_mem hu
  have is := before.isOf start live
  have found := before.located start live
  have sound := before.store_sound start.store
  have moment {P : State → Prop} (holds : P u) : During us id P := ⟨u, hu, ⟨call, live⟩, holds⟩
  refine ⟨fun user asks => moment (effect.view_outcome rfl asks is found sound), fun ends => ?_⟩
  subst ends
  exact moment (effect.short rfl is found sound)

/-! ### Rows that were written -/

/-- A step records a change only by committing it. -/
theorem Effect.committed_mem {change : Change} {row : Wallet} (h : Effect s id call next t)
    (hm : .committed id change row ∈ t.history) :
    .committed id change row ∈ s.history ∨
      ∃ wallet, call.stage = .writing wallet change ∧
        s.store.mutate s.now wallet change.mutation = .ok (t.store, row) ∧
        t.history = .committed id change row :: s.history := by
  cases h with
  | committed at_ turn done =>
    rcases List.mem_cons.1 hm with hm | hm
    · cases hm
      exact .inr ⟨_, at_, done, rfl⟩
    · exact .inl hm
  | _ => exact .inl (by simpa using hm)

/-- A step records a new wallet only by adding it. -/
theorem Effect.created_mem {row : Wallet} (h : Effect s id call next t)
    (hm : .created id row ∈ t.history) :
    .created id row ∈ s.history ∨
      call.request = .create row.user ∧ s.store.create row = .ok t.store ∧
        t.history = .created id row :: s.history := by
  cases h with
  | created at_ asks made =>
    rcases List.mem_cons.1 hm with hm | hm
    · cases hm
      exact .inr ⟨asks, made, rfl⟩
    · exact .inl hm
  | _ => exact .inl (by simpa using hm)

/-- The call entered the row in the history in a step of its own, and right after that step the row
was in the store, as the row of its user. -/
def Wrote (us : List State) (id : CallId) (entry : Occurrence) (row : Wallet) : Prop :=
  ∃ u v, [v, u] <:+: us ∧ u.step? id = some v ∧ v.history = entry :: u.history ∧
    v.store.get row.user = .ok row

/-- **A change that was committed was written as it was answered,** in the wallet of the user who
asked for it. -/
theorem Run.wrote {change : Change} {row : Wallet} (h : Run s t us) (start : s.Unused)
    (hm : .committed id change row ∈ t.history) (asked : .arrived id r ∈ t.history) :
    r.user? = some row.user ∧ Wrote us id (.committed id change row) row := by
  obtain ⟨past, u, v, call, next, passes, live, moves, effect, was, is⟩ :=
    h.did start hm rfl (by simp) (by simp)
  have before := passes.before.reaches
  obtain rfl := h.reaches.request_eq start asked before live passes.later
  -- the step in which the commit came into the history is the step that made it
  rcases effect.committed_mem is with old | ⟨wallet, at_, done, history⟩
  · exact absurd old was
  have sound := before.store_sound start.store
  obtain ⟨user, old, hu, hr, hg, hold⟩ := (before.located start live).row sound (by rw [at_]; rfl)
  obtain ⟨old', there, applied, hv⟩ := MemoryStore.mutate_eq_ok done
  obtain rfl := Option.some.inj (hr.symm.trans there)
  have moved := (Mutation.applyTo_spec applied).1
  refine ⟨by rw [hu, moved.user_eq, hold], u, v, passes.isInfix, moves, history, ?_⟩
  -- the row replaces the one that the index leads to
  rw [MemoryStore.get_eq_ok_iff, hv, moved.user_eq]
  exact ⟨wallet, sound.index_of_row hr, Table.get?_insert_self ..⟩

/-- A change that was committed is one that was asked for. -/
theorem Run.asks_of_committed {change : Change} {row : Wallet} (h : Run s t us) (start : s.Unused)
    (hm : .committed id change row ∈ t.history) (asked : .arrived id r ∈ t.history) :
    r.Asks change := by
  obtain ⟨past, u, v, call, next, passes, live, moves, effect, was, is⟩ :=
    h.did start hm rfl (by simp) (by simp)
  have before := passes.before.reaches
  obtain rfl := h.reaches.request_eq start asked before live passes.later
  rcases effect.committed_mem is with old | ⟨wallet, at_, -⟩
  · exact absurd old was
  · have asks := before.isOf start live
    rw [at_] at asks
    exact asks

/-- **A wallet that was created was added as it was answered,** for the user it was asked for. -/
theorem Run.made {row : Wallet} (h : Run s t us) (start : s.Unused)
    (hm : .created id row ∈ t.history) (asked : .arrived id r ∈ t.history) :
    r = .create row.user ∧ Wrote us id (.created id row) row := by
  obtain ⟨past, u, v, call, next, passes, live, moves, effect, was, is⟩ :=
    h.did start hm rfl (by simp) (by simp)
  obtain rfl := h.reaches.request_eq start asked passes.before.reaches live passes.later
  -- likewise for the new wallet
  rcases effect.created_mem is with old | ⟨asks, made, history⟩
  · exact absurd old was
  obtain ⟨-, -, hv⟩ := MemoryStore.create_eq_ok made
  refine ⟨asks, u, v, passes.isInfix, moves, history, ?_⟩
  rw [MemoryStore.get_eq_ok_iff, hv]
  exact ⟨row.id, Table.get?_insert_self .., Table.get?_insert_self ..⟩

end Purse.Service
