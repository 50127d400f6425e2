import Purse.Proofs.Service.Calm
import Purse.Proofs.Service.Rows

/-!
# What a call comes to

In a calm service what a call comes to is settled when it arrives: it depends on the request, on the
wallet of its user and on the table of rates, and not on what the cache holds, on how long anything
takes, or on the wallets of others. `Request.settle` computes the wallet afterwards and the outcome.

Identifiers that are drawn and times that are read off a clock are left out on both sides
(`Wallet.bare`, `Outcome.bare`). `Bound` says for each stage what a call that stands there is bound to
come to; every step keeps it (`Effect.bound`), so the call comes to what it was bound to come to when
it arrived (`Attended.settled`). The wallets of others stay as they are (`Effect.get_of_other`).
-/

namespace Purse

/-! ### Wallets without identifiers and times -/

/-- The wallet without what is drawn and what is read off a clock. -/
def Wallet.bare (w : Wallet) : Wallet := { w with id := .ofNat 0, updatedAt := .epoch }

theorem Wallet.relabels_bare : Relabels bare where
  balance _ c := by cases c <;> rfl
  withBalance _ c _ := by cases c <;> rfl

/-- The answer without what is drawn and what is read off a clock. -/
def Answer.bare : Answer → Answer
  | wallet w => wallet w.bare
  | exchanged w x debited credited => exchanged w.bare x debited credited
  | rate x => rate x
  | rates rs => rates rs

theorem Change.bare_answer (change : Change) (w : Wallet) :
    (change.answer w).bare = change.answer w.bare := by
  cases change <;> rfl

/-- The outcome without what is drawn and what is read off a clock. -/
def Outcome.bare (outcome : Outcome) : Outcome := outcome.map Answer.bare

/-- The user's row, if there is one, without what is drawn and what is read off a clock. -/
def MemoryStore.bareRow (s : MemoryStore) (user : Uuid) : Option Wallet :=
  (s.get user).toOption.map Wallet.bare

theorem MemoryStore.bareRow_of_get {s : MemoryStore} {user : Uuid} {w : Wallet}
    (h : s.get user = .ok w) : s.bareRow user = some w.bare := by
  rw [bareRow, h]
  rfl

theorem MemoryStore.bareRow_of_error {s : MemoryStore} {user : Uuid} {e : WalletError}
    (h : s.get user = .error e) : s.bareRow user = none := by
  rw [bareRow, h]
  rfl

/-! ### What requests come to -/

/-- **What a request comes to:** the wallet of its user afterwards, if there is one, and the
outcome. -/
abbrev Settlement := Option Wallet × Outcome

/-- What a change of a wallet comes to. -/
def Change.settle (change : Change) : Option Wallet → Settlement
  | none => (none, .error .walletNotFound)
  | some w =>
    match change.mutation.change w with
    | .ok next => (some next, .ok (change.answer next))
    | .error e => (some w, .error e)

/-- What an exchange comes to, at the rate that the table quotes. -/
def RateTable.settle (T : RateTable) (pair : CurrencyPair) (debit : MinorUnits) (amount : Float)
    (w : Option Wallet) : Settlement :=
  match T.quote pair with
  | none => (w, .error (.rateUnavailable pair.sold.symbol pair.bought.symbol))
  | some rate =>
    match Change.atRate pair debit amount rate with
    | .ok change => change.settle w
    | .error e => (w, .error e)

/-- What an order comes to, or a look at the wallet if nothing is ordered. -/
def RateTable.settleOrder (T : RateTable) (amount : Float) : Option Order → Option Wallet → Settlement
  | _, none => (none, .error .walletNotFound)
  | none, some w => (some w, .ok (.wallet w))
  | some (.deposit currency units), w => (Change.deposit currency units).settle w
  | some (.withdraw currency units), w => (Change.withdraw currency units).settle w
  | some (.exchange pair debit), some w =>
    match w.debit pair.sold debit with
    | .ok _ => T.settle pair debit amount (some w)
    | .error e => (some w, .error e)

/-- **What a request about a wallet comes to.** -/
def Request.settle (T : RateTable) (r : Request) (w : Option Wallet) : Settlement :=
  match r.order? with
  | some (.ok order) => T.settleOrder r.amount (some order) w
  | some (.error e) => (w, .error e)
  | none =>
    match r, w with
    | create user, none =>
      (some (Wallet.create (.ofNat 0) user .epoch),
        .ok (.wallet (Wallet.create (.ofNat 0) user .epoch)))
    | create user, some w => (some w, .error (.storage (.userTaken user)))
    | _, w => T.settleOrder r.amount none w

/-- What a change comes to shows in the row that is written, or in the error. -/
theorem Change.settle_bare (change : Change) (now : Timestamp) (w : Wallet) :
    change.settle (some w.bare) =
      match change.mutation.applyTo now w with
      | .ok row => (some row.bare, .ok (change.answer row).bare)
      | .error e => (some w.bare, .error e) := by
  unfold settle
  dsimp only
  rw [Mutation.change_relabel Wallet.relabels_bare, Mutation.applyTo_eq]
  cases change.mutation.change w with
  | error e => rfl
  | ok next =>
    have same : (next.stamped now).bare = next.bare := rfl
    simp only [Except.map, bare_answer, same]

/-! ### The store does what is settled -/

section Store

variable {T : RateTable} {s t : MemoryStore} {id user : Uuid} {now : Timestamp} {change : Change}
  {before row : Wallet} {e : WalletError} (sound : s.Sound)
include sound

theorem Request.settle_create (made : s.create (Wallet.create id user now) = .ok t) :
    (create user).settle T (s.bareRow user) =
      (t.bareRow user, Outcome.bare (.ok (.wallet (Wallet.create id user now)))) := by
  obtain ⟨free, -, -⟩ := MemoryStore.create_eq_ok made
  have none_ : s.bareRow user = none := by
    refine MemoryStore.bareRow_of_error (e := .walletNotFound) ?_
    unfold MemoryStore.get
    rw [show s.byUser.get? user = none from free]
  have after : t.get user = .ok (Wallet.create id user now) :=
    (MemoryStore.get_create sound made user).trans (if_pos rfl)
  rw [none_, MemoryStore.bareRow_of_get after]
  rfl

/-- Under a name that is new, a creation is refused only if the user has a wallet. -/
theorem Request.settle_create_error (fails : s.create (Wallet.create id user now) = .error e)
    (new : s.rows.get? id = none) :
    (create user).settle T (s.bareRow user) = (s.bareRow user, Outcome.bare (.error e)) := by
  obtain ⟨rfl, row, there⟩ := MemoryStore.create_eq_error_of_new sound fails new
  rw [MemoryStore.bareRow_of_get (show s.get user = .ok row from there)]
  rfl

theorem Change.settle_mutate (there : s.rows.get? id = some before)
    (done : s.mutate now id change.mutation = .ok (t, row)) :
    change.settle (s.bareRow before.user) =
      (t.bareRow before.user, Outcome.bare (.ok (change.answer row))) := by
  obtain ⟨before', there', applied, -⟩ := MemoryStore.mutate_eq_ok done
  obtain rfl := Option.some.inj (there.symm.trans there')
  have found : s.get before.user = .ok before :=
    MemoryStore.get_eq_ok_iff.2 ⟨id, sound.index_of_row there, there⟩
  have after : t.get before.user = .ok row :=
    (MemoryStore.get_mutate sound done _).trans (if_pos (Mutation.applyTo_spec applied).1.user_eq)
  rw [MemoryStore.bareRow_of_get found, MemoryStore.bareRow_of_get after,
    change.settle_bare now before, applied]
  rfl

theorem Change.settle_mutate_error (there : s.rows.get? id = some before)
    (fails : s.mutate now id change.mutation = .error e) :
    change.settle (s.bareRow before.user) =
      (s.bareRow before.user, Outcome.bare (.error e)) := by
  have found : s.get before.user = .ok before :=
    MemoryStore.get_eq_ok_iff.2 ⟨id, sound.index_of_row there, there⟩
  rcases MemoryStore.mutate_eq_error fails with ⟨gone, -⟩ | ⟨before', there', applied⟩
  · cases gone.symm.trans there
  obtain rfl := Option.some.inj (there.symm.trans there')
  rw [MemoryStore.bareRow_of_get found, change.settle_bare now before, applied]
  rfl

end Store

namespace Service

variable {s s₀ t : State} {id : CallId} {call : Call} {next : Option Stage} {stage stage' : Stage}
  {r : Request} {drawn user : Uuid} {outcome : Outcome} {T : RateTable} {x : Settlement}
  {w : Option Wallet} {quest : Quest}

/-! ### Rates in an undisturbed service -/

/-- **What the cache may serve is what the table quotes.** -/
theorem Undisturbed.get_eq {now : Nat} {pair : CurrencyPair} (calm : Undisturbed T s) :
    s.cache.get now pair = if s.cache.isFresh now then T.quote pair else none := by
  rcases calm.cache with nothing | ⟨time, holds⟩
  · rw [RateCache.get_of_not_refreshed nothing, RateCache.isFresh, nothing]
    rfl
  · exact RateCache.get_of_take holds

/-- What is found in the cache is what the table quotes. -/
theorem Undisturbed.quote_of_get {now : Nat} {pair : CurrencyPair} {rate : Float}
    (calm : Undisturbed T s) (held : s.cache.get now pair = some rate) :
    T.quote pair = some rate := by
  rw [calm.get_eq] at held
  split at held
  · exact held
  · cases held

/-! ### What a call is bound to come to -/

/-- What a look for a rate is bound to come to; no call of a user looks for anything but the rate of
an exchange. -/
def Quest.IsBound (T : RateTable) (w : Option Wallet) (x : Settlement) : Quest → Prop
  | .exchange _ pair debit amount => x = T.settle pair debit amount w
  | _ => False

/-- **What a call is bound to come to** at each stage, given the rows as they are. -/
def Bound (T : RateTable) (r : Request) (drawn user : Uuid) (x : Settlement) (store : MemoryStore) :
    Stage → Prop
  | .arrived => x = r.settle T (store.bareRow user) ∧
      (∀ u, r = .create u → store.rows.get? drawn = none)
  | .queued order => x = T.settleOrder r.amount (some order) (store.bareRow user)
  | .locating order | .reading _ order => x = T.settleOrder r.amount order (store.bareRow user)
  | .consulting quest | .awaitingRefresh quest | .fetching quest _ | .refreshing quest _
  | .serving quest => quest.IsBound T (store.bareRow user) x
  | .storing _ change _ | .writing _ change => x = change.settle (store.bareRow user)
  | .committed change row => x = (store.bareRow user, .ok (change.answer row).bare)
  | .publishing answer _ => x = (store.bareRow user, .ok answer.bare)
  | .ending outcome => x = (store.bareRow user, Outcome.bare outcome)

/-- What is found leads to what was bound to come. -/
theorem Quest.Finds.bound {now due : Nat} {store : MemoryStore} (finds : quest.Finds s.cache now due stage)
    (calm : Undisturbed T s) (is : quest.IsBound T (store.bareRow user) x) :
    Bound T r drawn user x store stage := by
  cases finds with
  | listing | quote => exact is.elim
  | @exchange wallet pair debit credit amount rate held converts =>
    obtain rfl : x = _ := is
    have rate := calm.quote_of_get held
    simp only [Bound, RateTable.settle, rate, Change.atRate, converts]
  | @unconvertible wallet pair debit amount rate held fails =>
    obtain rfl : x = _ := is
    have rate := calm.quote_of_get held
    simp only [Bound, RateTable.settle, rate, Change.atRate, fails]
    rfl

/-- So does what is missing in a cache that may serve. -/
theorem Quest.missing_bound {due : Nat} (calm : Undisturbed T s) (fresh : s.cache.isFresh s.clock)
    (misses : quest.found? s.cache s.clock due = none) (is : quest.IsBound T w x) :
    x = (w, Outcome.bare quest.missing) := by
  cases quest with
  | listing | quote => exact is.elim
  | exchange wallet pair debit amount =>
    obtain rfl : x = _ := is
    have none_ := Option.map_eq_none_iff.1 misses
    rw [calm.get_eq, if_pos fresh] at none_
    simp only [RateTable.settle, none_]
    rfl

/-- What follows a reading of the row. -/
theorem State.bound_afterRead {row : Wallet} {order : Option Order} {store : MemoryStore}
    (there : store.bareRow user = some row.bare)
    (bound : x = T.settleOrder r.amount order (store.bareRow user)) :
    Bound T r drawn user x store (s.afterRead row r.amount order) := by
  rw [there] at bound
  subst bound
  unfold State.afterRead
  split
  · simp only [Bound, there, RateTable.settleOrder]
    rfl
  · simp only [Bound, there, RateTable.settleOrder]
  · simp only [Bound, there, RateTable.settleOrder]
  · next pair debit =>
    have same : row.bare.debit pair.sold debit = (row.debit pair.sold debit).map Wallet.bare :=
      Wallet.relabels_bare.debit
    cases taken : row.debit pair.sold debit with
    | ok w => simp only [Bound, Quest.IsBound, there, RateTable.settleOrder, same, taken, Except.map]
    | error e =>
      simp only [Bound, there, RateTable.settleOrder, same, taken, Except.map]
      rfl

/-- A permit that was asked for in a calm service is held. -/
theorem Attended.holds {order : Order} (h : Attended T s id r drawn (.queued order))
    (reach : Reaches s₀ s) (start : s₀.Unused) : s.gate.holds (.call id) := by
  have one : s.gate.held (.call id) + s.gate.queued (.call id) = 1 :=
    (reach.permitted start id).holds h.live
  have nowhere : s.gate.queued (.call id) = 0 := by rw [Gate.queued, h.calm.gate.nobody]; rfl
  exact Gate.holds_iff.2 (by omega)

/-- The wallet that a call works on is its user's, and is there. -/
theorem Attended.row {wallet : Uuid} (h : Attended T s id r drawn stage) (reach : Reaches s₀ s)
    (start : s₀.Unused) (for_ : r.user? = some user) (at_ : stage.wallet? = some wallet) :
    ∃ row, s.store.rows.get? wallet = some row ∧ s.store.get user = .ok row ∧ row.user = user := by
  obtain ⟨user', row, hu, hr, hg, own⟩ :=
    (reach.located start h.live).row (reach.store_sound start.store) at_
  obtain rfl := Option.some.inj (for_.symm.trans hu)
  exact ⟨row, hr, hg, own⟩

/-- **Every step of a call leads to what it was bound to come to.** -/
theorem Attended.bound (h : Attended T s id r drawn stage) (reach : Reaches s₀ s)
    (start : s₀.Unused) (for_ : r.user? = some user) (bound : Bound T r drawn user x s.store stage)
    (effect : Effect s id ⟨r, drawn, stage⟩ (some stage') t) :
    Bound T r drawn user x t.store stage' := by
  have sound := reach.store_sound start.store
  have is : stage.IsOf r := reach.isOf start h.live
  cases effect with
  | @created user' store at_ asks made =>
    obtain rfl : stage = .arrived := at_
    obtain rfl : r = .create user' := asks
    obtain rfl := Option.some.inj for_
    obtain ⟨rfl, -⟩ := bound
    exact Request.settle_create sound made
  | @uncreated user' e at_ asks fails =>
    obtain rfl : stage = .arrived := at_
    obtain rfl : r = .create user' := asks
    obtain rfl := Option.some.inj for_
    obtain ⟨rfl, new⟩ := bound
    exact Request.settle_create_error sound fails (new _ rfl)
  -- the other beginnings
  | viewed at_ asks =>
    obtain rfl : stage = .arrived := at_
    obtain rfl : r = _ := asks
    exact bound.1
  | sought at_ asks =>
    -- nobody's wallet is concerned
    have asks : Quest.ofRequest? r = some _ := asks
    cases r with
    | quote | listing => cases for_
    | _ => cases asks
  | invalid at_ asks =>
    obtain rfl : stage = .arrived := at_
    obtain ⟨rfl, -⟩ := bound
    have asks : r.order? = some _ := asks
    simp only [Bound, Request.settle, asks]
    rfl
  | queued at_ asks =>
    obtain rfl : stage = .arrived := at_
    obtain ⟨rfl, -⟩ := bound
    have asks : r.order? = some _ := asks
    simp only [Bound, Request.settle, asks]
    rfl
  -- at the gate and on the way to the row
  | admitted at_ =>
    obtain rfl : stage = .queued _ := at_
    exact bound
  | timedOut at_ waits =>
    obtain rfl : stage = .queued _ := at_
    exact absurd (h.holds reach start) waits
  | located at_ =>
    obtain rfl : stage = .locating _ := at_
    exact bound
  | unlocated at_ for' fails =>
    obtain rfl : stage = .locating _ := at_
    obtain rfl := Option.some.inj (for_.symm.trans for')
    obtain rfl := MemoryStore.get_eq_error fails
    obtain rfl : x = _ := bound
    change _ = (s.store.bareRow user, _)
    rw [MemoryStore.bareRow_of_error fails]
    rfl
  | read at_ turn there =>
    obtain rfl : stage = .reading _ _ := at_
    obtain ⟨row, there', found, -⟩ := h.row reach start for_ rfl
    obtain rfl := Option.some.inj (there'.symm.trans there)
    exact State.bound_afterRead (MemoryStore.bareRow_of_get found) bound
  | vanished at_ turn gone =>
    obtain rfl : stage = .reading _ _ := at_
    obtain ⟨row, there, -⟩ := h.row reach start for_ rfl
    cases gone.symm.trans there
  -- looking for the rate
  | found at_ finds =>
    obtain rfl : stage = .consulting _ := at_
    exact finds.bound h.calm bound
  | foundLate at_ _ finds =>
    obtain rfl : stage = .awaitingRefresh _ := at_
    exact finds.bound h.calm bound
  | served at_ finds =>
    obtain rfl : stage = .serving _ := at_
    exact finds.bound h.calm bound
  | unserved at_ misses =>
    obtain rfl : stage = .serving _ := at_
    exact Quest.missing_bound h.calm h.current misses bound
  | unanswered at_ ready replies => cases h.calm.source.symm.trans replies
  | missed at_ =>
    obtain rfl : stage = .consulting _ := at_
    exact bound
  | asked at_ =>
    obtain rfl : stage = .awaitingRefresh _ := at_
    exact bound
  | answered at_ =>
    obtain rfl : stage = .fetching _ _ := at_
    exact bound
  | refreshed at_ =>
    obtain rfl : stage = .refreshing _ _ := at_
    rw [State.goto_store, State.refreshCache_store]
    exact bound
  -- in the store, which works
  | broken at_ ready fails => cases h.calm.works.symm.trans fails
  | taken at_ =>
    obtain rfl : stage = .storing _ _ _ := at_
    exact bound
  | untaken at_ ready works gone =>
    obtain rfl : stage = .storing _ _ _ := at_
    obtain ⟨row, there, -⟩ := h.row reach start for_ rfl
    exact absurd ((Table.contains_iff ..).2 ⟨row, there⟩) gone
  | committed at_ turn done =>
    obtain rfl : stage = .writing _ _ := at_
    obtain rfl : x = _ := bound
    obtain ⟨before, there, -, rfl⟩ := h.row reach start for_ rfl
    exact Change.settle_mutate sound there done
  | rejected at_ turn fails =>
    obtain rfl : stage = .writing _ _ := at_
    obtain rfl : x = _ := bound
    obtain ⟨before, there, -, rfl⟩ := h.row reach start for_ rfl
    rw [State.fail_store]
    exact Change.settle_mutate_error sound there fails
  -- after the commit
  | silent at_ =>
    obtain rfl : stage = .committed _ _ := at_
    exact bound
  | announced at_ =>
    obtain rfl : stage = .committed _ _ := at_
    exact bound
  | published at_ =>
    obtain rfl : stage = .publishing _ _ := at_
    rw [State.publish_store]
    exact bound

/-- **What a call comes to is settled when it arrives.** -/
theorem Attended.settled (h : Attended T s id r drawn .arrived) (reach : Reaches s₀ s)
    (start : s₀.Unused) (for_ : r.user? = some user)
    (new : ∀ u, r = .create u → s.store.rows.get? drawn = none) (alone : Alone (Calm T) id s t)
    (ends : t.calls.get? id = some ⟨r, drawn, .ending outcome⟩) :
    (t.store.bareRow user, Outcome.bare outcome) = r.settle T (s.store.bareRow user) := by
  obtain ⟨-, bound⟩ := h.invariant reach start
    (P := fun u => Bound T r drawn user (r.settle T (s.store.bareRow user)) u.store) alone
    ⟨rfl, new⟩ (fun sofar attended bound effect => attended.bound sofar start for_ bound effect)
    (fun {u m stage} _ _ _ bound => by rwa [State.move_store]) ends
  exact bound.symm

/-! ### The wallets of others -/

/-- **A call leaves the wallets of others as they are.** -/
theorem Effect.get_of_other (h : Effect s id call next t) (reach : Reaches s₀ s)
    (start : s₀.Unused) (live : s.calls.get? id = some call) (other : call.request.user? ≠ some user) :
    t.store.get user = s.store.get user := by
  have sound := reach.store_sound start.store
  cases h with
  | @created owner store at_ asks made =>
    refine (MemoryStore.get_create sound made user).trans (if_neg fun same => other ?_)
    rw [asks]
    exact congrArg some same
  | @committed wallet change store row at_ turn done =>
    obtain ⟨owner, before, hu, there, -, own⟩ :=
      (reach.located start live).row sound (show call.stage.wallet? = some wallet by rw [at_]; rfl)
    obtain ⟨before', there', applied, -⟩ := MemoryStore.mutate_eq_ok done
    obtain rfl := Option.some.inj (there.symm.trans there')
    refine (MemoryStore.get_mutate sound done user).trans (if_neg fun same => other ?_)
    rw [hu, ← own, ← same, (Mutation.applyTo_spec applied).1.user_eq]
  | refreshed => rw [State.goto_store, State.refreshCache_store]
  | broken | untaken => rw [State.fail_store]
  | rejected =>
    rw [State.fail_store]
    rfl
  | published => rw [State.publish_store]
  | _ => rfl

/-- A call adds no row but the one that it was asked to create. -/
theorem Effect.rows_of_new (h : Effect s id call next t) {wallet : Uuid}
    (new : s.store.rows.get? wallet = none)
    (other : ∀ owner, call.request = .create owner → call.drawn ≠ wallet) :
    t.store.rows.get? wallet = none := by
  cases h with
  | created at_ asks made =>
    obtain ⟨-, -, rfl⟩ := MemoryStore.create_eq_ok made
    exact (Table.get?_insert_of_ne _ (other _ asks) _).trans new
  | committed at_ turn done =>
    obtain ⟨before, there, -, rfl⟩ := MemoryStore.mutate_eq_ok done
    refine (Table.get?_insert_of_ne _ ?_ _).trans new
    rintro rfl
    cases new.symm.trans there
  | refreshed => rwa [State.goto_store, State.refreshCache_store]
  | broken | untaken => rwa [State.fail_store]
  | rejected =>
    rw [State.fail_store]
    exact new
  | published => rwa [State.publish_store]
  | _ => exact new

variable {may : State → Move → Prop}

/-- A call that goes on alone leaves the wallets of others as they are. -/
theorem Alone.get_of_other (h : Alone may id s t) (reach : Reaches s₀ s) (start : s₀.Unused)
    (was : s.calls.get? id = some ⟨r, drawn, stage⟩) (other : r.user? ≠ some user) :
    t.store.get user = s.store.get user := by
  induction h with
  | start => rfl
  | @moved t u way moves ih =>
    obtain ⟨call, live, next, effect⟩ := State.step?_effect moves
    obtain ⟨later, rfl⟩ := way.exists_stage ⟨stage, was⟩ live
    exact (effect.get_of_other (reach.trans way.reaches) start live other).trans ih
  | around _ _ _ ih => rw [State.move_store, ih]

theorem Alone.rows_of_new (h : Alone may id s t) {wallet : Uuid}
    (was : s.calls.get? id = some ⟨r, drawn, stage⟩) (new : s.store.rows.get? wallet = none)
    (other : ∀ owner, r = .create owner → drawn ≠ wallet) : t.store.rows.get? wallet = none := by
  induction h with
  | start => exact new
  | @moved t u way moves ih =>
    obtain ⟨call, live, next, effect⟩ := State.step?_effect moves
    obtain ⟨later, rfl⟩ := way.exists_stage ⟨stage, was⟩ live
    exact effect.rows_of_new ih other
  | around _ _ _ ih => rwa [State.move_store]

end Service

end Purse
