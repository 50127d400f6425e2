import Purse.Proofs.Service.Requests

/-!
# The rows during a run

Only two steps touch the store: the one that adds a wallet and the one that commits a change. So the
rows and their index stay sound (`Reaches.store_sound`), rows are never lost
(`Reaches.store_extends`), and a call that once found its user's wallet keeps the right one, however
long it waits (`Reaches.located`).
-/

namespace Purse.Service

variable {s t : State} {id : CallId} {call : Call} {next : Option Stage}

/-- Whether the occurrence tells of a change of the rows. -/
def Occurrence.isEntry : Occurrence → Bool
  | created .. | committed .. => true
  | _ => false

/-- **How a step changes the rows,** and what it enters in the history: no change and no entry, a
new wallet, or a change of one that is there. -/
inductive Written (s t : State) : Prop
  | kept (store : t.store = s.store) (history : Adds (fun o => o.isEntry = false) s t)
  | created {id : CallId} {name user : Uuid}
      (store : s.store.create (Wallet.create name user s.now) = .ok t.store)
      (history : t.history = .created id (Wallet.create name user s.now) :: s.history)
  | committed {id : CallId} {wallet : Uuid} {change : Change} {row : Wallet}
      (store : s.store.mutate s.now wallet change.mutation = .ok (t.store, row))
      (history : t.history = .committed id change row :: s.history)

theorem Effect.written (h : Effect s id call next t) : Written s t := by
  cases h with
  -- two ways of a step touch the store, and these are the ones that make an entry
  | created at_ asks made => exact .created made rfl
  | committed at_ turn done => exact .committed done rfl
  | read | asked | finished => exact .kept rfl (.one rfl rfl)
  | refreshed =>
    exact .kept (State.refreshCache_store ..) (State.refreshCache_adds (fun _ => rfl) rfl)
  | published => exact .kept (State.publish_store ..) (State.publish_adds (fun _ => rfl) rfl)
  | broken | untaken | rejected => exact .kept (State.fail_store ..) (State.fail_adds fun _ => rfl)
  | _ => exact .kept rfl (.nothing rfl)

theorem Step.written (h : Step s t) : Written s t := by
  cases h with
  | call id moves =>
    obtain ⟨call, -, next, effect⟩ := State.step?_effect moves
    exact effect.written
  | arrive => exact .kept rfl (.one rfl rfl)
  | outside m other =>
    cases m with
    | arrive id request drawn => exact absurd rfl (other id request drawn)
    | drop id =>
      refine .kept (State.drop_store ..) ?_
      cases live : s.calls.get? id with
      | none => exact .nothing (by rw [State.move, State.drop_eq_of_gone live])
      | some call => exact .one (State.drop_history live) rfl
    | refreshCache table =>
      exact .kept (State.refreshCache_store ..) (State.refreshCache_adds (fun _ => rfl) rfl)
    | _ => exact .kept rfl (.nothing rfl)

theorem Reaches.store_sound (h : Reaches s t) (start : s.store.Sound) : t.store.Sound := by
  refine h.invariant (P := fun u => u.store.Sound) start fun u v _ sound step => ?_
  cases step.written with
  | kept same => exact same ▸ sound
  | created made => exact sound.create made
  | committed done => exact sound.mutate done

theorem Step.store_extends (h : Step s t) : s.store.Extends t.store := by
  cases h.written with
  | kept same => exact same ▸ .refl _
  | created made => exact MemoryStore.extends_create made
  | committed done => exact MemoryStore.extends_mutate done

/-- **Rows are never lost and never change hands.** -/
theorem Reaches.store_extends (h : Reaches s t) : s.store.Extends t.store :=
  h.invariant (P := fun u => s.store.Extends u.store) (.refl _) fun _ _ _ sofar step =>
    sofar.trans step.store_extends

/-! ### A call keeps the wallet that it found -/

/-- The wallet that a rate is wanted for. -/
def Quest.wallet? : Quest → Option Uuid
  | .exchange wallet .. => some wallet
  | _ => none

/-- The wallet that a stage works on. -/
def Stage.wallet? : Stage → Option Uuid
  | .reading wallet _ | .storing wallet _ _ | .writing wallet _ => some wallet
  | .consulting quest | .awaitingRefresh quest | .fetching quest _ | .refreshing quest _
  | .serving quest =>
    quest.wallet?
  | _ => none

/-- The wallet that the call works on is that of the user it works for. -/
def Located (store : MemoryStore) (call : Call) : Prop :=
  ∀ wallet, call.stage.wallet? = some wallet →
    ∃ user, call.request.user? = some user ∧ store.byUser.get? user = some wallet

theorem Located.extend {store later : MemoryStore} (h : Located store call)
    (k : store.Extends later) :
    Located later call := by
  intro wallet hw
  obtain ⟨user, hu, hi⟩ := h wallet hw
  exact ⟨user, hu, k.index hi⟩

/-- The row that the call works on is there, and is its user's. -/
theorem Located.row {store : MemoryStore} {wallet : Uuid} (h : Located store call)
    (sound : store.Sound) (at_ : call.stage.wallet? = some wallet) :
    ∃ user row, call.request.user? = some user ∧ store.rows.get? wallet = some row ∧
      store.get user = .ok row ∧
      row.user = user := by
  obtain ⟨user, hu, hi⟩ := h wallet at_
  obtain ⟨row, hr, hrow⟩ := sound.row_of_index hi
  exact ⟨user, row, hu, hr, MemoryStore.get_eq_ok_iff.2 ⟨wallet, hi, hr⟩, hrow⟩

theorem Quest.Finds.wallet? {quest : Quest} {cache : RateCache} {now due : Nat} {stage : Stage}
    {wallet : Uuid} (h : quest.Finds cache now due stage) (hw : stage.wallet? = some wallet) :
    quest.wallet? = some wallet := by
  cases h with
  | exchange => exact hw
  | _ => cases hw

/-- A step keeps the wallet that the call works on, or finds the one of its user. -/
theorem Effect.wallet? {stage : Stage} {wallet : Uuid} (h : Effect s id call (some stage) t)
    (sound : s.store.Sound) (hw : stage.wallet? = some wallet) :
    call.stage.wallet? = some wallet ∨
      ∃ user, call.request.user? = some user ∧ s.store.byUser.get? user = some wallet := by
  cases h with
  | located at_ for_ there =>
    obtain ⟨wallet', hi, hr⟩ := MemoryStore.get_eq_ok_iff.1 there
    obtain rfl := Option.some.inj hw
    exact .inr ⟨_, for_, sound.id_of_row hr ▸ hi⟩
  | read at_ turn there =>
    -- the row read is kept under its own identifier, so the stage that follows names the same
    -- wallet
    have same := sound.id_of_row there
    rw [at_]
    unfold State.afterRead at hw
    split at hw
    · cases hw
    · exact .inl (same ▸ hw)
    · exact .inl (same ▸ hw)
    · split at hw
      · exact .inl (same ▸ hw)
      · cases hw
  | found at_ finds | foundLate at_ _ finds | served at_ finds =>
    rw [at_]
    exact .inl (finds.wallet? hw)
  | sought at_ asks =>
    -- what a request wants at once is never the rate of an exchange
    unfold Quest.ofRequest? at asks
    split at asks <;> cases asks <;> cases hw
  | missed at_ | asked at_ | answered at_ | refreshed at_ | taken at_ =>
    rw [at_]
    exact .inl hw
  | _ => cases hw

/-- **A call in progress works on the wallet of its user.** -/
theorem Reaches.located (h : Reaches s t) (start : s.Unused) (live : t.calls.get? id = some call) :
    Located t.store call := by
  refine h.calls_invariant start (Q := fun u _ call => Located u.store call) ?_ ?_ ?_ live
  · exact fun _ _ => nofun
  -- what was found stays found, since the index only grows
  · exact fun _ step _ found => found.extend step.store_extends
  · intro u v id call stage before step _ found effect wallet hw
    rcases effect.wallet? (before.store_sound start.store) hw with hw | ⟨user, hu, hi⟩
    · exact found.extend step.store_extends wallet hw
    · exact ⟨user, hu, step.store_extends.index hi⟩

end Purse.Service
