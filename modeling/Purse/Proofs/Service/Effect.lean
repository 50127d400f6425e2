import Purse.Service.Step

/-!
# What one step of a call does

`State.step?` is a program; `Effect` is the list of everything that it can do, one constructor for
each way a step can go, with the guard under which it goes that way and the state it leads to.
`State.step?_effect` and its converse `Effect.step?_eq` are the one place where the program is opened:
every invariant of the service is proved by cases on `Effect`.

The stages that a look into the cache leads to are described in the same way by `Quest.Finds`.
-/

namespace Purse

/-- The mutation that a request asks for, with its arguments checked; none for requests that mutate
nothing. -/
def Request.order? : Request → Option (Except WalletError Order)
  | deposit _ currency amount => some (Order.parseDeposit currency amount)
  | withdraw _ currency amount => some (Order.parseWithdraw currency amount)
  | exchange _ sold bought amount => some (Order.parseExchange sold bought amount)
  | _ => none

namespace Service

/-! ### The parts of the state that the small operations leave alone -/

namespace State

section Goto

variable (s : State) (id : CallId) (stage : Stage)

@[simp] theorem goto_store : (s.goto id stage).store = s.store := rfl

@[simp] theorem goto_gate : (s.goto id stage).gate = s.gate := rfl

@[simp] theorem goto_sink : (s.goto id stage).sink = s.sink := rfl

@[simp] theorem goto_history : (s.goto id stage).history = s.history := rfl

@[simp] theorem goto_calls (j : CallId) :
    (s.goto id stage).calls.get? j =
      if id = j then (s.calls.get? j).map fun call => { call with stage } else s.calls.get? j :=
  Table.get?_modify ..

variable {s id} in
theorem goto_calls_self {call : Call} (live : s.calls.get? id = some call) :
    (s.goto id stage).calls.get? id = some { call with stage } := by
  rw [goto_calls, if_pos rfl, live, Option.map_some]

end Goto

section Record

variable (s : State) (o : Occurrence)

@[simp] theorem record_store : (s.record o).store = s.store := rfl

@[simp] theorem record_gate : (s.record o).gate = s.gate := rfl

@[simp] theorem record_sink : (s.record o).sink = s.sink := rfl

@[simp] theorem record_calls : (s.record o).calls = s.calls := rfl

@[simp] theorem record_history : (s.record o).history = o :: s.history := rfl

end Record

/-- Notices go into the history and nowhere else. -/
theorem notice_eq (s : State) (ns : List Notice) :
    s.notice ns = { s with history := (ns.map Occurrence.noticed).reverse ++ s.history } := by
  induction ns generalizing s with
  | nil => rfl
  | cons n ns ih =>
    change (s.record (.noticed n)).notice ns = _
    rw [ih, record_history, List.map_cons, List.reverse_cons, List.append_assoc]
    rfl

section Notice

variable (s : State) (ns : List Notice)

@[simp] theorem notice_store : (s.notice ns).store = s.store := by rw [notice_eq]

@[simp] theorem notice_gate : (s.notice ns).gate = s.gate := by rw [notice_eq]

@[simp] theorem notice_sink : (s.notice ns).sink = s.sink := by rw [notice_eq]

@[simp] theorem notice_calls : (s.notice ns).calls = s.calls := by rw [notice_eq]

@[simp] theorem notice_history :
    (s.notice ns).history = (ns.map Occurrence.noticed).reverse ++ s.history := by rw [notice_eq]

end Notice

section RowLock

variable (s : State) (wallet : Uuid) (f : Lock CallId → Lock CallId)

@[simp] theorem withRowLock_store : (s.withRowLock wallet f).store = s.store := rfl

@[simp] theorem withRowLock_gate : (s.withRowLock wallet f).gate = s.gate := rfl

@[simp] theorem withRowLock_sink : (s.withRowLock wallet f).sink = s.sink := rfl

@[simp] theorem withRowLock_calls : (s.withRowLock wallet f).calls = s.calls := rfl

@[simp] theorem withRowLock_history : (s.withRowLock wallet f).history = s.history := rfl

end RowLock

section EndRefresh

variable (s : State) (id : CallId)

@[simp] theorem endRefresh_store : (s.endRefresh id).store = s.store := rfl

@[simp] theorem endRefresh_gate : (s.endRefresh id).gate = s.gate := rfl

@[simp] theorem endRefresh_sink : (s.endRefresh id).sink = s.sink := rfl

@[simp] theorem endRefresh_calls : (s.endRefresh id).calls = s.calls := rfl

@[simp] theorem endRefresh_history : (s.endRefresh id).history = s.history := rfl

end EndRefresh

section RefreshCache

variable (s : State) (by_ : Option CallId) (table : RateTable)

@[simp] theorem refreshCache_store : (s.refreshCache by_ table).store = s.store := by
  simp [refreshCache]

@[simp] theorem refreshCache_gate : (s.refreshCache by_ table).gate = s.gate := by
  simp [refreshCache]

@[simp] theorem refreshCache_sink : (s.refreshCache by_ table).sink = s.sink := by
  simp [refreshCache]

@[simp] theorem refreshCache_calls : (s.refreshCache by_ table).calls = s.calls := by
  simp [refreshCache]

@[simp] theorem refreshCache_history :
    (s.refreshCache by_ table).history =
      ((Notice.ofTable table).map Occurrence.noticed).reverse ++
        .refreshed by_ s.clock table :: s.history := by
  simp [refreshCache]

end RefreshCache

section Fail

variable (s : State) (id : CallId) (change : Change) (e : WalletError)

@[simp] theorem fail_store : (s.fail id change e).store = s.store := by simp [fail]

@[simp] theorem fail_gate : (s.fail id change e).gate = s.gate := by simp [fail]

@[simp] theorem fail_sink : (s.fail id change e).sink = s.sink := by simp [fail]

@[simp] theorem fail_calls (j : CallId) :
    (s.fail id change e).calls.get? j = (s.goto id (.ending (.error e))).calls.get? j := by
  simp [fail]

@[simp] theorem fail_history :
    (s.fail id change e).history =
      ((Notice.ofFailure change.kind e).map Occurrence.noticed).reverse ++ s.history := by
  simp [fail]

end Fail

section Publish

variable (s : State) (id : CallId) (answer : Answer) (event : WalletEvent)

/-- Why the receiver refuses an event that is offered to it now, if it does. -/
def refusal (s : State) (event : WalletEvent) : Option PartnerFault :=
  (s.sink.offer s.offered (event.key, event)).2

/-- The notices of an event that is offered now: one if it is refused. -/
def publishNotices (s : State) (event : WalletEvent) : List Notice :=
  (s.refusal event).toList.map fun fault =>
    .publishFailed event.kind event.id event.wallet (.partner fault)

/-- Publishing touches the receiver and the history, and ends the call whatever the receiver
says. -/
theorem publish_eq :
    s.publish id answer event =
      (({ s with sink := (s.sink.offer s.offered (event.key, event)).1 }.record
        (.published id event.key event (s.refusal event))).notice (s.publishNotices event)).goto id
        (.ending (.ok answer)) := by
  unfold publish publishNotices refusal
  rcases s.sink.offer s.offered (event.key, event) with ⟨sink, _ | fault⟩ <;> rfl

@[simp] theorem publish_store : (s.publish id answer event).store = s.store := by
  simp [publish_eq]

@[simp] theorem publish_gate : (s.publish id answer event).gate = s.gate := by
  simp [publish_eq]

@[simp] theorem publish_calls (j : CallId) :
    (s.publish id answer event).calls.get? j =
      (s.goto id (.ending (.ok answer))).calls.get? j := by
  simp [publish_eq]

@[simp] theorem publish_history :
    (s.publish id answer event).history =
      ((s.publishNotices event).map Occurrence.noticed).reverse ++
        .published id event.key event (s.refusal event) :: s.history := by
  simp [publish_eq]

end Publish

section Finish

variable (s : State) (id : CallId) (outcome : Outcome)

@[simp] theorem finish_store : (s.finish id outcome).store = s.store := rfl

@[simp] theorem finish_gate : (s.finish id outcome).gate = s.gate.release (.call id) := rfl

@[simp] theorem finish_sink : (s.finish id outcome).sink = s.sink := rfl

@[simp] theorem finish_calls (j : CallId) :
    (s.finish id outcome).calls.get? j = if id = j then none else s.calls.get? j :=
  Table.get?_erase ..

@[simp] theorem finish_history :
    (s.finish id outcome).history = .ended id outcome :: s.history := rfl

end Finish

end State

/-! ### A look into the cache -/

/-- What a request wants rates for, if it wants nothing else. -/
def Quest.ofRequest? : Request → Option Quest
  | .quote pair => some (.quote pair)
  | .listing => some .listing
  | _ => none

/-- **What a look into the cache can lead to:** a listing and a quote are answered, an exchange goes
on to the store or ends because nothing can be credited. -/
inductive Quest.Finds (cache : RateCache) (now due : Nat) : Quest → Stage → Prop
  | listing {rs : List ExchangeRate} (held : cache.getAll now = some rs) :
      Finds cache now due .listing (.ending (.ok (.rates rs)))
  | quote {pair : CurrencyPair} {rate : Float} (held : cache.get now pair = some rate) :
      Finds cache now due (.quote pair) (.ending (.ok (.rate rate)))
  | exchange {wallet : Uuid} {pair : CurrencyPair} {debit credit : MinorUnits} {amount rate : Float}
      (held : cache.get now pair = some rate)
      (converts : MinorUnits.ofConverted? amount rate = some credit) :
      Finds cache now due (.exchange wallet pair debit amount)
        (.storing wallet (.exchange pair debit credit rate) due)
  | unconvertible {wallet : Uuid} {pair : CurrencyPair} {debit : MinorUnits} {amount rate : Float}
      (held : cache.get now pair = some rate) (fails : MinorUnits.ofConverted? amount rate = none) :
      Finds cache now due (.exchange wallet pair debit amount) (.ending (.error .invalidAmount))

theorem Quest.finds_of_found? {quest : Quest} {cache : RateCache} {now due : Nat} {stage : Stage}
    (h : quest.found? cache now due = some stage) : quest.Finds cache now due stage := by
  cases quest with
  | listing =>
    obtain ⟨rs, hrs, rfl⟩ := Option.map_eq_some_iff.1 h
    exact .listing hrs
  | quote pair =>
    obtain ⟨rate, hrate, rfl⟩ := Option.map_eq_some_iff.1 h
    exact .quote hrate
  | exchange wallet pair debit amount =>
    obtain ⟨rate, hrate, rfl⟩ := Option.map_eq_some_iff.1 h
    unfold exchangeAt Change.atRate
    cases hc : MinorUnits.ofConverted? amount rate with
    | some credit => exact .exchange hrate hc
    | none => exact .unconvertible hrate hc

theorem Quest.found?_of_finds {quest : Quest} {cache : RateCache} {now due : Nat} {stage : Stage}
    (h : quest.Finds cache now due stage) : quest.found? cache now due = some stage := by
  cases h with
  | listing held => exact Option.map_eq_some_iff.2 ⟨_, held, rfl⟩
  | quote held => exact Option.map_eq_some_iff.2 ⟨_, held, rfl⟩
  | exchange held converts =>
    refine Option.map_eq_some_iff.2 ⟨_, held, ?_⟩
    rw [exchangeAt, Change.atRate, converts]
  | unconvertible held fails =>
    refine Option.map_eq_some_iff.2 ⟨_, held, ?_⟩
    rw [exchangeAt, Change.atRate, fails]

/-! ### The ways a step can go -/

/-- **Everything that one step of a call can do.** A constructor names the way the step goes, takes
the stage that the call stands at and the guard, and gives the stage that the call goes to, none if
it ends, and the state afterwards. -/
inductive Effect (s : State) (id : CallId) (call : Call) : Option Stage → State → Prop
  -- A request is looked at. A creation is carried out at once; all else goes on, unless its
  -- arguments are wrong.
  | created {user : Uuid} {store : MemoryStore} (at_ : call.stage = .arrived)
      (asks : call.request = .create user)
      (made : s.store.create (Wallet.create call.drawn user s.now) = .ok store) :
      Effect s id call (some (.ending (.ok (.wallet (Wallet.create call.drawn user s.now)))))
        ((({ s with store } : State).record
          (.created id (Wallet.create call.drawn user s.now))).goto id
            (.ending (.ok (.wallet (Wallet.create call.drawn user s.now)))))
  | uncreated {user : Uuid} {e : WalletError} (at_ : call.stage = .arrived)
      (asks : call.request = .create user)
      (fails : s.store.create (Wallet.create call.drawn user s.now) = .error e) :
      Effect s id call (some (.ending (.error e))) (s.goto id (.ending (.error e)))
  | viewed {user : Uuid} (at_ : call.stage = .arrived) (asks : call.request = .view user) :
      Effect s id call (some (.locating none)) (s.goto id (.locating none))
  | sought {quest : Quest} (at_ : call.stage = .arrived)
      (asks : Quest.ofRequest? call.request = some quest) :
      Effect s id call (some (.consulting quest)) (s.goto id (.consulting quest))
  | invalid {e : WalletError} (at_ : call.stage = .arrived)
      (asks : call.request.order? = some (.error e)) :
      Effect s id call (some (.ending (.error e))) (s.goto id (.ending (.error e)))
  | queued {order : Order} (at_ : call.stage = .arrived)
      (asks : call.request.order? = some (.ok order)) :
      Effect s id call (some (.queued order))
        (({ s with gate := s.gate.request (.call id) (s.gate.deadlineFrom s.clock) } : State).goto
          id (.queued order))
  -- A permit that is held counts even if the deadline has passed.
  | admitted {order : Order} (at_ : call.stage = .queued order) (holds : s.gate.holds (.call id)) :
      Effect s id call (some (.locating (some order))) (s.goto id (.locating (some order)))
  | timedOut {order : Order} (at_ : call.stage = .queued order) (holds : ¬ s.gate.holds (.call id))
      (overdue : s.gate.isOverdue (.call id) s.clock) :
      Effect s id call (some (.ending (.error .cancelled)))
        (({ s with gate := s.gate.leave (.call id) } : State).goto id (.ending (.error .cancelled)))
  -- The row is found without its lock, and then read under it. Between the two it may change.
  | located {order : Option Order} {user : Uuid} {row : Wallet} (at_ : call.stage = .locating order)
      (for_ : call.request.user? = some user) (there : s.store.get user = .ok row) :
      Effect s id call (some (.reading row.id order))
        ((s.withRowLock row.id (·.request id)).goto id (.reading row.id order))
  | unlocated {order : Option Order} {user : Uuid} {e : WalletError}
      (at_ : call.stage = .locating order) (for_ : call.request.user? = some user)
      (fails : s.store.get user = .error e) :
      Effect s id call (some (.ending (.error e))) (s.goto id (.ending (.error e)))
  | read {wallet : Uuid} {order : Option Order} {row : Wallet}
      (at_ : call.stage = .reading wallet order) (turn : (s.rowLock wallet).holder = some id)
      (there : s.store.rows.get? wallet = some row) :
      Effect s id call (some (s.afterRead row call.request.amount order))
        (((s.withRowLock wallet (·.withdraw id)).record (.read id row)).goto id
          (s.afterRead row call.request.amount order))
  | vanished {wallet : Uuid} {order : Option Order} (at_ : call.stage = .reading wallet order)
      (turn : (s.rowLock wallet).holder = some id) (gone : s.store.rows.get? wallet = none) :
      Effect s id call (some (.ending (.error .walletNotFound)))
        ((s.withRowLock wallet (·.withdraw id)).goto id (.ending (.error .walletNotFound)))
  -- A look into the cache, and after a miss a second look under the refresh lock: whoever had the
  -- lock before may have filled the cache.
  | found {quest : Quest} {stage : Stage} (at_ : call.stage = .consulting quest)
      (finds : quest.Finds s.cache s.clock s.storeDue stage) :
      Effect s id call (some stage) (s.goto id stage)
  | missed {quest : Quest} (at_ : call.stage = .consulting quest)
      (misses : quest.found? s.cache s.clock s.storeDue = none) :
      Effect s id call (some (.awaitingRefresh quest))
        (({ s with refreshLock := s.refreshLock.request id } : State).goto id
          (.awaitingRefresh quest))
  | foundLate {quest : Quest} {stage : Stage} (at_ : call.stage = .awaitingRefresh quest)
      (turn : s.refreshLock.holder = some id)
      (finds : quest.Finds s.cache s.clock s.storeDue stage) :
      Effect s id call (some stage) ((s.endRefresh id).goto id stage)
  | asked {quest : Quest} (at_ : call.stage = .awaitingRefresh quest)
      (turn : s.refreshLock.holder = some id)
      (misses : quest.found? s.cache s.clock s.storeDue = none) :
      Effect s id call (some (.fetching quest (s.clock + s.source.delay)))
        ((s.record (.fetchStarted id s.clock)).goto id (.fetching quest (s.clock + s.source.delay)))
  -- The call keeps the answer of the source for one step; only the next step puts it into the
  -- cache.
  | answered {quest : Quest} {due : Nat} {table : RateTable}
      (at_ : call.stage = .fetching quest due) (ready : due ≤ s.clock)
      (replies : s.source.answer = .ok table) :
      Effect s id call (some (.refreshing quest table)) (s.goto id (.refreshing quest table))
  | unanswered {quest : Quest} {due : Nat} {fault : PartnerFault}
      (at_ : call.stage = .fetching quest due) (ready : due ≤ s.clock)
      (replies : s.source.answer = .error fault) :
      Effect s id call (some (.ending (.error (.partner fault))))
        ((s.endRefresh id).goto id (.ending (.error (.partner fault))))
  | refreshed {quest : Quest} {table : RateTable} (at_ : call.stage = .refreshing quest table) :
      Effect s id call (some (.serving quest))
        ((s.refreshCache (some id) table).goto id (.serving quest))
  | served {quest : Quest} {stage : Stage} (at_ : call.stage = .serving quest)
      (finds : quest.Finds s.cache s.clock s.storeDue stage) :
      Effect s id call (some stage) ((s.endRefresh id).goto id stage)
  | unserved {quest : Quest} (at_ : call.stage = .serving quest)
      (misses : quest.found? s.cache s.clock s.storeDue = none) :
      Effect s id call (some (.ending quest.missing))
        ((s.endRefresh id).goto id (.ending quest.missing))
  -- The store may be out of order, and the row may be gone. Only then is the lock of the row asked
  -- for.
  | broken {wallet : Uuid} {change : Change} {due : Nat} {fault : StorageFault}
      (at_ : call.stage = .storing wallet change due) (ready : due ≤ s.clock)
      (fails : s.conditions.fault = some fault) :
      Effect s id call (some (.ending (.error (.storage fault))))
        (s.fail id change (.storage fault))
  | taken {wallet : Uuid} {change : Change} {due : Nat}
      (at_ : call.stage = .storing wallet change due) (ready : due ≤ s.clock)
      (works : s.conditions.fault = none) (there : s.store.rows.contains wallet) :
      Effect s id call (some (.writing wallet change))
        ((s.withRowLock wallet (·.request id)).goto id (.writing wallet change))
  | untaken {wallet : Uuid} {change : Change} {due : Nat}
      (at_ : call.stage = .storing wallet change due) (ready : due ≤ s.clock)
      (works : s.conditions.fault = none) (gone : ¬ s.store.rows.contains wallet) :
      Effect s id call (some (.ending (.error .walletNotFound))) (s.fail id change .walletNotFound)
  -- Under the lock the change is made to the row as it stands now, whatever it was when it was
  -- read.
  | committed {wallet : Uuid} {change : Change} {store : MemoryStore} {row : Wallet}
      (at_ : call.stage = .writing wallet change) (turn : (s.rowLock wallet).holder = some id)
      (done : s.store.mutate s.now wallet change.mutation = .ok (store, row)) :
      Effect s id call (some (.committed change row))
        ((({ s.withRowLock wallet (·.withdraw id) with store } : State).record
          (.committed id change row)).goto id (.committed change row))
  | rejected {wallet : Uuid} {change : Change} {e : WalletError}
      (at_ : call.stage = .writing wallet change) (turn : (s.rowLock wallet).holder = some id)
      (fails : s.store.mutate s.now wallet change.mutation = .error e) :
      Effect s id call (some (.ending (.error e)))
        ((s.withRowLock wallet (·.withdraw id)).fail id change e)
  -- The permit goes back before the event is offered.
  | silent {change : Change} {row : Wallet} (at_ : call.stage = .committed change row)
      (small : call.request.amount < s.threshold) :
      Effect s id call (some (.ending (.ok (change.answer row))))
        (({ s with gate := s.gate.release (.call id) } : State).goto id
          (.ending (.ok (change.answer row))))
  | announced {change : Change} {row : Wallet} (at_ : call.stage = .committed change row)
      (large : ¬ call.request.amount < s.threshold) :
      Effect s id call
        (some (.publishing (change.answer row)
          (.committed call.drawn change.kind row call.request.amount change.currencyText s.now)))
        (({ s with gate := s.gate.release (.call id) } : State).goto id
          (.publishing (change.answer row)
            (.committed call.drawn change.kind row call.request.amount change.currencyText s.now)))
  -- The receiver may refuse the event; the answer stays.
  | published {answer : Answer} {event : WalletEvent}
      (at_ : call.stage = .publishing answer event) :
      Effect s id call (some (.ending (.ok answer))) (s.publish id answer event)
  | finished {outcome : Outcome} (at_ : call.stage = .ending outcome) :
      Effect s id call none (s.finish id outcome)

section Effects

variable {s t : State} {id : CallId} {call : Call} {next : Option Stage}

theorem State.begin_effect {order : Except WalletError Order} (at_ : call.stage = .arrived)
    (asks : call.request.order? = some order) :
    ∃ next, Effect s id call next (s.begin id order) := by
  unfold State.begin
  split
  · exact ⟨_, .invalid at_ asks⟩
  · exact ⟨_, .queued at_ asks⟩

theorem State.start_effect (at_ : call.stage = .arrived) :
    ∃ next, Effect s id call next (s.start id call) := by
  unfold State.start
  split
  -- the requests come in the order of the program
  · next user asks =>
    dsimp only
    split
    · next made => exact ⟨_, .created at_ asks made⟩
    · next fails => exact ⟨_, .uncreated at_ asks fails⟩
  · next asks => exact ⟨_, .viewed at_ asks⟩
  · next asks => exact State.begin_effect at_ (by rw [asks, Request.order?])
  · next asks => exact State.begin_effect at_ (by rw [asks, Request.order?])
  · next asks => exact State.begin_effect at_ (by rw [asks, Request.order?])
  · next asks => exact ⟨_, .sought at_ (by rw [asks, Quest.ofRequest?])⟩
  · next asks => exact ⟨_, .sought at_ (by rw [asks, Quest.ofRequest?])⟩

theorem State.admit?_effect {order : Order} (at_ : call.stage = .queued order)
    (h : s.admit? id order = some t) : ∃ next, Effect s id call next t := by
  unfold State.admit? at h
  split at h
  · next holds =>
    obtain rfl := Option.some.inj h
    exact ⟨_, .admitted at_ holds⟩
  · next holds =>
    split at h
    · next overdue =>
      obtain rfl := Option.some.inj h
      exact ⟨_, .timedOut at_ holds overdue⟩
    · cases h

theorem State.locate_effect {order : Option Order} {user : Uuid}
    (at_ : call.stage = .locating order) (for_ : call.request.user? = some user) :
    ∃ next, Effect s id call next (s.locate id user order) := by
  unfold State.locate
  split
  · next there => exact ⟨_, .located at_ for_ there⟩
  · next fails => exact ⟨_, .unlocated at_ for_ fails⟩

theorem State.read?_effect {wallet : Uuid} {order : Option Order}
    (at_ : call.stage = .reading wallet order)
    (h : s.read? id wallet call.request.amount order = some t) :
    ∃ next, Effect s id call next t := by
  unfold State.read? at h
  split at h
  · next turn =>
    dsimp only at h
    split at h
    · next there =>
      obtain rfl := Option.some.inj h
      exact ⟨_, .read at_ turn there⟩
    · next gone =>
      obtain rfl := Option.some.inj h
      exact ⟨_, .vanished at_ turn gone⟩
  · cases h

theorem State.consult_effect {quest : Quest} (at_ : call.stage = .consulting quest) :
    ∃ next, Effect s id call next (s.consult id quest) := by
  unfold State.consult
  split
  · next finds => exact ⟨_, .found at_ (Quest.finds_of_found? finds)⟩
  · next misses => exact ⟨_, .missed at_ misses⟩

theorem State.recheck?_effect {quest : Quest} (at_ : call.stage = .awaitingRefresh quest)
    (h : s.recheck? id quest = some t) : ∃ next, Effect s id call next t := by
  unfold State.recheck? at h
  split at h
  · next turn =>
    split at h
    · next finds =>
      obtain rfl := Option.some.inj h
      exact ⟨_, .foundLate at_ turn (Quest.finds_of_found? finds)⟩
    · next misses =>
      obtain rfl := Option.some.inj h
      exact ⟨_, .asked at_ turn misses⟩
  · cases h

theorem State.fetch?_effect {quest : Quest} {due : Nat} (at_ : call.stage = .fetching quest due)
    (h : s.fetch? id quest due = some t) : ∃ next, Effect s id call next t := by
  unfold State.fetch? at h
  split at h
  · next ready =>
    split at h
    · next replies =>
      obtain rfl := Option.some.inj h
      exact ⟨_, .answered at_ ready replies⟩
    · next replies =>
      obtain rfl := Option.some.inj h
      exact ⟨_, .unanswered at_ ready replies⟩
  · cases h

theorem State.serve_effect {quest : Quest} (at_ : call.stage = .serving quest) :
    ∃ next, Effect s id call next (s.serve id quest) := by
  unfold State.serve
  cases h : quest.found? s.cache s.clock s.storeDue with
  | some stage => exact ⟨_, .served at_ (Quest.finds_of_found? h)⟩
  | none => exact ⟨_, .unserved at_ h⟩

theorem State.take?_effect {wallet : Uuid} {change : Change} {due : Nat}
    (at_ : call.stage = .storing wallet change due) (h : s.take? id wallet change due = some t) :
    ∃ next, Effect s id call next t := by
  unfold State.take? at h
  split at h
  · next ready =>
    split at h
    · next fails =>
      obtain rfl := Option.some.inj h
      exact ⟨_, .broken at_ ready fails⟩
    · next works =>
      split at h
      · next there =>
        obtain rfl := Option.some.inj h
        exact ⟨_, .taken at_ ready works there⟩
      · next gone =>
        obtain rfl := Option.some.inj h
        exact ⟨_, .untaken at_ ready works gone⟩
  · cases h

theorem State.write?_effect {wallet : Uuid} {change : Change}
    (at_ : call.stage = .writing wallet change) (h : s.write? id wallet change = some t) :
    ∃ next, Effect s id call next t := by
  unfold State.write? at h
  split at h
  · next turn =>
    dsimp only at h
    split at h
    · next done =>
      obtain rfl := Option.some.inj h
      exact ⟨_, .committed at_ turn done⟩
    · next fails =>
      obtain rfl := Option.some.inj h
      exact ⟨_, .rejected at_ turn fails⟩
  · cases h

theorem State.conclude_effect {change : Change} {row : Wallet}
    (at_ : call.stage = .committed change row) :
    ∃ next, Effect s id call next (s.conclude id call change row) := by
  unfold State.conclude
  dsimp only
  split
  · next small => exact ⟨_, .silent at_ small⟩
  · next large => exact ⟨_, .announced at_ large⟩

/-- **A step of a call goes one of the ways of `Effect`.** -/
theorem State.step?_effect (h : s.step? id = some t) :
    ∃ call, s.calls.get? id = some call ∧ ∃ next, Effect s id call next t := by
  unfold State.step? at h
  split at h
  · cases h
  · next call there =>
    refine ⟨call, there, ?_⟩
    -- one case for each stage, in the order of the program
    split at h
    case h_1 at_ => exact Option.some.inj h ▸ State.start_effect at_
    case h_2 at_ => exact State.admit?_effect at_ h
    case h_3 at_ =>
      obtain ⟨user, for_, rfl⟩ := Option.map_eq_some_iff.1 h
      exact State.locate_effect at_ for_
    case h_4 at_ => exact State.read?_effect at_ h
    case h_5 at_ => exact Option.some.inj h ▸ State.consult_effect at_
    case h_6 at_ => exact State.recheck?_effect at_ h
    case h_7 at_ => exact State.fetch?_effect at_ h
    case h_8 at_ => exact Option.some.inj h ▸ ⟨_, .refreshed at_⟩
    case h_9 at_ => exact Option.some.inj h ▸ State.serve_effect at_
    case h_10 at_ => exact State.take?_effect at_ h
    case h_11 at_ => exact State.write?_effect at_ h
    case h_12 at_ => exact Option.some.inj h ▸ State.conclude_effect at_
    case h_13 at_ => exact Option.some.inj h ▸ ⟨_, .published at_⟩
    case h_14 at_ => exact Option.some.inj h ▸ ⟨_, .finished at_⟩

theorem State.start_of_order? {order : Except WalletError Order}
    (asks : call.request.order? = some order) : s.start id call = s.begin id order := by
  unfold Request.order? at asks
  unfold State.start
  split at asks <;> cases asks <;> next asks => rw [asks]

theorem State.start_of_quest {quest : Quest} (asks : Quest.ofRequest? call.request = some quest) :
    s.start id call = s.goto id (.consulting quest) := by
  unfold Quest.ofRequest? at asks
  unfold State.start
  split at asks <;> cases asks <;> next asks => rw [asks]

/-- **All ways of `Effect` are steps:** under its guard the call goes that way. -/
theorem Effect.step?_eq (h : Effect s id call next t) (live : s.calls.get? id = some call) :
    s.step? id = some t := by
  unfold State.step?
  rw [live]
  cases h with
  | created at_ asks made => simp only [at_, State.start, asks, made]
  | uncreated at_ asks fails => simp only [at_, State.start, asks, fails]
  | viewed at_ asks => simp only [at_, State.start, asks]
  | sought at_ asks => simp only [at_, State.start_of_quest asks]
  | invalid at_ asks => simp only [at_, State.start_of_order? asks, State.begin]
  | queued at_ asks => simp only [at_, State.start_of_order? asks, State.begin]
  | admitted at_ holds => simp only [at_, State.admit?, if_pos holds]
  | timedOut at_ holds overdue => simp only [at_, State.admit?, if_neg holds, if_pos overdue]
  | located at_ for_ there => simp only [at_, for_, Option.map_some, State.locate, there]
  | unlocated at_ for_ fails => simp only [at_, for_, Option.map_some, State.locate, fails]
  | read at_ turn there => simp only [at_, State.read?, if_pos turn, there]
  | vanished at_ turn gone => simp only [at_, State.read?, if_pos turn, gone]
  | found at_ finds => simp only [at_, State.consult, Quest.found?_of_finds finds]
  | missed at_ misses => simp only [at_, State.consult, misses]
  | foundLate at_ turn finds =>
    simp only [at_, State.recheck?, if_pos turn, Quest.found?_of_finds finds]
  | asked at_ turn misses => simp only [at_, State.recheck?, if_pos turn, misses]
  | answered at_ ready replies => simp only [at_, State.fetch?, if_pos ready, replies]
  | unanswered at_ ready replies => simp only [at_, State.fetch?, if_pos ready, replies]
  | refreshed at_ => simp only [at_]
  | served at_ finds => simp only [at_, State.serve, Quest.found?_of_finds finds, Option.getD_some]
  | unserved at_ misses => simp only [at_, State.serve, misses, Option.getD_none]
  | broken at_ ready fails => simp only [at_, State.take?, if_pos ready, fails]
  | taken at_ ready works there => simp only [at_, State.take?, if_pos ready, works, if_pos there]
  | untaken at_ ready works gone => simp only [at_, State.take?, if_pos ready, works, if_neg gone]
  | committed at_ turn done => simp only [at_, State.write?, if_pos turn, done]
  | rejected at_ turn fails => simp only [at_, State.write?, if_pos turn, fails]
  | silent at_ small => simp only [at_, State.conclude, if_pos small]
  | announced at_ large => simp only [at_, State.conclude, if_neg large]
  | published at_ => simp only [at_]
  | finished at_ => simp only [at_]
/-- A step of a call moves that call to the stage that it goes to, or ends it. -/
theorem Effect.calls_self (h : Effect s id call next t) (live : s.calls.get? id = some call) :
    t.calls.get? id = next.map fun stage => { call with stage } := by
  -- the stage is set last, and nothing before that touches the calls
  cases h with
  | finished at_ => simp
  | refreshed => exact State.goto_calls_self _ ((State.refreshCache_calls ..).symm ▸ live)
  | broken | untaken | rejected => exact (State.fail_calls ..).trans (State.goto_calls_self _ live)
  | published => exact (State.publish_calls ..).trans (State.goto_calls_self _ live)
  | _ => exact State.goto_calls_self _ live

/-- Other calls stand where they stood. -/
theorem Effect.calls_of_ne (h : Effect s id call next t) {j : CallId} (hj : j ≠ id) :
    t.calls.get? j = s.calls.get? j := by
  cases h <;> simp [Ne.symm hj]

/-- Calls change nothing of what is around the service. -/
theorem Effect.surroundings (h : Effect s id call next t) :
    t.source = s.source ∧ t.conditions = s.conditions ∧ t.threshold = s.threshold := by
  cases h with
  | refreshed =>
    rw [State.refreshCache, State.notice_eq]
    exact ⟨rfl, rfl, rfl⟩
  | broken | untaken | rejected =>
    rw [State.fail, State.notice_eq]
    exact ⟨rfl, rfl, rfl⟩
  | published =>
    rw [State.publish_eq, State.notice_eq]
    exact ⟨rfl, rfl, rfl⟩
  | _ => exact ⟨rfl, rfl, rfl⟩

end Effects

/-! ### Moves from outside -/

namespace State

variable (s : State)

@[simp] theorem drop_store (id : CallId) : (s.drop id).store = s.store := by
  unfold drop
  split <;> rfl

@[simp] theorem move_store (m : Move) : (s.move m).store = s.store := by
  cases m <;> simp [move, arrive]

end State

end Service

end Purse
