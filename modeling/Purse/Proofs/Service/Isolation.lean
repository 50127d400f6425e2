import Purse.Proofs.Service.Announcements
import Purse.Proofs.Service.Settlement

/-!
# Users do not see each other

In a sequential run of a calm service, what a user gets follows from the user's own requests: the
outcomes of the calls and the row in the end are those that the requests settle one after another
(`Serial.settled`), and the events are those of the calls (`Serial.publicationsFor_eq`). Others warm
the cache or let it get cold, put their rows into the same store and stand at the same gate, and
nothing of that shows.

So calls of others can be left out, and calls for rates too: `Isolated` says that the calls that are
kept can be made on their own, and that the user cannot tell the two runs apart, identifiers and times
aside.
-/

namespace Purse

/-- What a user's requests settle one after another: the wallet in the end, and the outcomes. -/
def RateTable.settleAll (T : RateTable) (w : Option Wallet) (rs : List Request) :
    Option Wallet × List Outcome :=
  rs.foldl (fun x r => ((r.settle T x.1).1, x.2 ++ [(r.settle T x.1).2])) (w, [])

/-- One request more is settled in the wallet as it is then. -/
theorem RateTable.settleAll_append {T : RateTable} {w w' w'' : Option Wallet} {rs : List Request}
    {r : Request} {os : List Outcome} {o : Outcome} (before : (w', os) = T.settleAll w rs)
    (last : (w'', o) = r.settle T w') : (w'', os ++ [o]) = T.settleAll w (rs ++ [r]) := by
  unfold settleAll at before ⊢
  rw [List.foldl_append, ← before, List.foldl_cons, List.foldl_nil, ← last]

/-- The event without what is drawn and what is read off a clock. -/
def WalletEvent.bare (e : WalletEvent) : WalletEvent :=
  { e with id := .ofNat 0, wallet := .ofNat 0, timestamp := .epoch }

namespace Service

variable {s t t' : State} {cs cs' kept : List Served} {T : RateTable} {user : Uuid}
  {may : State → Move → Prop}

/-! ### One user's calls -/

namespace Served

/-- Whether the call is made for the user. -/
def isFor (user : Uuid) (c : Served) : Bool := c.request.user? = some user

/-- The identifier that was drawn for a new wallet. -/
def walletId? (c : Served) : Option Uuid :=
  match c.request with
  | .create _ => some c.drawn
  | _ => none

/-- How the call ended, without what is drawn and what is read off a clock. -/
def bareOutcome (c : Served) : Outcome := Outcome.bare c.outcome

/-- What the caller knows of the call. -/
def seen (c : Served) : Request × Outcome := (c.request, c.bareOutcome)

end Served

/-- **The identifiers drawn for new wallets are distinct,** and new. -/
structure Distinct (s : State) (cs : List Served) : Prop where
  nodup : (cs.filterMap Served.walletId?).Nodup
  new : ∀ wallet ∈ cs.filterMap Served.walletId?, s.store.rows.get? wallet = none

theorem Distinct.sublist (h : Distinct s cs) (fewer : kept.Sublist cs) : Distinct s kept :=
  ⟨h.nodup.sublist (fewer.filterMap _), fun wallet hm => h.new wallet ((fewer.filterMap _).subset hm)⟩

/-- The distinctness of identifiers is a matter of what was asked. -/
theorem Distinct.of_asked (h : Distinct s cs) (same : cs'.map Served.asked = cs.map Served.asked) :
    Distinct s cs' := by
  have drawn (ds : List Served) : ds.filterMap Served.walletId? =
      (ds.map Served.asked).filterMap fun a =>
        Served.walletId? ⟨a.1, a.2.1, a.2.2, .error .cancelled⟩ := by
    rw [List.filterMap_map]
    rfl
  have same : cs'.filterMap Served.walletId? = cs.filterMap Served.walletId? := by
    rw [drawn, same, ← drawn]
  exact ⟨same ▸ h.nodup, same ▸ h.new⟩

/-- There are no rows but those of the start and those that were asked for. -/
theorem Serial.rows_of_new (h : Serial may s t cs) {wallet : Uuid}
    (new : s.store.rows.get? wallet = none) (other : wallet ∉ cs.filterMap Served.walletId?) :
    t.store.rows.get? wallet = none := by
  induction h with
  | start => exact new
  | around _ _ _ ih => rw [State.move_store, ih other]
  | @call t u cs c sofar free alone ends ih =>
    rw [List.filterMap_append, List.mem_append, not_or] at other
    obtain ⟨before, last⟩ := other
    refine alone.rows_of_new (State.arrive_calls_self ..) (ih before) ?_
    rintro owner asks rfl
    refine last (List.mem_filterMap.2 ⟨c, List.mem_singleton_self c, ?_⟩)
    rw [Served.walletId?, asks]

/-- **What a user gets is what the user's requests settle.** -/
theorem Serial.settled (h : Serial (Calm T) s t cs) (start : s.Unused) (calm : Undisturbed T s)
    (distinct : Distinct s cs) (user : Uuid) :
    (t.store.bareRow user, (cs.filter (Served.isFor user)).map Served.bareOutcome) =
      T.settleAll (s.store.bareRow user) ((cs.filter (Served.isFor user)).map Served.request) := by
  induction h with
  | start => rfl
  | around _ _ _ ih => rw [State.move_store, ih distinct]
  | @call t u cs c sofar free alone ends ih =>
    have before := ih (distinct.sublist (List.sublist_append_left ..))
    have reach := sofar.reaches.tail (.arrive c.id c.request c.drawn free)
    rw [List.filter_append, State.finish_store]
    by_cases mine : c.request.user? = some user
    · -- a call of the user comes to what was settled
      have new (owner : Uuid) (asks : c.request = .create owner) :
          t.store.rows.get? c.drawn = none := by
        have drawn : c.walletId? = some c.drawn := by rw [Served.walletId?, asks]
        have last : c.drawn ∈ [c].filterMap Served.walletId? :=
          List.mem_filterMap.2 ⟨c, List.mem_singleton_self c, drawn⟩
        have apart := distinct.nodup
        rw [List.filterMap_append, List.nodup_append] at apart
        refine sofar.rows_of_new (distinct.new _ ?_) fun old => apart.2.2 _ old _ last rfl
        rw [List.filterMap_append]
        exact List.mem_append_right _ last
      have attended : Attended T (t.arrive c.id c.request c.drawn) c.id c.request c.drawn
          .arrived := .arrive (sofar.undisturbed start calm) (sofar.idle start)
      have settled := attended.settled reach start mine new alone ends
      have one : [c].filter (Served.isFor user) = [c] :=
        List.filter_cons_of_pos (decide_eq_true mine)
      rw [one, List.map_append, List.map_append]
      exact RateTable.settleAll_append before settled
    · -- a call of another leaves the user's row as it is
      have same : u.store.bareRow user = t.store.bareRow user := by
        unfold MemoryStore.bareRow
        rw [alone.get_of_other reach start (State.arrive_calls_self ..) mine]
        rfl
      rw [List.filter_cons_of_neg (by simpa [Served.isFor] using mine), List.filter_nil,
        List.append_nil, same, before]

/-! ### One user's events -/

/-- The events offered about the user, the earliest first, without what is drawn and what is read
off a clock. -/
def State.publicationsFor (s : State) (user : Uuid) : List Published :=
  (s.publications.filter fun p => p.2.user = user).map fun p => (p.1, p.2.bare)

/-- The event of a request, without what is drawn and what is read off a clock. -/
def eventFor? (user : Uuid) (r : Request) : Option Published :=
  r.kind?.map fun kind => (user.text,
    ⟨.ofNat 0, kind, user, .ofNat 0, r.amount, r.currencyText, .epoch, none⟩)

/-- The event of a call, given what its caller knows: there is one if it was answered and its amount
is large. -/
def eventSeen? (large : Float → Bool) (user : Uuid) (call : Request × Outcome) : Option Published :=
  if call.2.isOk && large call.1.amount then eventFor? user call.1 else none

/-- Whether there is one can be seen. -/
theorem Served.eventSeen?_seen (large : Float → Bool) (user : Uuid) (c : Served) :
    eventSeen? large user c.seen =
      if c.isToldIf large then eventFor? user c.request else none := by
  have same : c.bareOutcome.isOk = c.outcome.isOk := by
    rw [bareOutcome]
    cases c.outcome <;> rfl
  unfold eventSeen? seen isToldIf eventFor?
  rw [same]
  cases c.request.kind? with
  | none => simp
  | some kind => rfl

/-- An event tells of the user whose call it is. -/
theorem Served.Tells.eventFor?_eq {store : MemoryStore} {c : Served} {p : Published}
    (h : c.Tells store p) (user : Uuid) :
    (c.isFor user = decide (p.2.user = user)) ∧
      (p.2.user = user → eventFor? user c.request = some (p.1, p.2.bare)) := by
  obtain ⟨answer, row, kind, now, -, -, owns, -, kinds, rfl⟩ := h
  refine ⟨?_, ?_⟩
  · unfold isFor
    rw [owns]
    simp
  · rintro rfl
    unfold eventFor?
    rw [kinds]
    rfl

/-- **A user's events can be told from what the user's callers know.** -/
theorem Serial.publicationsFor_eq {large : Float → Bool}
    (accepted : ∀ x : Float, x.isFinite → (large x ↔ ¬ x < s.threshold)) (h : Serial may s t cs)
    (start : s.Unused) (user : Uuid) :
    t.publicationsFor user =
      ((cs.filter (Served.isFor user)).map Served.seen).filterMap (eventSeen? large user) := by
  -- what is seen to be told of is what is told of
  have seen : ((cs.filter (Served.isFor user)).map Served.seen).filterMap (eventSeen? large user) =
      (((cs.filter (Served.isToldIf large)).filter (Served.isFor user)).map
        Served.request).filterMap (eventFor? user) := by
    rw [List.filterMap_map, List.filterMap_map, List.filter_comm,
      List.filterMap_filter (p := Served.isToldIf large)]
    exact List.filterMap_congr fun c _ => Served.eventSeen?_seen large user c
  rw [seen, State.publicationsFor]
  have tells := h.tells accepted start
  generalize cs.filter (Served.isToldIf large) = ds, t.publications = ps at tells
  induction tells with
  | nil => rfl
  | @cons c p ds ps told _ ih =>
    obtain ⟨same, event⟩ := told.eventFor?_eq user
    rw [List.filter_cons, List.filter_cons, same]
    split
    · next mine =>
      rw [List.map_cons, List.map_cons, ih,
        List.filterMap_cons_some (event (of_decide_eq_true mine))]
    · exact ih

/-! ### Two runs -/

/-- **The user cannot tell the two runs apart:** the same calls have the same outcomes, the row is the
same in the end, and so are the events. -/
structure SeenAlike (user : Uuid) (t t' : State) (cs cs' : List Served) : Prop where
  calls : (cs.filter (Served.isFor user)).map Served.seen =
    (cs'.filter (Served.isFor user)).map Served.seen
  row : t.store.bareRow user = t'.store.bareRow user
  events : t.publicationsFor user = t'.publicationsFor user

/-- **Only the user's own requests count.** -/
theorem Serial.seenAlike (h : Serial (Calm T) s t cs) (k : Serial (Calm T) s t' cs')
    (start : s.Unused) (calm : Undisturbed T s) (distinct : Distinct s cs)
    (distinct' : Distinct s cs')
    (same : (cs.filter (Served.isFor user)).map Served.request =
      (cs'.filter (Served.isFor user)).map Served.request) :
    SeenAlike user t t' cs cs' := by
  have settled := h.settled start calm distinct user
  rw [same, ← k.settled start calm distinct' user] at settled
  obtain ⟨row, outcomes⟩ := Prod.mk.inj settled
  have calls : (cs.filter (Served.isFor user)).map Served.seen =
      (cs'.filter (Served.isFor user)).map Served.seen := by
    unfold Served.seen
    rw [← List.zip_map', ← List.zip_map', same, outcomes]
  have accepted (x : Float) (_ : x.isFinite) : !decide (x < s.threshold) ↔ ¬ x < s.threshold := by
    simp
  refine ⟨calls, row, ?_⟩
  rw [h.publicationsFor_eq accepted start, k.publicationsFor_eq accepted start, calls]

/-- **The user is isolated from the calls that are left out.** -/
structure Isolated (T : RateTable) (s t : State) (cs kept : List Served) (user : Uuid) : Prop where
  /-- The calls that are kept can be made on their own, -/
  served : ∃ t' cs', Serial (Calm T) s t' cs' ∧ Distinct s cs' ∧
    cs'.map Served.asked = kept.map Served.asked
  /-- and however they are made, with whatever identifiers and at whatever times, the user sees
  what was to be seen with all calls. -/
  alike : ∀ {t' cs'}, Serial (Calm T) s t' cs' → Distinct s cs' →
    cs'.map Served.request = kept.map Served.request → SeenAlike user t t' cs cs'

/-- Whose calls are kept is a matter of the requests. -/
theorem filter_isFor_request (cs : List Served) :
    (cs.filter (Served.isFor user)).map Served.request =
      (cs.map Served.request).filter fun r => r.user? = some user := by
  rw [List.filter_map]
  rfl

/-- **Users are isolated from each other.** -/
theorem Serial.isolated (h : Serial (Calm T) s t cs) (start : s.Unused) (calm : Undisturbed T s)
    (distinct : Distinct s cs) (fewer : kept.Sublist cs)
    (all : kept.filter (Served.isFor user) = cs.filter (Served.isFor user)) :
    Isolated T s t cs kept user where
  served := by
    have names : (kept.map Served.asked).map Prod.fst = kept.map Served.id := by
      rw [List.map_map]
      rfl
    have differ : (kept.map Served.id).Nodup := h.nodup_ids.sublist (fewer.map _)
    obtain ⟨t', cs', serial, same⟩ := calm.exists_serial start (names ▸ differ)
    exact ⟨t', cs', serial, (distinct.sublist fewer).of_asked same, same⟩
  alike {t' cs'} serial distinct' same := by
    refine h.seenAlike serial start calm distinct distinct' ?_
    rw [← all, filter_isFor_request, filter_isFor_request, same]

/-- A service that was not called yet, with a source of rates. -/
def trading : State :=
  .initial .epoch ⟨2, none, [], []⟩ 60000 State.defaultThreshold ⟨[⟨⟨.usd, .rub⟩, 90.0⟩], none, 0⟩
    ⟨0, none⟩ .accepting

theorem unused_trading : trading.Unused :=
  State.unused_initial (show Gate.create? 2 none = some ⟨2, none, [], []⟩ from rfl)

theorem undisturbed_trading : Undisturbed trading.source.table trading where
  source := rfl
  works := rfl
  cache := .inl rfl
  gate := ⟨rfl, by decide⟩

/-- Two users at once: the second makes the cache warm before the first has to do with it. -/
def mingling : List (CallId × Request × Uuid) :=
  let first := Uuid.ofNat 1
  let second := Uuid.ofNat 2
  [(0, .create first, .ofNat 11), (1, .create second, .ofNat 12),
    (2, .deposit second "USD" 100.0, .ofNat 13), (3, .exchange second "USD" "RUB" 60.0, .ofNat 14),
    (4, .deposit first "USD" 40000.0, .ofNat 15), (5, .listing, .ofNat 16),
    (6, .exchange first "USD" "RUB" 30000.0, .ofNat 17), (7, .withdraw first "RUB" 1.5, .ofNat 18)]

/-- Whether a request is about somebody else's wallet than that of the second user. -/
def isKept (r : Request) : Bool := r.user? ≠ some (.ofNat 2)

set_option maxRecDepth 10000 in
theorem isSome_mingling : (trading.serveAll? mingling).isSome := by decide +kernel

/-- The service after the calls of both users, and how they ended. -/
def mingled : State × List Served := (trading.serveAll? mingling).get isSome_mingling

set_option maxRecDepth 10000 in
theorem isSome_thinned :
    (trading.serveAll? (mingling.filter fun call => isKept call.2.1)).isSome := by
  decide +kernel

/-- The service without the calls of the second user. -/
def thinned : State × List Served :=
  (trading.serveAll? (mingling.filter fun call => isKept call.2.1)).get isSome_thinned

/-- The first user sees nothing of the second: four calls with the same outcomes, the same row in the
end and the same two events. -/
theorem isolated_mingled : SeenAlike (.ofNat 1) mingled.1 thinned.1 mingled.2 thinned.2 ∧
    (mingled.2.filter (Served.isFor (.ofNat 1))).length = 4 ∧
    (mingled.1.publicationsFor (.ofNat 1)).length = 2 := by
  have crowd : trading.serveAll? mingling = some mingled := (Option.some_get isSome_mingling).symm
  have thin : trading.serveAll? (mingling.filter fun call => isKept call.2.1) = some thinned :=
    (Option.some_get isSome_thinned).symm
  have all : (mingled.2.filter fun c => isKept c.request).filter (Served.isFor (.ofNat 1)) =
      mingled.2.filter (Served.isFor (.ofNat 1)) := by
    rw [List.filter_filter]
    refine List.filter_congr fun c _ => ?_
    unfold Served.isFor isKept
    by_cases mine : c.request.user? = some (.ofNat 1)
    · rw [mine]
      decide
    · simp [mine]
  have full : Serial (Calm trading.source.table) trading mingled.1 mingled.2 :=
    serial_of_serveAll? crowd
  have distinct : Distinct trading mingled.2 := ⟨by decide +kernel, fun _ _ => rfl⟩
  have isolated := full.isolated unused_trading undisturbed_trading distinct List.filter_sublist all
  refine ⟨isolated.alike (serial_of_serveAll? thin) ⟨by decide +kernel, fun _ _ => rfl⟩ ?_,
    by decide +kernel, by decide +kernel⟩
  -- what was asked for is known from the calls
  have asked : thinned.2.map Served.asked =
      (mingled.2.map Served.asked).filter fun call => isKept call.2.1 := by
    rw [State.asked_serveAll? thin, State.asked_serveAll? crowd]
  have requests := congrArg (List.map fun call => call.2.1) asked
  rw [List.map_map, List.filter_map, List.map_map] at requests
  exact requests

end Service

end Purse
