import Mathlib.Data.List.Forall2
import Purse.Proofs.Decimal.Order
import Purse.Proofs.Service.EventOrder
import Purse.Proofs.Service.Receivers
import Purse.Proofs.Service.Serial

/-!
# Which events are published

A call offers an event if it was answered, mutates a wallet and names an amount that is not below
the threshold; then it offers one, and what the event says is what was asked for and done
(`Announced`). All other calls offer none, however they end. In a sequential run the events come in
the order of the calls, so the events are known from the calls (`Serial.told`).

`EventsExact` puts this together with what receivers cannot do.
-/

namespace Purse

/-- The kind of event that a request can give rise to. -/
def Request.kind? : Request → Option EventKind
  | deposit .. => some .deposit
  | withdraw .. => some .withdraw
  | exchange .. => some .exchange
  | _ => none

/-- The currency of a request as its event names it: the symbol, or both symbols of an exchange. -/
def Request.currencyText : Request → String
  | deposit _ symbol _ | withdraw _ symbol _ => symbol
  | exchange _ sold bought _ => sold ++ "->" ++ bought
  | _ => ""

theorem Request.isSome_kind? (r : Request) : r.kind?.isSome = r.order?.isSome := by
  cases r <;> rfl

/-- A change is of the kind and in the currency of the request. -/
theorem Request.Asks.kind_eq {r : Request} {change : Change} (h : r.Asks change) :
    r.kind? = some change.kind ∧ r.currencyText = change.currencyText ∧ r.amount.isFinite := by
  obtain ⟨order, parsed, carries⟩ := h
  cases change with
  | deposit c units =>
    obtain rfl := carries
    cases Request.parsed parsed with
    | deposit comes names =>
      exact ⟨rfl, (Currency.symbol_of_ofSymbol? names).symm, MinorUnits.ofAmount?_isFinite comes⟩
  | withdraw c units =>
    obtain rfl := carries
    cases Request.parsed parsed with
    | withdraw comes names =>
      exact ⟨rfl, (Currency.symbol_of_ofSymbol? names).symm, MinorUnits.ofAmount?_isFinite comes⟩
  | exchange pair debit credit rate =>
    obtain ⟨rfl, -⟩ := carries
    cases Request.parsed parsed with
    | exchange comes sells buys =>
      refine ⟨rfl, ?_, MinorUnits.ofAmount?_isFinite comes⟩
      rw [currencyText, ← Currency.symbol_of_ofSymbol? sells, ← Currency.symbol_of_ofSymbol? buys]
      rfl

namespace Service

variable {s t u : State} {id : CallId} {call : Call} {stage : Stage} {next : Option Stage}
  {r : Request} {drawn : Uuid} {threshold : Float} {may : State → Move → Prop} {cs : List Served}

/-! ### The events of one call -/

/-- The event that the call has offered. -/
def Occurrence.publicationOf? (id : CallId) : Occurrence → Option Published
  | published j key event _ => if j = id then some (key, event) else none
  | _ => none

/-- The events that the call has offered, the latest first. -/
def State.publicationsOf (s : State) (id : CallId) : List Published :=
  s.history.filterMap (Occurrence.publicationOf? id)

theorem Quiet.publicationsOf_eq (h : Quiet id s t) : t.publicationsOf id = s.publicationsOf id := by
  refine Adds.filterMap_eq (h.mono fun o other => ?_)
  cases o with
  | published j key event refusal => exact if_neg fun same => other (congrArg some same)
  | _ => rfl

/-- A step that publishes nothing offers nothing. -/
theorem Effect.publicationsOf_eq (h : Effect s id call next t)
    (other : ∀ answer event, call.stage ≠ .publishing answer event) :
    t.publicationsOf id = s.publicationsOf id := by
  refine Adds.filterMap_eq ?_
  cases h with
  | published at_ => exact absurd at_ (other _ _)
  | created | read | asked | committed | finished => exact .one rfl rfl
  | refreshed => exact State.refreshCache_adds (fun _ => rfl) rfl
  | broken | untaken | rejected => exact State.fail_adds fun _ => rfl
  | _ => exact .nothing rfl

/-- **The event tells of the change** that was asked for and done, in the row that is answered. -/
def Announces (r : Request) (drawn : Uuid) (answer : Answer) (event : WalletEvent) : Prop :=
  ∃ change row now, r.Asks change ∧ answer = change.answer row ∧
    event = .committed drawn change.kind row r.amount change.currencyText now

/-- **What is offered by a call that is answered:** one event, if it mutates a wallet and names an
amount that is not below the threshold. -/
inductive Offers (threshold : Float) (r : Request) (drawn : Uuid) (answer : Answer) :
    List Published → Prop
  | one {event : WalletEvent} (mutates : r.order?.isSome) (large : ¬ r.amount < threshold)
      (tells : Announces r drawn answer event) :
      Offers threshold r drawn answer [(event.key, event)]
  | nothing (small : r.order?.isSome → r.amount < threshold) : Offers threshold r drawn answer []

/-- **What is offered at each stage:** nothing before an answer. -/
def Announced (threshold : Float) (r : Request) (drawn : Uuid) (ps : List Published) :
    Stage → Prop
  | .publishing answer event =>
    ps = [] ∧ ¬ r.amount < threshold ∧ Announces r drawn answer event
  | .ending (.ok answer) => Offers threshold r drawn answer ps
  | _ => ps = []

/-- Who mutates nothing offers nothing. -/
theorem announced_of_none {answer : Answer} (none_ : r.order? = none) :
    Announced threshold r drawn [] (.ending (.ok answer)) :=
  .nothing fun mutates => by simp [none_] at mutates

theorem Quest.order?_eq_none {quest : Quest} (asks : Quest.ofRequest? r = some quest) :
    r.order? = none := by
  cases r with
  | quote | listing => rfl
  | _ => cases asks

/-- What is found is no reason to offer anything. -/
theorem Quest.Finds.announced {quest : Quest} {cache : RateCache} {now due : Nat}
    (h : quest.Finds cache now due stage) (is : quest.IsOf r) :
    Announced threshold r drawn [] stage := by
  cases h with
  | listing | quote => exact announced_of_none (Quest.order?_eq_none is)
  | exchange | unconvertible => rfl

/-- Nor is what is missing. -/
theorem Quest.missing_announced {quest : Quest} (is : quest.IsOf r) :
    Announced threshold r drawn [] (.ending quest.missing) := by
  cases quest with
  | listing => exact announced_of_none (Quest.order?_eq_none is)
  | quote | exchange => rfl

/-- Offering an event is offering that event, whether it is refused or not. -/
theorem State.publicationsOf_publish (answer : Answer) (event : WalletEvent) :
    (s.publish id answer event).publicationsOf id = (event.key, event) :: s.publicationsOf id := by
  have quiet : ((s.publishNotices event).map Occurrence.noticed).reverse.filterMap
      (Occurrence.publicationOf? id) = [] := by
    unfold publishNotices
    cases s.refusal event <;> rfl
  unfold publicationsOf
  rw [publish_history, List.filterMap_append, quiet, List.nil_append]
  exact List.filterMap_cons_some (if_pos rfl)

/-- **A step offers what the call has yet to offer,** and nothing else. -/
theorem Effect.keeps_announced (h : Effect s id call (some stage) t)
    (sofar : Announced s.threshold call.request call.drawn (s.publicationsOf id) call.stage)
    (is : call.stage.IsOf call.request) :
    Announced s.threshold call.request call.drawn (t.publicationsOf id) stage := by
  have kept := h.publicationsOf_eq
  cases h with
  | published at_ =>
    rw [at_] at sofar
    obtain ⟨none_, large, told⟩ := sofar
    have ⟨change, row, now, ⟨order, parsed, _⟩, _⟩ := told
    have mutates : call.request.order?.isSome := parsed ▸ rfl
    rw [State.publicationsOf_publish, none_]
    exact .one mutates large told
  | silent at_ small =>
    rw [at_] at sofar
    rw [(kept (by simp [at_])).trans sofar]
    exact .nothing fun _ => small
  | announced at_ large =>
    rw [at_] at sofar is
    exact ⟨sofar, large, _, _, _, is, rfl, rfl⟩
  -- otherwise nothing was offered before, and nothing is now
  | created at_ asks =>
    rw [at_] at sofar
    rw [(kept (by simp [at_])).trans sofar]
    exact announced_of_none (by rw [asks]; rfl)
  | @read wallet order row at_ =>
    rw [at_] at sofar is
    rw [(kept (by simp [at_])).trans sofar]
    unfold State.afterRead
    split
    · obtain ⟨user, asks⟩ := is
      exact announced_of_none (by rw [asks]; rfl)
    · rfl
    · rfl
    · split <;> rfl
  | found at_ finds | foundLate at_ _ finds | served at_ finds =>
    rw [at_] at sofar is
    rw [(kept (by simp [at_])).trans sofar]
    exact finds.announced is
  | unserved at_ =>
    rw [at_] at sofar is
    rw [(kept (by simp [at_])).trans sofar]
    exact Quest.missing_announced is
  | uncreated at_ | viewed at_ | sought at_ | invalid at_ | queued at_ | admitted at_ | timedOut at_
  | located at_ | unlocated at_ | vanished at_ | missed at_ | asked at_ | answered at_
  | unanswered at_ | refreshed at_ | broken at_ | taken at_ | untaken at_ | committed at_
  | rejected at_ =>
    rw [at_] at sofar
    exact (kept (by simp [at_])).trans sofar

namespace Reaches

/-- **Nobody changes the threshold.** -/
theorem threshold_eq (h : Reaches s t) : t.threshold = s.threshold := by
  refine h.invariant (P := fun u => u.threshold = s.threshold) rfl fun u v _ sofar step => ?_
  rw [← sofar]
  cases step with
  | call id moves =>
    obtain ⟨call, -, next, effect⟩ := State.step?_effect moves
    exact effect.surroundings.2.2
  | arrive => rfl
  | outside m =>
    cases m with
    | drop id =>
      unfold State.move State.drop
      dsimp only
      split <;> rfl
    | refreshCache table =>
      rw [State.move, State.refreshCache, State.notice_eq]
      rfl
    | _ => rfl

/-- Before a call arrives nothing is offered in its name. -/
theorem publicationsOf_of_free (h : Reaches s t) (start : s.Unused)
    (free : ∀ r, .arrived id r ∉ t.history) : t.publicationsOf id = [] := by
  refine List.filterMap_eq_nil_iff.2 fun o ho => ?_
  cases o with
  | published j key event refusal =>
    refine if_neg fun same => ?_
    obtain ⟨r, hr⟩ := (h.recorded start id).arrived_of_mem ho (congrArg some same)
    exact free r hr
  | _ => rfl

/-- **Every call in progress has offered what belongs to its stage.** -/
theorem announced (h : Reaches s t) (start : s.Unused) (live : t.calls.get? id = some call) :
    Announced s.threshold call.request call.drawn (t.publicationsOf id) call.stage := by
  refine h.calls_invariant start
    (Q := fun u id call =>
      Announced s.threshold call.request call.drawn (u.publicationsOf id) call.stage) ?_ ?_ ?_ live
  · exact fun before free => before.publicationsOf_of_free start free
  · intro u v id call _ _ quiet told
    exact quiet.publicationsOf_eq ▸ told
  · intro u v id call stage before _ live told effect
    have same := before.threshold_eq
    rw [← same] at told ⊢
    exact effect.keeps_announced told (before.isOf start live)

end Reaches

/-! ### The events of a sequential run -/

/-- Whether a call is an answered mutation of a large amount. -/
def Served.isToldIf (large : Float → Bool) (c : Served) : Bool :=
  c.request.kind?.isSome && c.outcome.isOk && large c.request.amount

/-- Whether a call is told of: an answered mutation of an amount that is at least the threshold. -/
def Served.isTold (threshold : Float) : Served → Bool :=
  Served.isToldIf fun amount => decide (threshold ≤ amount)

/-- **The event is that of the call:** under the text of the user who asked, for the user's wallet
and with what was asked for. -/
def Served.Tells (store : MemoryStore) (c : Served) (p : Published) : Prop :=
  ∃ answer row kind now, c.outcome = .ok answer ∧ answer.row? = some row ∧
    c.request.user? = some row.user ∧ store.byUser.get? row.user = some row.id ∧
    c.request.kind? = some kind ∧
    p = (row.user.text, ⟨c.drawn, kind, row.user, row.id, c.request.amount,
      c.request.currencyText, now, none⟩)

theorem Served.Tells.extend {store later : MemoryStore} {c : Served} {p : Published}
    (h : c.Tells store p) (k : store.Extends later) : c.Tells later p := by
  obtain ⟨answer, row, kind, now, ok, shows, owns, index, rest⟩ := h
  exact ⟨answer, row, kind, now, ok, shows, owns, k.index index, rest⟩

/-- A mutation that was answered was committed, in the wallet of the user who asked. -/
theorem Reaches.asks_of_answered {answer : Answer} (h : Reaches s t) (start : s.Unused)
    (live : t.calls.get? id = some ⟨r, drawn, .ending (.ok answer)⟩) (mutates : r.order?.isSome) :
    ∃ change row, r.Asks change ∧ answer = change.answer row ∧ r.user? = some row.user ∧
      t.store.byUser.get? row.user = some row.id := by
  have told := (h.recorded start id).arrived_of_live live
  have wrote (change : Change) (row : Wallet) (hm : .committed id change row ∈ t.deeds id) :
      r.user? = some row.user ∧ t.store.byUser.get? row.user = some row.id := by
    obtain ⟨us, run⟩ := h.exists_run
    obtain ⟨owns, u, v, passes, -, -, there⟩ := run.wrote start (State.mem_deeds.1 hm).1 told
    have now_ : v ∈ us := passes.subset List.mem_cons_self
    obtain ⟨wallet, index, holds⟩ := MemoryStore.get_eq_ok_iff.1 there
    obtain rfl := ((run.reaches_of_mem now_).store_sound start.store).id_of_row holds
    exact ⟨owns, (run.reaches_from_mem now_).store_extends.index index⟩
  have done : Accomplished id r answer (t.deeds id) := h.done start live
  generalize t.deeds id = ds at done wrote
  cases done with
  | created asks | viewed asks =>
    rw [asks] at mutates
    cases mutates
  | informed asks =>
    rw [Quest.order?_eq_none asks] at mutates
    cases mutates
  | @silent change row asks | @announced change row event refusal asks =>
    exact ⟨change, row, asks, rfl, wrote change row (by simp)⟩

section

-- what counts as large need only be right for the amounts that are accepted
variable {large : Float → Bool}
  (accepted : ∀ x : Float, x.isFinite → (large x ↔ ¬ x < s.threshold))
include accepted

/-- **What a call offers** until it ends is its event, if it is told of, and else nothing. -/
theorem Reaches.tells {c : Served} (h : Reaches s t) (start : s.Unused)
    (ends : t.calls.get? c.id = some ⟨c.request, c.drawn, .ending c.outcome⟩) :
    List.Forall₂ (Served.Tells t.store) ([c].filter (Served.isToldIf large))
      (t.publicationsOf c.id) := by
  have told := h.announced start ends
  obtain ⟨id, r, drawn, outcome⟩ := c
  cases outcome with
  | error e =>
    have none_ : t.publicationsOf id = [] := told
    rw [none_, List.filter_cons_of_neg (by simp [Served.isToldIf, Except.isOk, Except.toBool])]
    exact .nil
  | ok answer =>
    have offers : Offers s.threshold r drawn answer (t.publicationsOf id) := told
    have worth {change : Change} (asks : r.Asks change) : large r.amount ↔ ¬ r.amount < s.threshold :=
      accepted r.amount asks.kind_eq.2.2
    generalize t.publicationsOf id = ps at offers
    cases offers with
    | one mutates enough tells =>
      obtain ⟨change, row, now, asks, answers, rfl⟩ := tells
      obtain ⟨_, row', -, same, owns, index⟩ := h.asks_of_answered start ends mutates
      obtain rfl : row = row' := by
        have shows := congrArg Answer.row? (answers.symm.trans same)
        rw [Change.row?_answer, Change.row?_answer] at shows
        exact Option.some.inj shows
      obtain ⟨kind, text, -⟩ := asks.kind_eq
      rw [List.filter_cons_of_pos]
      · refine .cons ⟨answer, row, change.kind, now, rfl, ?_, owns, index, kind, ?_⟩ .nil
        · rw [answers, Change.row?_answer]
        · rw [show (Served.request ⟨id, r, drawn, .ok answer⟩).currencyText = _ from text]
          rfl
      · simp [Served.isToldIf, kind, (worth asks).2 enough, Except.isOk, Except.toBool]
    | nothing small =>
      rw [List.filter_cons_of_neg]
      · exact .nil
      · intro told
        simp only [Served.isToldIf, Bool.and_eq_true] at told
        obtain ⟨⟨mutates, -⟩, enough⟩ := told
        rw [Request.isSome_kind?] at mutates
        obtain ⟨change, row, asks, -⟩ := h.asks_of_answered start ends mutates
        exact (worth asks).1 enough (small mutates)

omit accepted in
/-- What is offered while a call goes on alone is what the call offers. -/
theorem Alone.publications_eq (h : Alone may id s t) :
    ∃ ps, t.publications = s.publications ++ ps.reverse ∧
      t.publicationsOf id = ps ++ s.publicationsOf id := by
  obtain ⟨new, history, news⟩ := h.adds
  have own : new.filterMap Occurrence.publication? =
      new.filterMap (Occurrence.publicationOf? id) := by
    refine List.filterMap_congr fun o ho => ?_
    cases o with
    | published j key event refusal =>
      have same : j = id := by simpa [Occurrence.call?] using (news _ ho).2
      exact (if_pos same).symm
    | _ => rfl
  refine ⟨new.filterMap (Occurrence.publicationOf? id), ?_, ?_⟩
  · rw [State.publications, history, List.filterMap_append, List.reverse_append, own]
    rfl
  · rw [State.publicationsOf, history, List.filterMap_append]
    rfl

/-- **The events of a sequential run** are those of its calls, in order. -/
theorem Serial.tells (h : Serial may s t cs) (start : s.Unused) :
    List.Forall₂ (Served.Tells t.store) (cs.filter (Served.isToldIf large)) t.publications := by
  induction h with
  | start =>
    rw [State.publications, start.history]
    exact .nil
  | @around t cs m _ apart _ ih =>
    have quiet : (t.move m).publications = t.publications := by
      refine congrArg List.reverse (Adds.filterMap_eq ((State.move_adds apart).mono fun o about => ?_))
      cases o with
      | published => cases about
      | _ => rfl
    rw [quiet]
    exact ih.imp fun c p told => told.extend (Step.of_isAround apart).store_extends
  | @call t u cs c sofar free alone ends ih =>
    have before := sofar.reaches
    have way : Reaches t u := Serial.reaches_call free alone
    obtain ⟨ps, all, own⟩ := alone.publications_eq
    have fresh : (t.arrive c.id c.request c.drawn).publicationsOf c.id = [] :=
      before.publicationsOf_of_free start free
    rw [fresh, List.append_nil] at own
    have last := (before.trans way).tells accepted start ends
    rw [own] at last
    have first := ih.imp fun c p told => told.extend way.store_extends
    change List.Forall₂ (Served.Tells u.store) _ u.publications
    rw [all, List.filter_append]
    refine List.rel_append first ?_
    have reversed := List.rel_reverse last
    rwa [← List.filter_reverse] at reversed

end

/-- **Events are exact,** and receivers have no say. -/
structure EventsExact (s : State) : Prop where
  /-- In a sequential run one event is offered for each call that is told of, in order, and no
  other. -/
  tells {t : State} {cs : List Served} : Serial (fun _ _ => True) s t cs →
    List.Forall₂ (Served.Tells t.store) (cs.filter (Served.isTold s.threshold)) t.publications
  /-- Two runs that differ in their receivers alone can be taken equally, and are the same to all
  callers. -/
  indifferent (sink sink' : Sink) {turns turns' : List Turn} :
    turns.filter Turn.keepsSink = turns'.filter Turn.keepsSink →
    Option.Rel Indistinct (({ s with sink } : State).follow? turns)
      (({ s with sink := sink' } : State).follow? turns')

theorem State.Unused.eventsExact (start : s.Unused) (finite : s.threshold.isFinite) :
    EventsExact s where
  tells serial := serial.tells (fun _ accepted =>
    decide_eq_true_iff.trans (Binary64.not_lt_iff_le accepted finite).symm) start
  indifferent sink sink' _ _ same := s.indistinct_follow? sink sink' same

/-- A wallet, a deposit that is worth an event, one that is not, and a withdrawal of too much. -/
def telling : List (CallId × Request × Uuid) :=
  let user := Uuid.ofNat 1
  [(0, .create user, .ofNat 2), (1, .deposit user "USD" 40000.0, .ofNat 3),
    (2, .deposit user "USD" 10.0, .ofNat 4), (3, .withdraw user "USD" 50000.0, .ofNat 5)]

set_option maxRecDepth 10000 in
theorem isSome_telling : (vacant.serveAll? telling).isSome := by decide +kernel

/-- The service after these calls, and how they ended. -/
def told : State × List Served := (vacant.serveAll? telling).get isSome_telling

theorem serial_told : Serial (fun _ _ => True) vacant told.1 told.2 :=
  serial_of_serveAll? (Option.some_get isSome_telling).symm

/-- Of the four calls the large deposit is told of. With a receiver that refuses it all goes the
same way. -/
theorem eventsExact_told : vacant.threshold.isFinite ∧
    (told.2.filter (Served.isTold vacant.threshold)).map Served.id = [1] ∧
    List.Forall₂ (Served.Tells told.1.store) (told.2.filter (Served.isTold vacant.threshold))
      told.1.publications ∧
    Option.Rel Indistinct (({ vacant with sink := .refusing .noSubscribers } : State).follow? starting)
      (vacant.follow? starting) := by
  have finite : vacant.threshold.isFinite := by decide +kernel
  have exact_ := unused_vacant.eventsExact finite
  exact ⟨finite, by decide +kernel, exact_.tells serial_told,
    exact_.indifferent (.refusing .noSubscribers) vacant.sink rfl⟩

end Service

end Purse
