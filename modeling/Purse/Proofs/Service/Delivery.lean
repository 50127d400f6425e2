import Purse.Proofs.Event.Delivery
import Purse.Proofs.Service.EventOrder
import Purse.Proofs.Service.Receivers

/-!
# A service that publishes on a bus

The receiver of a service can be a bus that others use too: they subscribe and leave, ask for what is
new, and publish by themselves, at any time between two turns of the service (`State.use?`). What the
service does to the bus is one thing only. A turn in which a call publishes an event is an action on the
bus, and all other turns leave it as it is (`State.turn?_cases`). So what is seen of the bus in such a
run is the log of a bus (`BusRun.exists_run`), and the bus delivers (`BusRun.exists_delivers`).
-/

namespace Purse.Service

variable {s t : State} {id : CallId} {call : Call} {next : Option Stage} {turn : Turn}
  {capacity : Nat} {log new : Channel.Log SubscriberId Published}

/-! ### What the service offers -/

/-- What is seen of the receiver. -/
def Occurrence.offer? : Occurrence → Option (Channel.Occurrence SubscriberId Published)
  | published _ key event refusal => some (.published (key, event) refusal)
  | _ => none

/-- What is seen of the receiver by the service, the earliest first. -/
def State.offers (s : State) : Channel.Log SubscriberId Published :=
  (s.history.filterMap Occurrence.offer?).reverse

/-- What comes without an offer adds none. -/
theorem Adds.offers_eq (h : Adds (fun o => o.offer? = none) s t) : t.offers = s.offers :=
  congrArg List.reverse h.filterMap_eq

namespace State

theorem publish_sink (answer : Answer) (event : WalletEvent) :
    (s.publish id answer event).sink = (s.sink.offer s.offered (event.key, event)).1 := by
  rw [publish_eq, notice_eq]
  rfl

/-- Publishing is one offer, refused or not. -/
theorem publish_offers (answer : Answer) (event : WalletEvent) :
    (s.publish id answer event).offers =
      s.offers ++ [.published (event.key, event) (s.refusal event)] := by
  have quiet : ((s.publishNotices event).map Occurrence.noticed).reverse.filterMap
      Occurrence.offer? = [] := by
    unfold publishNotices
    cases s.refusal event <;> rfl
  unfold offers
  rw [publish_history, List.filterMap_append, quiet, List.nil_append]
  exact List.reverse_cons

end State

/-- A step of a call publishes an event, or it leaves the receiver alone. -/
theorem Effect.publish_or_offers_eq (h : Effect s id call next t) :
    (∃ answer event, t = s.publish id answer event) ∨ (t.sink = s.sink ∧ t.offers = s.offers) := by
  cases h with
  | published => exact .inl ⟨_, _, rfl⟩
  | refreshed =>
    exact .inr ⟨State.refreshCache_sink .., Adds.offers_eq (State.refreshCache_adds (fun _ => rfl) rfl)⟩
  | broken | untaken | rejected =>
    exact .inr ⟨State.fail_sink .., Adds.offers_eq (State.fail_adds fun _ => rfl)⟩
  | _ => exact .inr ⟨rfl, rfl⟩

/-- So does a move from outside that does not replace it. -/
theorem State.move_offers (s : State) {m : Move} (keeps : ∀ sink, m ≠ .setSink sink) :
    (s.move m).sink = s.sink ∧ (s.move m).offers = s.offers := by
  cases m with
  | setSink sink => exact absurd rfl (keeps sink)
  | refreshCache table =>
    exact ⟨State.refreshCache_sink .., Adds.offers_eq (State.refreshCache_adds (fun _ => rfl) rfl)⟩
  | drop id =>
    unfold State.move State.drop
    dsimp only
    split <;> exact ⟨rfl, rfl⟩
  | _ => exact ⟨rfl, rfl⟩

/-- **A turn publishes an event, or it leaves the receiver alone.** -/
theorem State.turn?_cases (h : s.turn? turn = some t) (keeps : turn.keepsSink) :
    (∃ id answer event, t = s.publish id answer event) ∨
      (t.sink = s.sink ∧ t.offers = s.offers) := by
  cases turn with
  | call id =>
    obtain ⟨call, -, next, effect⟩ := State.step?_effect h
    exact effect.publish_or_offers_eq.imp_left fun published => ⟨id, published⟩
  | outside m =>
    have moved : t = s.move m := by
      cases m with
      | arrive =>
        unfold State.turn? at h
        dsimp only at h
        split at h
        · cases h
        · exact (Option.some.inj h).symm
      | _ => exact (Option.some.inj h).symm
    refine .inr (moved ▸ s.move_offers fun sink replaces => ?_)
    subst replaces
    cases keeps

/-! ### Runs on a bus -/

/-- What comes next: a turn of the service, or somebody uses the bus. -/
inductive Use where
  | service (turn : Turn)
  | bus (action : Channel.Action SubscriberId Published)

/-- The state after that, and what is seen of the bus meanwhile; none if the turn cannot be taken or
replaces the receiver, or if the receiver is no bus. -/
def State.use? (s : State) : Use → Option (State × Channel.Log SubscriberId Published)
  | .service turn =>
    if turn.keepsSink then
      (s.turn? turn).map fun t => (t, t.offers.drop s.offers.length)
    else none
  | .bus action =>
    match s.sink with
    | .bus c => some (s.move (.setSink (.bus (c.act action).1)), [(c.act action).2])
    | .scripted _ => none

/-- **A run on a bus** that was new at its start, and what was seen of the bus. -/
inductive BusRun (capacity : Nat) : Channel.Log SubscriberId Published → State → Prop
  | start {s : State} (new : s.sink = .bus (.create capacity)) : BusRun capacity [] s
  | use {s t : State} {log new : Channel.Log SubscriberId Published} {use : Use}
      (h : BusRun capacity log s) (uses : s.use? use = some (t, new)) :
      BusRun capacity (log ++ new) t

/-- Publishing an event is an action on the bus. -/
theorem Sink.offer_bus (c : Channel SubscriberId Published) (n : Nat) (p : Published) :
    (Sink.bus c).offer n p = (.bus (c.act (.publish p)).1, ((Sink.bus c).offer n p).2) ∧
      (c.act (.publish p)).2 = .published p ((Sink.bus c).offer n p).2 := by
  unfold Sink.offer Channel.act
  dsimp only
  cases c.publish p <;> exact ⟨rfl, rfl⟩

/-- **What happens next is an action on the bus,** or the bus is left alone. -/
theorem State.use?_cases {use : Use} {c : Channel SubscriberId Published} (on : s.sink = .bus c)
    (uses : s.use? use = some (t, new)) :
    (∃ action, t.sink = .bus (c.act action).1 ∧ new = [(c.act action).2]) ∨
      (t.sink = .bus c ∧ new = []) := by
  cases use with
  | bus action =>
    unfold State.use? at uses
    rw [on] at uses
    cases uses
    exact .inl ⟨action, rfl, rfl⟩
  | service turn =>
    unfold State.use? at uses
    dsimp only at uses
    split at uses
    · next keeps =>
      obtain ⟨t, turns, same⟩ := Option.map_eq_some_iff.1 uses
      cases same
      rcases State.turn?_cases turns keeps with ⟨id, answer, event, rfl⟩ | ⟨sink, offers⟩
      · obtain ⟨sink, seen⟩ := Sink.offer_bus c s.offered (event.key, event)
        refine .inl ⟨.publish (event.key, event), ?_, ?_⟩
        · rw [publish_sink, on, sink]
        · rw [publish_offers, List.drop_left, State.refusal, on, seen]
      · exact .inr ⟨sink.trans on, by rw [offers, List.drop_length]⟩
    · cases uses

/-- The receiver stays a bus, and what is seen of it is its log. -/
theorem BusRun.exists_run (h : BusRun capacity log s) :
    ∃ c, s.sink = .bus c ∧ Channel.Run capacity c log := by
  induction h with
  | start new => exact ⟨_, new, .create⟩
  | use _ uses ih =>
    obtain ⟨c, on, run⟩ := ih
    rcases State.use?_cases on uses with ⟨action, on', rfl⟩ | ⟨on', rfl⟩
    · exact ⟨_, on', run.act action⟩
    · exact ⟨c, on', (List.append_nil _).symm ▸ run⟩

/-- **Every bus delivers what a service publishes on it,** and what others do, whatever its capacity and
whoever subscribes, leaves and asks in the meantime. -/
theorem BusRun.exists_delivers (h : BusRun capacity log s) :
    ∃ c, s.sink = .bus c ∧ c.Delivers capacity log := by
  obtain ⟨c, on, run⟩ := h.exists_run
  exact ⟨c, on, run.delivers⟩

/-! ### A run that can be computed -/

/-- What comes one after another, and what is seen of the bus meanwhile. -/
def State.useAll? (s : State) : List Use → Option (State × Channel.Log SubscriberId Published)
  | [] => some (s, [])
  | use :: uses =>
    (s.use? use).bind fun (t, new) => (t.useAll? uses).map fun (u, more) => (u, new ++ more)

theorem BusRun.useAll? {uses : List Use} (h : BusRun capacity log s)
    (all : s.useAll? uses = some (t, new)) : BusRun capacity (log ++ new) t := by
  induction uses generalizing s log new with
  | nil =>
    cases all
    exact (List.append_nil log).symm ▸ h
  | cons use uses ih =>
    obtain ⟨⟨u, first⟩, uses, rest⟩ := Option.bind_eq_some_iff.1 all
    obtain ⟨⟨v, more⟩, others, last⟩ := Option.map_eq_some_iff.1 rest
    cases last
    rw [← List.append_assoc]
    exact ih (h.use uses) others

/-- A service on a bus of the least capacity. -/
def onBus : State := { vacant with sink := .bus (.create 0) }

/-- Somebody publishes an event by himself, in vain. Then 7 subscribes, a deposit is told of, the event
is published again, and 8 subscribes. Both ask, and 7 asks again. -/
def overtaxing : List Use :=
  let row := Wallet.create (.ofNat 2) (.ofNat 1) .epoch
  let event := WalletEvent.committed (.ofNat 9) .deposit row 1.0 "USD" .epoch
  [.bus (.publish ("by hand", event)), .bus (.subscribe 7)] ++ starting.map .service ++
    [.bus (.publish ("by hand", event)), .bus (.subscribe 8), .bus (.receive 7), .bus (.receive 8),
      .bus (.receive 7)]

set_option maxRecDepth 10000 in
theorem isSome_overtaxing : (onBus.useAll? overtaxing).isSome := by decide +kernel

/-- The service after that, and what was seen of the bus. -/
def overtaxed : State × Channel.Log SubscriberId Published :=
  (onBus.useAll? overtaxing).get isSome_overtaxing

theorem busRun_overtaxed : BusRun 0 overtaxed.2 overtaxed.1 :=
  (BusRun.start rfl : BusRun 0 [] onBus).useAll? (Option.some_get isSome_overtaxing).symm

/-- Of the two events that were accepted 7 has lost the one of the deposit, and 8 has missed both. -/
theorem delivers_overtaxed :
    BusRun 0 overtaxed.2 overtaxed.1 ∧
      (∃ c, overtaxed.1.sink = .bus c ∧ c.Delivers 0 overtaxed.2) ∧
      overtaxed.2.accepted.map Prod.fst = [(Uuid.ofNat 1).text, "by hand"] ∧
      (overtaxed.2.answers 7).map Received.lost = [1, 0] ∧
      (overtaxed.2.answers 7).map (fun got => got.value?.map Prod.fst) = [none, some "by hand"] ∧
      (overtaxed.2.answers 8).map Received.passed = [0] :=
  ⟨busRun_overtaxed, busRun_overtaxed.exists_delivers, by decide +kernel, by decide +kernel,
    by decide +kernel, by decide +kernel⟩

end Purse.Service
