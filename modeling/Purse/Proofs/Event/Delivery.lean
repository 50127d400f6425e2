import Mathlib
import Purse.Proofs.Event.Log
import Purse.Proofs.Table

/-!
# What subscribers of a bus get

A bus knows less than its log: the latest values, and for each subscriber how many of all values are
behind him. That these are what the log says is kept by every action (`Channel.Holds.act`), whoever
does what and in whatever order. So every answer is the one that the log calls for
(`Channel.Run.isAnswered`), and the accounts of all subscribers can be read off the log
(`Channel.Run.delivers`): received, reported lost and unread make accepted.
-/

namespace Purse

variable {σ α : Type} [DecidableEq σ]

namespace Channel

/-! ### The use of a bus -/

/-- What can be done to a bus. -/
inductive Action (σ α : Type) where
  | subscribe (who : σ)
  | unsubscribe (who : σ)
  | publish (a : α)
  | receive (who : σ)

/-- The bus after an action, and what is seen of it. -/
def act (c : Channel σ α) : Action σ α → Channel σ α × Occurrence σ α
  | .subscribe who => (c.subscribe who, .subscribed who)
  | .unsubscribe who => (c.unsubscribe who, .unsubscribed who)
  | .publish a =>
    match c.publish a with
    | .ok next => (next, .published a none)
    | .error fault => (c, .published a (some fault))
  | .receive who => ((c.receive who).1, .received who (c.receive who).2)

/-- A value is refused by a bus that nobody listens to, and accepted by any other. -/
theorem act_publish (c : Channel σ α) (a : α) :
    c.act (.publish a) =
      if c.isDeserted then (c, .published a (some .noSubscribers))
      else ({ c with accepted := c.accepted + 1, kept := latest c.depth (c.kept ++ [a]) },
        .published a none) := by
  unfold act publish
  cases c.isDeserted <;> rfl

/-- **The use of a bus:** what it has become, and what was seen. -/
inductive Run (capacity : Nat) : Channel σ α → Log σ α → Prop
  | create : Run capacity (.create capacity) []
  | act {c : Channel σ α} {log : Log σ α} (h : Run capacity c log) (action : Action σ α) :
      Run capacity (c.act action).1 (log ++ [(c.act action).2])

/-! ### Accounts -/

/-- The number of accepted values that are before a subscriber, as the bus counts them. -/
def backlog? (c : Channel σ α) (who : σ) : Option Nat :=
  (c.readers.get? who).map fun passed => c.accepted - passed

/-- **The account of a subscription** to a bus that keeps `size` values. -/
structure Account (size : Nat) (c : Channel σ α) (who : σ) (before since : Log σ α) : Prop where
  /-- What was accepted since is told in order, up to what is unread. -/
  tells : Tells (since.answers who) since.accepted (since.unread who)
  /-- What was received are some of the values accepted since, each once and in order. -/
  inOrder : ((since.answers who).filterMap Received.value?).Sublist since.accepted
  /-- Received, reported lost and unread make accepted. -/
  total : ((since.answers who).filterMap Received.value?).length +
    ((since.answers who).map Received.lost).sum + (since.unread who).length = since.accepted.length
  /-- The bus counts what is unread. -/
  backlog : c.backlog? who = some (since.unread who).length
  /-- Every answer is that to what was unread then. -/
  answered : Log.IsAnswered size who since
  /-- After a loss, if nothing is accepted in between, comes the oldest of the values that are
  kept. -/
  resumes : ∀ (earlier : Log σ α) count (between : Log σ α) got later,
    since = earlier ++ .received who (.lagged count) :: (between ++ .received who got :: later) →
    between.accepted = [] → between.answers who = [] →
    ∃ a, got = .value a ∧ (latest size (before ++ earlier : Log σ α).accepted).head? = some a

/-- **The accounts of a bus** that keeps `size` values are as its log says. -/
structure Accounts (size : Nat) (c : Channel σ α) (log : Log σ α) : Prop where
  /-- A value is refused exactly if nobody subscribes then. -/
  refusal : ∀ (past : Log σ α) a refusal later, log = past ++ .published a refusal :: later →
    (past.IsAttended ∧ refusal = none ∨ ¬ past.IsAttended ∧ refusal = some .noSubscribers)
  /-- What is refused comes before every subscription, so that no later subscriber is told of it. -/
  unseen : ∀ (past : Log σ α) a fault later, log = past ++ .published a (some fault) :: later →
    ∀ who before since, log.Subscription who before since →
      ∃ between, before = past ++ .published a (some fault) :: between
  /-- Everybody who subscribes has his account. -/
  account : ∀ who before since, log.Subscription who before since → Account size c who before since

/-- **The bus delivers:** its accounts are right for the least power of two that is at least the
capacity, and at least one. -/
def Delivers (capacity : Nat) (c : Channel σ α) (log : Log σ α) : Prop :=
  ∃ size, IsLeast {n | max 1 capacity ≤ n ∧ ∃ k, n = 2 ^ k} size ∧ Accounts size c log

/-! ### The size of a bus -/

/-- A bus keeps the least power of two that is at least the capacity, and at least one. -/
theorem isLeast_powerOfTwo (n : Nat) :
    IsLeast {m | n ≤ m ∧ ∃ k, m = 2 ^ k} (powerOfTwo n) := by
  unfold powerOfTwo
  split
  · next small =>
    refine ⟨⟨small, 0, rfl⟩, ?_⟩
    rintro m ⟨-, k, rfl⟩
    exact Nat.one_le_two_pow
  · next large =>
    have ne : n - 1 ≠ 0 := by omega
    refine ⟨⟨?_, _, rfl⟩, ?_⟩
    · have above : n - 1 < 2 ^ ((n - 1).log2 + 1) := Nat.lt_log2_self
      exact Nat.le_of_pred_lt above
    · rintro m ⟨le, k, rfl⟩
      have below : n - 1 < 2 ^ k := by omega
      exact Nat.pow_le_pow_right (by decide) ((Nat.log2_lt ne).2 below)

/-! ### One request -/

section

variable {c : Channel σ α} {all : List α} {n : Nat} {who : σ}

/-- **A subscriber asks** who has passed `n` of all values: the answer is that to the others, and what
it leaves behind is behind him alone. -/
theorem receive_of_passed (accepted : c.accepted = all.length) (kept : c.kept = latest c.depth all)
    (passed : c.readers.get? who = some n) (le : n ≤ all.length) :
    Answer c.depth (all.drop n) (c.receive who).2 ∧
      ∃ readers, (c.receive who).1 = { c with readers } ∧ ∀ reader, readers.get? reader =
        if who = reader then some (n + (c.receive who).2.passed) else c.readers.get? reader := by
  have oldest : c.accepted - c.kept.length = all.length - c.depth := by
    rw [kept, accepted, latest, List.length_drop]
    omega
  have left : (all.drop n).length = all.length - n := List.length_drop
  unfold receive
  rw [passed]
  dsimp only
  rw [oldest]
  split
  · next overrun =>
    have more : c.depth < (all.drop n).length := by omega
    have count : all.length - c.depth - n = (all.drop n).length - c.depth := by omega
    refine ⟨count ▸ .lagged more, _, rfl, fun reader => ?_⟩
    have next : n + (all.length - c.depth - n) = all.length - c.depth := by omega
    rw [Received.passed, next]
    exact Table.get?_insert ..
  · next inTime =>
    have found : c.kept[n - (all.length - c.depth)]? = all[n]? := by
      rw [kept, latest, List.getElem?_drop]
      congr 1
      omega
    rw [found]
    cases here : all[n]? with
    | some a =>
      obtain ⟨lt, rfl⟩ := List.getElem?_eq_some_iff.1 here
      rw [List.drop_eq_getElem_cons lt] at left ⊢
      exact ⟨.value (by omega), _, rfl, fun reader => Table.get?_insert ..⟩
    | none =>
      rw [List.drop_eq_nil_of_le (List.getElem?_eq_none_iff.1 here)]
      refine ⟨.empty, c.readers, rfl, fun reader => ?_⟩
      split
      · next same => exact same ▸ passed
      · rfl

/-- Who does not subscribe gets nothing. -/
theorem receive_of_none (stranger : c.readers.get? who = none) : c.receive who = (c, .empty) := by
  unfold receive
  rw [stranger]

end

/-! ### The bus against its log -/

/-- **The bus is as its log says:** it has the latest values, and what is behind every subscriber. -/
structure Holds (c : Channel σ α) (log : Log σ α) : Prop where
  accepted : c.accepted = log.accepted.length
  kept : c.kept = latest c.depth log.accepted
  /-- Behind a subscriber is what was accepted before he came, and what he has passed since. -/
  here : ∀ {who} {before since : Log σ α}, log.Subscription who before since →
    c.readers.get? who = some (before.accepted.length + since.passed who) ∧
      since.passed who ≤ since.accepted.length
  gone : ∀ {who}, (∀ before since, ¬ log.Subscription who before since) →
    c.readers.get? who = none

namespace Holds

variable {c c' : Channel σ α} {log : Log σ α} {o : Occurrence σ α}

/-- What has to be known of one more occurrence. -/
theorem extend (h : Holds c log)
    (accepted : c'.accepted = (log ++ [o] : Log σ α).accepted.length)
    (kept : c'.kept = latest c'.depth (log ++ [o] : Log σ α).accepted)
    (comes : ∀ who, o = .subscribed who → c'.readers.get? who = some log.accepted.length)
    (leaves : ∀ who, o = .unsubscribed who → c'.readers.get? who = none)
    (stays : ∀ who, o ≠ .subscribed who → o ≠ .unsubscribed who →
      c'.readers.get? who = (c.readers.get? who).map (· + Log.passed [o] who))
    (within : ∀ who n, c.readers.get? who = some n →
      n + Log.passed [o] who ≤ (log ++ [o] : Log σ α).accepted.length) :
    Holds c' (log ++ [o]) where
  accepted := accepted
  kept := kept
  here := by
    intro who before since subscription
    rcases subscription.cases_append with ⟨rfl, rfl, rfl⟩ | ⟨sofar, rfl, earlier, other, lasts⟩
    · exact ⟨comes who rfl, Nat.zero_le _⟩
    · obtain ⟨behind, -⟩ := h.here earlier
      have le := within who _ behind
      rw [Log.accepted_append, earlier.accepted_eq, List.length_append, List.length_append] at le
      rw [stays who other lasts, behind, Option.map_some, Log.passed_append, Nat.add_assoc,
        Log.accepted_append, List.length_append]
      exact ⟨rfl, by omega⟩
  gone := by
    intro who nobody
    have other : o ≠ .subscribed who := by
      rintro rfl
      exact nobody _ _ (Log.subscription_subscribed log who)
    by_cases left : o = .unsubscribed who
    · exact leaves who left
    · have before : c.readers.get? who = none :=
        h.gone fun _ _ earlier => nobody _ _ (earlier.append other left)
      rw [stays who other left, before, Option.map_none]

/-- Nobody has passed more than was accepted. -/
theorem le_accepted (h : Holds c log) {who : σ} {n : Nat} (behind : c.readers.get? who = some n) :
    n ≤ log.accepted.length := by
  by_cases subscribes : ∃ before since, log.Subscription who before since
  · obtain ⟨before, since, subscription⟩ := subscribes
    obtain ⟨behind', le⟩ := h.here subscription
    obtain rfl := Option.some.inj (behind.symm.trans behind')
    rw [subscription.accepted_eq, List.length_append]
    exact Nat.add_le_add_left le _
  · have none_ : c.readers.get? who = none :=
      h.gone fun before since subscription => subscribes ⟨before, since, subscription⟩
    cases none_.symm.trans behind

/-- Less has to be known if nothing is accepted, and if no answer leaves anything behind. -/
theorem extend_quiet (h : Holds c log) {readers : Table σ Nat} (silent : o.accepted? = none)
    (idle : ∀ who, Log.passed [o] who = 0)
    (comes : ∀ who, o = .subscribed who → readers.get? who = some log.accepted.length)
    (leaves : ∀ who, o = .unsubscribed who → readers.get? who = none)
    (stays : ∀ who, o ≠ .subscribed who → o ≠ .unsubscribed who →
      readers.get? who = c.readers.get? who) :
    Holds { c with readers } (log ++ [o]) := by
  have same : (log ++ [o] : Log σ α).accepted = log.accepted := by simp [silent]
  refine h.extend (same ▸ h.accepted) (same ▸ h.kept) comes leaves ?_ ?_
  · intro who other lasts
    simp [stays who other lasts, idle]
  · intro who n behind
    rw [same, idle]
    exact h.le_accepted behind

theorem subscribe (h : Holds c log) (who : σ) :
    Holds (c.subscribe who) (log ++ [.subscribed who]) := by
  refine h.extend_quiet rfl (fun _ => rfl) ?_ (by simp) ?_
  · rintro _ ⟨⟩
    exact (Table.get?_insert_self ..).trans (congrArg some h.accepted)
  · intro reader other _
    have ne : who ≠ reader := fun same => other (congrArg _ same)
    simp [ne]

theorem unsubscribe (h : Holds c log) (who : σ) :
    Holds (c.unsubscribe who) (log ++ [.unsubscribed who]) := by
  refine h.extend_quiet rfl (fun _ => rfl) (by simp) ?_ ?_
  · rintro _ ⟨⟩
    exact (Table.get?_erase ..).trans (if_pos rfl)
  · intro reader _ lasts
    have ne : who ≠ reader := fun same => lasts (congrArg _ same)
    simp [ne]

/-- A refused value leaves the bus as it is. -/
theorem refuse (h : Holds c log) (a : α) (fault : PartnerFault) :
    Holds c (log ++ [.published a (some fault)]) :=
  h.extend_quiet rfl (fun _ => rfl) (by simp) (by simp) fun _ _ _ => rfl

/-- An accepted one is the latest, and behind nobody. -/
theorem accept (h : Holds c log) (a : α) :
    Holds { c with accepted := c.accepted + 1, kept := latest c.depth (c.kept ++ [a]) }
      (log ++ [.published a none]) := by
  have more : (log ++ [.published a none] : Log σ α).accepted = log.accepted ++ [a] := by
    simp [Occurrence.accepted?]
  refine h.extend ?_ ?_ (by simp) (by simp) ?_ ?_
  · rw [more, List.length_append, h.accepted]
    rfl
  · dsimp only
    rw [more, h.kept, latest_concat]
  · intro reader _ _
    simp [Occurrence.answer?]
  · intro reader n behind
    have le := h.le_accepted behind
    rw [more, List.length_append]
    simpa [Occurrence.answer?] using Nat.le_succ_of_le le

/-- A request leaves behind what is answered. -/
theorem receive (h : Holds c log) (who : σ) :
    Holds (c.receive who).1 (log ++ [.received who (c.receive who).2]) := by
  cases behind : c.readers.get? who with
  | none =>
    rw [receive_of_none behind]
    refine h.extend_quiet rfl (fun reader => ?_) (by simp) (by simp) fun _ _ _ => rfl
    rw [Log.passed_singleton, Occurrence.answer?]
    split <;> rfl
  | some n =>
    have le := h.le_accepted behind
    obtain ⟨answer, readers, after, others⟩ := receive_of_passed h.accepted h.kept behind le
    have same : (log ++ [.received who (c.receive who).2] : Log σ α).accepted = log.accepted := by
      simp [Occurrence.accepted?]
    rw [after]
    refine h.extend (same ▸ h.accepted) (same ▸ h.kept) (by simp) (by simp) ?_ ?_
    · intro reader _ _
      dsimp only
      rw [others, Log.passed_singleton, Occurrence.answer?]
      split
      · next mine => rw [← mine, behind]; rfl
      · simp
    · intro reader m there
      rw [same, Log.passed_singleton, Occurrence.answer?]
      split
      · next mine =>
        obtain rfl := Option.some.inj (behind.symm.trans (mine ▸ there))
        have passed := answer.passed_le
        rw [List.length_drop] at passed
        change n + (c.receive who).2.passed ≤ _
        omega
      · exact h.le_accepted there

/-- **Every action keeps the bus as its log says.** -/
theorem act (h : Holds c log) (action : Action σ α) :
    Holds (c.act action).1 (log ++ [(c.act action).2]) := by
  cases action with
  | subscribe who => exact h.subscribe who
  | unsubscribe who => exact h.unsubscribe who
  | receive who => exact h.receive who
  | publish a =>
    rw [act_publish]
    split
    · exact h.refuse a _
    · exact h.accept a

end Holds

/-! ### Every run -/

namespace Run

variable {capacity : Nat} {c : Channel σ α} {log before since past later : Log σ α} {who : σ}
  {o : Occurrence σ α} {a : α} {refusal : Option PartnerFault}

theorem depth_eq (run : Run capacity c log) : c.depth = powerOfTwo (max 1 capacity) := by
  induction run with
  | create => rfl
  | @act c log _ action ih =>
    rw [← ih]
    cases action with
    | subscribe | unsubscribe => rfl
    | publish a =>
      rw [act_publish]
      split <;> rfl
    | receive who =>
      unfold Channel.act Channel.receive
      dsimp only
      split
      · rfl
      · split
        · rfl
        · split <;> rfl

/-- The bus of a run is as the log says. -/
theorem holds (run : Run capacity c log) : Holds c log := by
  induction run with
  | create => exact ⟨rfl, List.drop_nil.symm, fun h => absurd h.eq (by simp), fun _ => rfl⟩
  | act _ action ih => exact ih.act action

/-- Whatever is in the log was seen of some action on the bus as it was then. -/
theorem exists_act (run : Run capacity c log) (at_ : log = past ++ o :: later) :
    ∃ (c' : Channel σ α) (action : Action σ α), Run capacity c' past ∧ (c'.act action).2 = o := by
  induction run generalizing later with
  | create => simp at at_
  | @act c log run action ih =>
    rcases List.eq_nil_or_concat' later with rfl | ⟨later, last, rfl⟩
    · obtain ⟨rfl, last⟩ := List.append_inj' at_ rfl
      exact ⟨c, action, run, List.singleton_inj.1 last⟩
    · rw [← List.cons_append, ← List.append_assoc] at at_
      exact ih (List.append_inj' at_ rfl).1

/-- Nobody subscribes exactly if the bus is deserted. -/
theorem isDeserted_iff (run : Run capacity c log) : c.isDeserted ↔ ¬ log.IsAttended := by
  unfold isDeserted
  rw [List.isEmpty_iff]
  constructor
  · rintro deserted ⟨who, before, since, subscription⟩
    have there := Table.mem_entries_iff.2 (run.holds.here subscription).1
    rw [deserted] at there
    cases there
  · intro nobody
    refine List.eq_nil_iff_forall_not_mem.2 fun e he => ?_
    have gone : c.readers.get? e.1 = none :=
      run.holds.gone fun before since subscription => nobody ⟨e.1, before, since, subscription⟩
    cases gone.symm.trans (Table.mem_entries_iff.1 he)

/-- **A value is refused** exactly if nobody subscribes. -/
theorem refusal_eq (run : Run capacity c log) (at_ : log = past ++ .published a refusal :: later) :
    past.IsAttended ∧ refusal = none ∨ ¬ past.IsAttended ∧ refusal = some .noSubscribers := by
  obtain ⟨c', action, before, seen⟩ := run.exists_act at_
  cases action with
  | subscribe | unsubscribe | receive => cases seen
  | publish b =>
    have deserted := before.isDeserted_iff
    rw [act_publish] at seen
    split at seen
    · next nobody =>
      cases seen
      exact .inr ⟨deserted.1 nobody, rfl⟩
    · next somebody =>
      cases seen
      exact .inl ⟨not_not.1 fun alone => somebody (deserted.2 alone), rfl⟩

/-- **Every answer is that to what was unread then.** -/
theorem isAnswered (run : Run capacity c log) (subscription : log.Subscription who before since) :
    Log.IsAnswered (powerOfTwo (max 1 capacity)) who since := by
  rintro earlier got later rfl
  have at_ : log = (before ++ .subscribed who :: earlier) ++ .received who got :: later := by
    rw [subscription.eq, List.append_assoc, List.cons_append]
  obtain ⟨c', action, sofar, seen⟩ := run.exists_act at_
  cases action with
  | subscribe | unsubscribe => cases seen
  | publish b =>
    rw [act_publish] at seen
    split at seen <;> cases seen
  | receive reader =>
    cases seen
    -- the bus as it was then, and the subscription up to then
    have holds := sofar.holds
    have until_ := subscription.earlier
    obtain ⟨behind, -⟩ := holds.here until_
    obtain ⟨answer, -⟩ := receive_of_passed holds.accepted holds.kept behind (holds.le_accepted behind)
    rwa [until_.accepted_eq, List.drop_length_add_append, sofar.depth_eq] at answer

/-- The bus counts what is unread. -/
theorem backlog?_eq (run : Run capacity c log) (subscription : log.Subscription who before since) :
    c.backlog? who = some (since.unread who).length := by
  obtain ⟨behind, -⟩ := run.holds.here subscription
  rw [backlog?, behind, Option.map_some, run.holds.accepted, subscription.accepted_eq,
    List.length_append, Log.unread, List.length_drop]
  congr 1
  omega

/-- A refused value comes before every subscription. -/
theorem unseen (run : Run capacity c log) {fault : PartnerFault}
    (at_ : log = past ++ .published a (some fault) :: later)
    (subscription : log.Subscription who before since) :
    ∃ between, before = past ++ .published a (some fault) :: between := by
  rcases List.append_eq_append_iff.1 (at_.symm.trans subscription.eq) with
    ⟨between, rfl, rest⟩ | ⟨earlier, rfl, rest⟩
  · cases between with
    | nil => cases rest
    | cons first between =>
      obtain ⟨rfl, -⟩ := List.cons_eq_cons.1 rest
      exact ⟨between, rfl⟩
  · cases earlier with
    | nil => cases rest
    | cons first earlier =>
      obtain ⟨rfl, rfl⟩ := List.cons_eq_cons.1 rest
      -- somebody subscribed then
      rcases run.refusal_eq at_ with ⟨-, accepted⟩ | ⟨nobody, -⟩
      · cases accepted
      · exact absurd ⟨who, before, _, subscription.earlier⟩ nobody

end Run

/-- The account of every subscription. -/
theorem Run.account {capacity : Nat} {c : Channel σ α} {log before since : Log σ α} {who : σ}
    (run : Run capacity c log) (subscription : log.Subscription who before since) :
    Account (powerOfTwo (max 1 capacity)) c who before since := by
  have answered := run.isAnswered subscription
  have tells := answered.tells
  have pos : 0 < powerOfTwo (max 1 capacity) :=
    (Nat.le_max_left 1 capacity).trans (isLeast_powerOfTwo _).1.1
  exact ⟨tells, tells.sublist, tells.total, run.backlog?_eq subscription, answered,
    fun _ _ _ _ _ => answered.resumes pos⟩

/-- **Every bus delivers,** whatever its capacity and whoever uses it. -/
theorem Run.delivers {capacity : Nat} {c : Channel σ α} {log : Log σ α} (run : Run capacity c log) :
    Delivers capacity c log :=
  ⟨_, isLeast_powerOfTwo _, fun _ _ _ _ => run.refusal_eq, fun _ _ _ _ at_ _ _ _ => run.unseen at_,
    fun _ _ _ => run.account⟩

end Channel

end Purse
