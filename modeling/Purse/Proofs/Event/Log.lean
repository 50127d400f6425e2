import Mathlib
import Purse.Event.Channel

/-!
# The log of a bus

A bus is seen from outside as a log: who subscribes and leaves, what is published and whether it is
refused, who asks and what he gets (`Channel.Log`). This module says what can be read off a log in
which everybody is answered as he should be.

What somebody should get when he asks is known from what he has not read yet (`Channel.Answer`). If he
always gets that, then the values accepted since he subscribed are told to him one after another, each
of them received or reported lost, up to those that are still unread (`Channel.Log.IsAnswered.tells`),
and after a loss he goes on with the oldest value that is kept (`Channel.Log.IsAnswered.resumes`).
-/

namespace Purse

variable {σ α : Type}

namespace Received

/-- The value that was received. -/
def value? : Received α → Option α
  | value a => some a
  | _ => none

/-- How many values are reported lost. -/
def lost : Received α → Nat
  | lagged count => count
  | _ => 0

/-- How many values an answer leaves behind. -/
def passed : Received α → Nat
  | value _ => 1
  | lagged count => count
  | empty => 0

/-- What is behind was received or reported lost. -/
theorem sum_passed (gots : List (Received α)) :
    (gots.map passed).sum = (gots.filterMap value?).length + (gots.map lost).sum := by
  induction gots with
  | nil => rfl
  | cons got gots ih =>
    rw [List.map_cons, List.sum_cons, List.map_cons, List.sum_cons, ih]
    cases got with
    | value a =>
      rw [List.filterMap_cons_some (show value? (.value a) = some a from rfl), List.length_cons]
      simp only [passed, lost]
      omega
    | lagged count =>
      rw [List.filterMap_cons_none (show value? (.lagged count : Received α) = none from rfl)]
      simp only [passed, lost]
      omega
    | empty => simp [passed, lost, List.filterMap_cons, value?]

end Received

namespace Channel

/-! ### What is seen of a bus -/

/-- Something that is seen of a bus. -/
inductive Occurrence (σ α : Type) where
  | subscribed (who : σ)
  | unsubscribed (who : σ)
  /-- A value was offered, and refused for a reason or not. -/
  | published (a : α) (refusal : Option PartnerFault)
  | received (who : σ) (got : Received α)

/-- What was seen of a bus so far, the earliest first. -/
abbrev Log (σ α : Type) := List (Occurrence σ α)

/-- The value that was accepted. -/
def Occurrence.accepted? : Occurrence σ α → Option α
  | published a none => some a
  | _ => none

namespace Log

/-- The values that were accepted. -/
def accepted (log : Log σ α) : List α := log.filterMap Occurrence.accepted?

/-- **A subscription that has not ended,** with what was seen before and since. -/
structure Subscription (log : Log σ α) (who : σ) (before since : Log σ α) : Prop where
  eq : log = before ++ .subscribed who :: since
  again : .subscribed who ∉ since
  lasts : .unsubscribed who ∉ since

/-- Whether somebody subscribes. -/
def IsAttended (log : Log σ α) : Prop := ∃ who before since, log.Subscription who before since

variable {log before since past later : Log σ α} {o : Occurrence σ α} {who : σ}

@[simp] theorem accepted_append : (past ++ later).accepted = past.accepted ++ later.accepted :=
  List.filterMap_append

@[simp] theorem accepted_singleton : accepted [o] = o.accepted?.toList := by
  unfold accepted
  cases h : o.accepted? <;> simp [h]

/-- A subscription goes on with whatever is not about its end. -/
theorem Subscription.append (h : log.Subscription who before since) (other : o ≠ .subscribed who)
    (stays : o ≠ .unsubscribed who) :
    (log ++ [o] : Log σ α).Subscription who before (since ++ [o]) where
  eq := by rw [h.eq, List.append_assoc, List.cons_append]
  again hm := (List.mem_append.1 hm).elim h.again fun last => other (List.mem_singleton.1 last).symm
  lasts hm := (List.mem_append.1 hm).elim h.lasts fun last => stays (List.mem_singleton.1 last).symm

theorem subscription_subscribed (log : Log σ α) (who : σ) :
    (log ++ [.subscribed who] : Log σ α).Subscription who log [] :=
  ⟨rfl, by simp, by simp⟩

/-- A subscription has just begun, or it goes on. -/
theorem Subscription.cases_append (h : (log ++ [o] : Log σ α).Subscription who before since) :
    (o = .subscribed who ∧ before = log ∧ since = []) ∨
      ∃ sofar : Log σ α, since = sofar ++ [o] ∧ log.Subscription who before sofar ∧
        o ≠ .subscribed who ∧ o ≠ .unsubscribed who := by
  obtain ⟨eq, again, lasts⟩ := h
  rcases List.eq_nil_or_concat' since with rfl | ⟨sofar, last, rfl⟩
  · obtain ⟨rfl, last⟩ := List.append_inj' eq rfl
    exact .inl ⟨(List.singleton_inj.1 last), rfl, rfl⟩
  · rw [← List.cons_append, ← List.append_assoc] at eq
    obtain ⟨rfl, rest⟩ := List.append_inj' eq rfl
    obtain rfl := List.singleton_inj.1 rest
    simp only [List.mem_append, List.mem_singleton, not_or] at again lasts
    exact .inr ⟨sofar, rfl, ⟨rfl, again.1, lasts.1⟩, Ne.symm again.2, Ne.symm lasts.2⟩

theorem Subscription.accepted_eq (h : log.Subscription who before since) :
    log.accepted = before.accepted ++ since.accepted := by
  rw [h.eq, accepted_append]
  rfl

/-- A subscription that lasts has lasted at every earlier moment. -/
theorem Subscription.earlier (h : log.Subscription who before (past ++ later)) :
    (before ++ .subscribed who :: past : Log σ α).Subscription who before past where
  eq := rfl
  again hm := h.again (List.mem_append_left _ hm)
  lasts hm := h.lasts (List.mem_append_left _ hm)

end Log

/-! ### The latest values -/

/-- The latest values of what is left are the latest of all, if more are left. -/
theorem latest_drop {size n : Nat} {as : List α} (more : size < (as.drop n).length) :
    latest size (as.drop n) = latest size as := by
  unfold latest
  rw [List.drop_drop, List.length_drop]
  rw [List.length_drop] at more
  congr 1
  omega

theorem latest_append {size : Nat} {as bs : List α} (more : size < bs.length) :
    latest size (as ++ bs) = latest size bs := by
  have later : (as ++ bs).drop as.length = bs := List.drop_left
  rw [← later] at more
  rw [← latest_drop more, later]

/-- To find the latest values it is enough to have kept the latest ones before. -/
theorem latest_concat (size : Nat) (as : List α) (a : α) :
    latest size (latest size as ++ [a]) = latest size (as ++ [a]) := by
  have kept : latest size as ++ [a] = (as ++ [a]).drop (as.length - size) :=
    (List.drop_append_of_le_length (Nat.sub_le ..)).symm
  rw [kept, latest, latest, List.drop_drop, List.length_drop, List.length_append]
  congr 1
  rw [List.length_singleton]
  omega

/-! ### Answers -/

/-- **What is answered** to somebody with these values unread, by a bus that keeps so many. -/
inductive Answer (size : Nat) : List α → Received α → Prop
  | value {a : α} {rest : List α} (kept : (a :: rest).length ≤ size) :
      Answer size (a :: rest) (.value a)
  | lagged {unread : List α} (overrun : size < unread.length) :
      Answer size unread (.lagged (unread.length - size))
  | empty : Answer size [] .empty

/-- **The answers tell of the values** one after another, up to those that are left: a value is the
next one, and a loss is that of so many of the next ones. -/
inductive Tells : List (Received α) → List α → List α → Prop
  | nothing {left : List α} : Tells [] left left
  | value {gots : List (Received α)} {a : α} {as left : List α} (h : Tells gots as left) :
      Tells (.value a :: gots) (a :: as) left
  | lagged {gots : List (Received α)} {lost as left : List α} (h : Tells gots as left) :
      Tells (.lagged lost.length :: gots) (lost ++ as) left
  | empty {gots : List (Received α)} {as left : List α} (h : Tells gots as left) :
      Tells (.empty :: gots) as left

section

variable {size : Nat} {unread as left : List α} {gots : List (Received α)} {got : Received α}

theorem Answer.passed_le (h : Answer size unread got) : got.passed ≤ unread.length := by
  cases h with
  | value => exact Nat.succ_le_succ (Nat.zero_le _)
  | lagged => exact Nat.sub_le ..
  | empty => exact Nat.le_refl _

theorem Answer.of_lagged {count : Nat} (h : Answer size unread (.lagged count)) :
    size < unread.length ∧ count = unread.length - size := by
  cases h with
  | lagged overrun => exact ⟨overrun, rfl⟩

/-- As many as the bus keeps are never lost: the answer is the first of them. -/
theorem Answer.eq_value (h : Answer size unread got) (full : unread.length = size)
    (pos : 0 < size) : ∃ a, got = .value a ∧ unread.head? = some a := by
  cases h with
  | value => exact ⟨_, rfl, rfl⟩
  | lagged overrun => exact absurd (full ▸ overrun) (Nat.lt_irrefl _)
  | empty => exact absurd (full ▸ pos) (Nat.lt_irrefl _)

namespace Tells

/-- New values are left. -/
theorem accept (h : Tells gots as left) (new : List α) : Tells gots (as ++ new) (left ++ new) := by
  induction h with
  | nothing => exact .nothing
  | value _ ih => exact .value ih
  | lagged _ ih => exact List.append_assoc .. ▸ .lagged ih
  | empty _ ih => exact .empty ih

/-- The next answer tells of what was left. -/
theorem answer (h : Tells gots as left) (next : Answer size left got) :
    Tells (gots ++ [got]) as (left.drop got.passed) := by
  induction h with
  | value _ ih => exact .value (ih next)
  | lagged _ ih => exact .lagged (ih next)
  | empty _ ih => exact .empty (ih next)
  | @nothing left =>
    cases next with
    | value => exact .value .nothing
    | empty => exact .empty .nothing
    | lagged overrun =>
      -- what is lost is what comes before the values that are kept
      have lost : (left.take (left.length - size)).length = left.length - size :=
        List.length_take_of_le (Nat.sub_le ..)
      have told : Tells [.lagged (left.take (left.length - size)).length]
          (left.take (left.length - size) ++ left.drop (left.length - size)) _ := .lagged .nothing
      rwa [lost, List.take_append_drop] at told

/-- Every value is behind or left. -/
theorem length_eq (h : Tells gots as left) :
    as.length = (gots.map Received.passed).sum + left.length := by
  induction h with
  | nothing => simp
  | value _ ih =>
    simp only [List.length_cons, List.map_cons, List.sum_cons, Received.passed, ih]
    omega
  | lagged _ ih =>
    simp only [List.length_append, List.map_cons, List.sum_cons, Received.passed, ih]
    omega
  | empty _ ih => simpa [Received.passed] using ih

/-- Every value was received or reported lost, or it is left. -/
theorem total (h : Tells gots as left) :
    (gots.filterMap Received.value?).length + (gots.map Received.lost).sum + left.length =
      as.length := by
  rw [h.length_eq, Received.sum_passed]

/-- What was received comes in the order of the values. -/
theorem sublist (h : Tells gots as left) : (gots.filterMap Received.value?).Sublist as := by
  induction h with
  | nothing => exact List.nil_sublist _
  | value _ ih => exact ih.cons_cons _
  | lagged _ ih => exact ih.trans (List.sublist_append_right ..)
  | empty _ ih => exact ih

end Tells

end

/-! ### From answers to accounts -/

variable [DecidableEq σ]

/-- What somebody got who asked. -/
def Occurrence.answer? (who : σ) : Occurrence σ α → Option (Received α)
  | received reader got => if reader = who then some got else none
  | _ => none

namespace Log

/-- What somebody got when he asked. -/
def answers (log : Log σ α) (who : σ) : List (Received α) :=
  log.filterMap (Occurrence.answer? who)

/-- How many values are behind him. -/
def passed (log : Log σ α) (who : σ) : Nat := ((log.answers who).map Received.passed).sum

/-- The accepted values that are still before him. -/
def unread (log : Log σ α) (who : σ) : List α := log.accepted.drop (log.passed who)

variable {past later since : Log σ α} {o : Occurrence σ α} {who : σ} {size : Nat}

@[simp] theorem answers_append :
    (past ++ later).answers who = past.answers who ++ later.answers who :=
  List.filterMap_append

@[simp] theorem answers_singleton : answers [o] who = (o.answer? who).toList := by
  unfold answers
  cases h : o.answer? who <;> simp [h]

@[simp] theorem passed_append : (past ++ later).passed who = past.passed who + later.passed who := by
  simp [passed]

/-- With an answer its values are behind the subscriber, and with nothing else. -/
@[simp] theorem passed_singleton : passed [o] who = ((o.answer? who).map Received.passed).getD 0 := by
  unfold passed
  rw [answers_singleton]
  cases o.answer? who <;> simp

/-- Every answer in the log is that to what was unread then. -/
def IsAnswered (size : Nat) (who : σ) (since : Log σ α) : Prop :=
  ∀ (earlier : Log σ α) got later, since = earlier ++ .received who got :: later →
    Answer size (earlier.unread who) got

/-- **If all answers are right, they tell of all that was accepted,** up to what is unread. -/
theorem IsAnswered.tells (h : IsAnswered size who since) :
    Tells (since.answers who) since.accepted (since.unread who) := by
  induction since using List.reverseRecOn with
  | nil => exact .nothing
  | append_singleton since o ih =>
    have sofar := ih fun earlier got later eq => h earlier got (later ++ [o]) (by rw [eq]; simp)
    have le : passed since who ≤ (accepted since).length := by
      rw [sofar.length_eq]
      exact Nat.le_add_right ..
    unfold unread at sofar ⊢
    rw [answers_append, accepted_append, passed_append, answers_singleton,
      accepted_singleton, passed_singleton]
    cases o with
    | subscribed | unsubscribed => simpa [Occurrence.accepted?, Occurrence.answer?] using sofar
    | published a refusal =>
      cases refusal with
      | none =>
        have more := sofar.accept [a]
        rw [← List.drop_append_of_le_length le] at more
        simpa [Occurrence.accepted?, Occurrence.answer?] using more
      | some fault => simpa [Occurrence.accepted?, Occurrence.answer?] using sofar
    | received reader got =>
      by_cases mine : reader = who
      · subst mine
        have more := sofar.answer (h since got [] rfl)
        rw [List.drop_drop] at more
        simpa [Occurrence.accepted?, Occurrence.answer?] using more
      · simpa [Occurrence.accepted?, Occurrence.answer?, mine] using sofar

/-- **After a loss,** if nothing is accepted in between, comes the oldest of the values that are
kept. -/
theorem IsAnswered.resumes {before earlier between : Log σ α} {count : Nat} {got : Received α}
    (h : IsAnswered size who since) (pos : 0 < size)
    (at_ : since =
      earlier ++ .received who (.lagged count) :: (between ++ .received who got :: later))
    (quiet : between.accepted = []) (idle : between.answers who = []) :
    ∃ a, got = .value a ∧ (latest size (before ++ earlier : Log σ α).accepted).head? = some a := by
  obtain ⟨overrun, lost⟩ := (h earlier _ _ at_).of_lagged
  have next := h (earlier ++ [.received who (.lagged count)] ++ between) got later
    (by rw [at_]; simp)
  have nothing : between.passed who = 0 := by
    rw [passed, idle]
    rfl
  have left : unread (earlier ++ [.received who (.lagged count)] ++ between) who =
      latest size (earlier.unread who) := by
    rw [latest, ← lost]
    unfold unread
    rw [List.drop_drop, accepted_append, accepted_append, passed_append,
      passed_append, quiet, nothing]
    simp [Occurrence.accepted?, Occurrence.answer?, Received.passed]
  have kept : latest size (earlier.unread who) =
      latest size (before ++ earlier : Log σ α).accepted := by
    have more : size < earlier.accepted.length :=
      Nat.lt_of_lt_of_le overrun (List.length_drop ▸ Nat.sub_le ..)
    rw [accepted_append, latest_append more]
    exact latest_drop overrun
  rw [left] at next
  rw [← kept]
  refine next.eq_value ?_ pos
  rw [latest, List.length_drop]
  omega

end Log

end Channel

end Purse
