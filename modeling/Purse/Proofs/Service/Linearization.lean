import Purse.Proofs.Service.Deeds
import Purse.Proofs.Service.Ledger
import Purse.Proofs.Service.Moments

/-!
# The ledger and linearizability

However calls interleave, each takes effect as a whole at one moment, and the balances are the sum
of what took effect. `Linearized` puts together what is known of a run. Balances are accounted for
by the committed mutations (`Reaches.balanced`); each successful call is among them once and a
failed one is not (`Reaches.accomplished`); and each outcome is that of a moment of the call: the
commit for mutations (`Run.wrote`), a look at the row for views and refusals
(`Run.justified_of_ended`).
-/

namespace Purse.Service

variable {s t : State} {us : List State} {id : CallId} {r : Request} {answer : Answer}

/-- The mutation that the request asks for was committed once, in the caller's wallet, and the
answer is the row as it stood right after the commit. -/
def CommittedOnce (t : State) (us : List State) (id : CallId) (r : Request) (answer : Answer) :
    Prop :=
  ∃ change row, t.commits id = [.committed id change row] ∧ r.Asks change ∧
    r.user? = some row.user ∧ answer = change.answer row ∧
    Wrote us id (.committed id change row) row

/-- **A mutation that was answered was committed once,** as it was answered. -/
theorem Run.committed_once (h : Run s t us) (start : s.Unused)
    (asked : .arrived id r ∈ t.history) (mutates : r.order?.isSome)
    (hm : .ended id (.ok answer) ∈ t.history) : CommittedOnce t us id r answer := by
  -- an answer with a commit behind it is as claimed; one without belongs to another kind of request
  have one {change : Change} {row : Wallet} (asks : r.Asks change)
      (hc : t.commits id = [.committed id change row]) (eq : answer = change.answer row) :
      CommittedOnce t us id r answer := by
    have entered : .committed id change row ∈ t.commits id := by
      rw [hc]
      exact List.mem_singleton_self _
    obtain ⟨user, wrote⟩ := h.wrote start (List.mem_filter.1 entered).1 asked
    exact ⟨change, row, hc, asks, user, eq, wrote⟩
  have done := h.reaches.accomplished start hm asked
  have commits : t.commits id = (t.deeds id).filter (Occurrence.isCommitOf id) := State.commits_eq
  generalize t.deeds id = ds at done commits
  cases done with
  | silent asks => exact one asks (by simpa [Occurrence.isCommitOf] using commits) rfl
  | announced asks => exact one asks (by simpa [Occurrence.isCommitOf] using commits) rfl
  | created asks | viewed asks =>
    subst asks
    cases mutates
  | informed asks =>
    cases r with
    | quote | listing => cases mutates
    | _ => cases asks

/-- What a creation that was answered did: it added a wallet once, and the answer shows it as it was
added. -/
theorem Run.created_once {user : Uuid} (h : Run s t us) (start : s.Unused)
    (asked : .arrived id (.create user) ∈ t.history) (hm : .ended id (.ok answer) ∈ t.history) :
    ∃ row, t.deeds id = [.created id row] ∧ row.user = user ∧ answer = .wallet row ∧
      Wrote us id (.created id row) row := by
  have done := h.reaches.accomplished start hm asked
  generalize hd : t.deeds id = ds at done
  cases done with
  | @created user' row asks =>
    have entered : .created id row ∈ t.deeds id := by rw [hd]; exact List.mem_singleton_self _
    obtain ⟨for_, wrote⟩ := h.made start (List.mem_filter.1 entered).1 asked
    exact ⟨row, rfl, (Request.create.inj for_).symm, rfl, wrote⟩
  | viewed asks => cases asks
  | informed asks => cases asks
  | silent asks | announced asks =>
    obtain ⟨order, parsed, -⟩ := asks
    cases parsed

/-- **Ledger and linearizability** of a run from `s` to `t` through the states of the list. -/
structure Linearized (s t : State) (us : List State) : Prop where
  /-- A balance is what the wallet was opened with, and what the mutations committed on it have
  credited, less what they have debited. -/
  balance : ∀ {wallet row}, t.store.rows.get? wallet = some row →
    ∃ opening, Opening s t wallet opening ∧ ∀ c, (row.balance c).units =
      (opening.balance c).units + t.credited wallet c - t.debited wallet c
  /-- No call is committed twice. -/
  commits_length_le : ∀ id, (t.commits id).length ≤ 1
  /-- A mutation that was answered is committed once; the answer is the row as it stood right
  after. -/
  committed_once : ∀ {id r answer}, .arrived id r ∈ t.history → r.order?.isSome →
    .ended id (.ok answer) ∈ t.history → CommittedOnce t us id r answer
  /-- A creation that was answered adds one wallet; the answer is the row as it stood right after
  that. -/
  created_once : ∀ {id user answer}, .arrived id (.create user) ∈ t.history →
    .ended id (.ok answer) ∈ t.history →
    ∃ row, t.deeds id = [.created id row] ∧ row.user = user ∧ answer = .wallet row ∧
      Wrote us id (.created id row) row
  /-- A call that failed is not committed at all. -/
  not_committed : ∀ {id e}, .ended id (.error e) ∈ t.history → t.commits id = []
  /-- A view shows what the user's row was at some moment of the call. -/
  viewed : ∀ {id user outcome}, .arrived id (.view user) ∈ t.history →
    .ended id outcome ∈ t.history →
    During us id fun u => outcome = (u.store.get user).map .wallet
  /-- A refusal for lack of funds has a moment of the call at which the user's row had less than was
  to be taken. -/
  short : ∀ {id r}, .arrived id r ∈ t.history → .ended id (.error .insufficientFunds) ∈ t.history →
    During us id (Short r)

/-- **Every run of the service is linearizable,** with the committed mutations as the ledger of
every balance. -/
theorem Run.linearized (h : Run s t us) (start : s.Unused) : Linearized s t us where
  balance hr := (h.reaches.balanced start).balance _ _ hr
  commits_length_le := h.reaches.commits_length_le start
  committed_once asked mutates hm := h.committed_once start asked mutates hm
  created_once asked hm := h.created_once start asked hm
  not_committed hm := by
    rw [State.commits_eq, h.reaches.deeds_of_error start hm, List.filter_nil]
  viewed asked hm := (h.justified_of_ended start hm asked).view _ rfl
  short asked hm := (h.justified_of_ended start hm asked).short rfl

/-! ### An exchange that is overtaken -/

/-- Whether the call has ended with the error. -/
def State.hasFailed (s : State) (id : CallId) (e : WalletError) : Bool :=
  s.history.any fun o => match o with | .ended j (.error e') => j = id && e' = e | _ => false

theorem State.mem_of_hasFailed {e : WalletError} (h : s.hasFailed id e) :
    .ended id (.error e) ∈ s.history := by
  obtain ⟨o, ho, matches_⟩ := List.any_eq_true.1 h
  split at matches_
  · obtain ⟨rfl, rfl⟩ : _ = id ∧ _ = e := by simpa using matches_
    exact ho
  · cases matches_

/-- A service for two mutations at once, with nothing in it and no rates. -/
def vacant : State :=
  .initial .epoch ⟨2, none, [], []⟩ 60000 State.defaultThreshold ⟨[], none, 0⟩ ⟨0, none⟩ .accepting

theorem unused_vacant : vacant.Unused :=
  State.unused_initial (show Gate.create? 2 none = some ⟨2, none, [], []⟩ from rfl)

/-- A deposit of 100 USD; an exchange of 60 looks at the balance, and before it comes to the store a
withdrawal of 70 passes it by. In the end the wallet is viewed. -/
def overtaking : List Turn :=
  let user := Uuid.ofNat 1
  let turns (id : CallId) (n : Nat) : List Turn := List.replicate n (.call id)
  .outside (.arrive 0 (.create user) (.ofNat 2)) :: turns 0 2 ++
  .outside (.arrive 1 (.deposit user "USD" 100.0) (.ofNat 3)) :: turns 1 8 ++
  .outside (.refreshCache [⟨⟨.usd, .rub⟩, 90.0⟩]) ::
  .outside (.arrive 2 (.exchange user "USD" "RUB" 60.0) (.ofNat 4)) :: turns 2 4 ++
  .outside (.arrive 3 (.withdraw user "USD" 70.0) (.ofNat 5)) :: turns 3 8 ++
  turns 2 4 ++
  .outside (.arrive 4 (.view user) (.ofNat 6)) :: turns 4 4

set_option maxRecDepth 10000 in
theorem isSome_overtaking : (vacant.follow? overtaking).isSome := by decide +kernel

/-- What is left after the exchange was overtaken. -/
def overtaken : State := (vacant.follow? overtaking).get isSome_overtaking

theorem reaches_overtaken : Reaches vacant overtaken :=
  reaches_of_follow? (Option.some_get _).symm

/-- The exchange that was overtaken is refused, and the run is linearizable. -/
theorem linearized_overtaken :
    overtaken.hasFailed 2 .insufficientFunds ∧
      ∃ us, Run vacant overtaken us ∧ Linearized vacant overtaken us := by
  refine ⟨by decide +kernel, ?_⟩
  obtain ⟨us, run⟩ := reaches_overtaken.exists_run
  exact ⟨us, run, run.linearized unused_vacant⟩

end Purse.Service
