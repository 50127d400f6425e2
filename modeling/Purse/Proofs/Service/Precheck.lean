import Purse.Proofs.Service.Dealing

/-!
# The early look at the balance

When an exchange has read the row, it takes the debit from a copy of it before it looks for a rate.
This is meant to save a look-up that would be in vain: the debit that counts is the later one, on the
row under its lock. Here a call with the early look is compared with a call without it, from one state.

Both fail for the first obstacle in their way, and both have the same obstacles: only the want of funds
stands before the rates for the one and after them for the other (`Obstacle.first?_inOrder_cases`). So
they fail together, and with different errors only if the funds are short and the rates fail as well.
If neither fails, they make the same deal and ask the source alike (`Exchanged.eq_of_ok`).
-/

namespace Purse.Service

variable {s t t' : State} {k k₁ k₂ : Scene} {x : Terms} {e e' : WalletError} {early : Bool}
  {id : CallId} {pair : CurrencyPair} {row : Wallet} {debit : MinorUnits}
  {outcome outcome' : Outcome} {drawn : Uuid}

namespace Obstacle

theorem error?_funds (h : error? k x funds = some e) : e = .insufficientFunds := by
  unfold error? at h
  obtain ⟨debit, -, h⟩ := Option.bind_eq_some_iff.1 h
  obtain ⟨pair, -, h⟩ := Option.bind_eq_some_iff.1 h
  obtain ⟨row, -, h⟩ := Option.bind_eq_some_iff.1 h
  split at h
  · cases h
    rfl
  · cases h

/-- **The two orders have the same first obstacle,** unless the funds are short and a rate, the source
or the conversion fails as well. -/
theorem first?_inOrder_cases (k : Scene) (x : Terms) :
    first? k x (inOrder true) = first? k x (inOrder false) ∨
      first? k x (inOrder true) = some .insufficientFunds ∧
        ∃ e, first? k x (inOrder false) = some e ∧ first? k x [source, rate, product] = some e := by
  -- both orders are made of the same four parts, and only the middle two change places
  have with_ : first? k x (inOrder true) = (first? k x (arguments ++ [wallet])).or
      ((first? k x [funds]).or ((first? k x [source, rate, product]).or (first? k x [room]))) := by
    rw [← first?_append, ← first?_append, ← first?_append]
    rfl
  have without : first? k x (inOrder false) = (first? k x (arguments ++ [wallet])).or
      ((first? k x [source, rate, product]).or ((first? k x [funds]).or (first? k x [room]))) := by
    rw [← first?_append, ← first?_append, ← first?_append]
    rfl
  rw [with_, without]
  cases first? k x (arguments ++ [wallet]) with
  | some e => exact .inl rfl
  | none =>
    cases short : first? k x [funds] with
    | none => exact .inl rfl
    | some e =>
      cases first? k x [source, rate, product] with
      | none => exact .inl rfl
      | some e' =>
        -- the one case in which it matters which part comes first
        rw [first?, List.findSome?_singleton] at short
        obtain rfl := error?_funds short
        exact .inr ⟨rfl, e', rfl, rfl⟩

end Obstacle

/-! ### Two exchanges from one scene -/

namespace Exchanged

/-- An exchange that is made has passed all that comes before the rates. -/
theorem asks_of_ok {answer : Answer} (h : Exchanged early k x k₁ (.ok answer)) :
    k.asks early x = x.pair?.any k.misses := by
  have passes : Obstacle.first? k x (Obstacle.inOrder early) = none := by
    cases first : Obstacle.first? k x (Obstacle.inOrder early) with
    | none => rfl
    | some e => cases (h.fails e).2 first
  rw [Obstacle.first?_inOrder, Option.or_eq_none_iff] at passes
  rw [Scene.asks, passes.1]
  exact Bool.true_and _

/-- **If both are made, they are made alike,** and leave the same scene. -/
theorem eq_of_ok {answer answer' : Answer} (h : Exchanged true k x k₁ (.ok answer))
    (h' : Exchanged false k x k₂ (.ok answer')) : answer' = answer ∧ k₂ = k₁ := by
  obtain ⟨store, rfl⟩ := (h.succeeds answer rfl).unique (h'.succeeds answer' rfl)
  refine ⟨rfl, ?_⟩
  calc k₂ = { (if k.asks false x then k.fetched else k) with store := k₂.store } := h'.scene_eq
    _ = { (if k.asks true x then k.fetched else k) with store := k₁.store } := by
      rw [h.asks_of_ok, h'.asks_of_ok, store]
    _ = k₁ := h.scene_eq.symm

variable (h : Exchanged true k x k₁ outcome) (h' : Exchanged false k x k₂ outcome')
include h h'

/-- With the early look or without, an exchange fails or not. -/
theorem error_iff : (∃ e, outcome = .error e) ↔ ∃ e, outcome' = .error e := by
  simp only [h.fails, h'.fails]
  obtain same | ⟨short, e, fails, -⟩ := Obstacle.first?_inOrder_cases k x
  · rw [same]
  · rw [short, fails]
    exact ⟨fun _ => ⟨e, rfl⟩, fun _ => ⟨_, rfl⟩⟩

/-- **If both fail, it is for the same reason,** or the early look was faster than the rates. -/
theorem error_cases (fails : outcome = .error e) (fails' : outcome' = .error e') :
    e' = e ∨ e = .insufficientFunds ∧
      Obstacle.first? k x [.source, .rate, .product] = some e' := by
  have first := (h.fails e).1 fails
  have first' := (h'.fails e').1 fails'
  obtain same | ⟨short, e'', later, rates⟩ := Obstacle.first?_inOrder_cases k x
  · rw [first, first'] at same
    exact .inl (Option.some.inj same).symm
  · cases first.symm.trans short
    cases first'.symm.trans later
    exact .inr ⟨rfl, rates⟩

end Exchanged

/-- **What the early look refuses is refused under the lock as well,** whatever would be credited. -/
theorem mutate_eq_error_of_debit {store : MemoryStore} (sound : store.Sound)
    (debits : x.debit? = some debit) (trades : x.pair? = some pair)
    (there : store.get x.user = .ok row) (refuses : row.debit pair.sold debit = .error e)
    (credit : MinorUnits) (now : Timestamp) :
    store.mutate now row.id (.exchange pair.sold debit pair.bought credit) = .error e := by
  obtain ⟨-, -, differ⟩ := Terms.pair?_eq_some trades
  have positive : 0 < debit.units := MinorUnits.ofAmount?_pos debits
  -- a debit of something is refused only if the balance is below it
  obtain rfl := Wallet.debit_eq_error positive refuses
  obtain ⟨-, short⟩ := Wallet.debit_eq_insufficientFunds_iff.1 refuses
  have held : store.rows.get? row.id = some row := sound.get?_of_get there
  rw [MemoryStore.mutate_of_there held, Mutation.applyTo_exchange_of_short differ positive short]
  rfl

/-! ### The look is a pure optimization -/

/-- **Nothing depends on the early look but the time at which some exchanges fail.** From a state `s`
an exchange on terms `x` ends in `t` with the early look, and in `t'` without it. -/
structure Harmless (s : State) (x : Terms) (t t' : State) (outcome outcome' : Outcome) : Prop where
  /-- It succeeds with the look if and only if it succeeds without. -/
  succeeds_iff : (∃ answer, outcome = .ok answer) ↔ ∃ answer, outcome' = .ok answer
  /-- It comes out the same then, and leaves the same rows and the same cache. -/
  same : ∀ answer, outcome = .ok answer →
    outcome' = outcome ∧ t'.store = t.store ∧ t'.cache = t.cache ∧ t'.fetches = t.fetches
  /-- If it fails, no row is written, with the look or without. -/
  unwritten : ∀ e e', outcome = .error e → outcome' = .error e' →
    t.store = s.store ∧ t'.store = s.store
  /-- The errors are the same too, unless the look finds the funds short where the call without it
  fails first for the source, the rate or the conversion. -/
  errors : ∀ e e', outcome = .error e → outcome' = .error e' →
    e' = e ∨ e = .insufficientFunds ∧
      Obstacle.first? s.scene x [.source, .rate, .product] = some e'
  /-- What the look refuses is refused under the lock as well, whatever would be credited. -/
  refused : ∀ debit pair row e, x.debit? = some debit → x.pair? = some pair →
    s.store.get x.user = .ok row → row.debit pair.sold debit = .error e →
    ∀ credit now,
      s.store.mutate now row.id (.exchange pair.sold debit pair.bought credit) = .error e

/-- **The early look is a pure optimization:** from every state at rest, an exchange comes out with it
as without it. -/
theorem State.AtRest.harmless (rest : s.AtRest) (free : 0 < s.gate.free)
    (new : s.isTaken id = false) (x : Terms) (drawn : Uuid) :
    ∃ t t' outcome outcome',
      s.serve? id x.request drawn = some (t, ⟨id, x.request, drawn, outcome⟩) ∧
        s.serveWith? false id x.request drawn = some (t', ⟨id, x.request, drawn, outcome'⟩) ∧
        Harmless s x t t' outcome outcome' := by
  obtain ⟨t, outcome, serves, with_⟩ := rest.exists_serve free new true x drawn
  obtain ⟨t', outcome', serves', without⟩ := rest.exists_serve free new false x drawn
  rw [serveWith?_true] at serves
  have fail_together := with_.error_iff without
  refine ⟨t, t', outcome, outcome', serves, serves', ⟨?_, ?_, ?_, ?_, ?_⟩⟩
  · cases outcome <;> cases outcome' <;> simp at fail_together ⊢
  · rintro answer rfl
    cases outcome' with
    | error e =>
      -- they fail together
      obtain ⟨_, impossible⟩ := fail_together.2 ⟨e, rfl⟩
      cases impossible
    | ok answer' =>
      obtain ⟨rfl, scene⟩ := with_.eq_of_ok without
      exact ⟨rfl, congrArg Scene.store scene, congrArg Scene.cache scene,
        congrArg Scene.fetches scene⟩
  · intro e e' fails fails'
    exact ⟨with_.store_eq e fails, without.store_eq e' fails'⟩
  · intro e e' fails fails'
    exact with_.error_cases without fails fails'
  · intro debit pair row e debits trades there refuses credit now
    exact mutate_eq_error_of_debit rest.store debits trades there refuses credit now

/-- More dollars than there are, for a currency that nobody quotes: the early look finds the funds
short, and without it the rate is missed first. -/
theorem harmless_dealing :
    let x : Terms := ⟨purse.user, "USD", "EUR", 200.0⟩
    dealing.AtRest ∧ 0 < dealing.gate.free ∧ dealing.isTaken 1 = false ∧
      Obstacle.first? dealing.scene x (Obstacle.inOrder true) = some .insufficientFunds ∧
      Obstacle.first? dealing.scene x (Obstacle.inOrder false) =
        some (.rateUnavailable "USD" "EUR") ∧
      ∃ t t' outcome outcome',
        dealing.serve? 1 x.request (.ofNat 3) = some (t, ⟨1, x.request, .ofNat 3, outcome⟩) ∧
          dealing.serveWith? false 1 x.request (.ofNat 3) =
            some (t', ⟨1, x.request, .ofNat 3, outcome'⟩) ∧
          Harmless dealing x t t' outcome outcome' :=
  ⟨atRest_dealing, by decide, rfl, by decide +kernel, by decide +kernel,
    atRest_dealing.harmless (by decide) rfl _ _⟩

end Purse.Service
