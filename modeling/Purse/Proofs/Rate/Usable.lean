import Purse.Proofs.Decimal.Quotient
import Purse.Proofs.Rate.Cache

/-!
# Whether a served rate is usable

A table may hold any doubles. What is quoted from it is held to be usable, finite and above zero,
where it is collected. The reciprocal that serves the opposite direction is computed after that, and
nobody looks at it again.

It turns out to be above zero always, but not finite always: the least doubles have reciprocals that
are too large for a double. `RateTable.Overflows` describes the tables and pairs where this happens,
and `RateTable.Proper` is what can be said of every rate that is served: it is above zero, and it is
finite exactly if the pair does not overflow (`RateTable.Quotes.proper`).
-/

namespace Purse

open Binary64

variable {t : RateTable} {p : CurrencyPair} {r : ExchangeRate} {x rate : Float} {c : RateCache}
  {time now : Nat}

/-! ### What is usable -/

theorem ExchangeRate.isUsable_iff : r.isUsable ↔
    r.pair.sold ≠ r.pair.bought ∧ r.rate.isFinite ∧ r.rate > 0.0 := by
  unfold isUsable
  rw [Bool.and_eq_true, Bool.and_eq_true, decide_eq_true_iff, decide_eq_true_iff, and_assoc]

namespace RateTable

theorem IsLast.isUsable (h : t.IsLast r) : r.isUsable := by
  obtain ⟨before, after, -, usable, -⟩ := h
  exact usable

/-- The rate of a usable entry is a positive double. -/
theorem IsLast.isPositive (h : t.IsLast ⟨p, x⟩) : IsPositive x := by
  obtain ⟨-, finite, above⟩ := ExchangeRate.isUsable_iff.1 h.isUsable
  exact isPositive_iff.2 ⟨above, finite⟩

/-- There is only one last usable entry of a pair. -/
theorem IsLast.rate_eq (h : t.IsLast ⟨p, x⟩) (h' : t.IsLast ⟨p, rate⟩) : x = rate :=
  Option.some.inj ((lookup_eq_some_iff.2 h).symm.trans (lookup_eq_some_iff.2 h'))

/-- **The pair overflows:** the table quotes it only in the other direction, and there at a rate so
small that its reciprocal is too large for a double. -/
def Overflows (t : RateTable) (p : CurrencyPair) : Prop :=
  (∀ e ∈ t, e.isUsable → e.pair ≠ p) ∧
    ∃ rate, t.IsLast ⟨p.reversed, rate⟩ ∧ toRat rate ≤ 2 ^ (-1024 : ℤ)

/-- **A proper rate of a pair:** it is above zero, so it is a number, and it is finite, unless the
pair overflows. -/
structure Proper (t : RateTable) (p : CurrencyPair) (x : Float) : Prop where
  pos : x > 0.0
  isFinite_iff : x.isFinite ↔ ¬ t.Overflows p

/-- **Whatever a table quotes is proper.** -/
theorem Quotes.proper (h : t.Quotes p x) : t.Proper p x := by
  cases h with
  | direct last =>
    obtain ⟨-, finite, above⟩ := ExchangeRate.isUsable_iff.1 last.isUsable
    refine ⟨above, iff_of_true finite ?_⟩
    -- the pair has a usable entry itself
    rintro ⟨nothing, -⟩
    obtain ⟨before, after, parts, usable, -⟩ := last
    exact nothing ⟨p, x⟩ (by simp [parts]) usable rfl
  | @reciprocal rate nothing last =>
    refine ⟨reciprocal_pos last.isPositive, ?_⟩
    rw [isFinite_reciprocal_iff last.isPositive, ← not_le]
    constructor
    · rintro more ⟨-, rate', last', tiny⟩
      rw [last'.rate_eq last] at tiny
      exact more tiny
    · intro fits tiny
      exact fits ⟨nothing, rate, last, tiny⟩

end RateTable

/-! ### What a cache serves -/

namespace RateCache

/-- **A cache as it comes about:** it was empty once, and then it was refreshed, any number of
times. -/
inductive Made : RateCache → Prop
  | create (ttl : Nat) : Made (create ttl)
  | refresh {c : RateCache} (now : Nat) (t : RateTable) : Made c → Made (c.refresh now t)

/-- It holds nothing, or a table. -/
theorem Made.holds (h : c.Made) :
    c.snapshot = .none ∨ ∃ time t, c.snapshot = .take time t := by
  cases h with
  | create ttl => exact .inl rfl
  | refresh now t => exact .inr ⟨now, t, rfl⟩

/-- **What a cache serves is quoted** by the table that it holds. -/
theorem Made.quotes (h : c.Made) (serves : c.get now p = some x) :
    ∃ time t, c.snapshot = .take time t ∧ t.Quotes p x := by
  rcases h.holds with nothing | ⟨time, t, holds⟩
  · rw [get_of_not_refreshed nothing] at serves
    cases serves
  · rw [get_of_take holds] at serves
    split at serves
    · exact ⟨time, t, holds, RateTable.quote_eq_some_iff.1 serves⟩
    · cases serves

/-- **What is served after a refresh is proper,** whatever table it was made with and when. -/
theorem proper_of_get (serves : (c.refresh time t).get now p = some x) : t.Proper p x := by
  rw [get_refresh] at serves
  split at serves
  · exact (RateTable.quote_eq_some_iff.1 serves).proper
  · cases serves

end RateCache

/-- The least double above zero. -/
def leastRate : Float := .ofBits 1

/-- **A served rate can be infinite:** the reciprocal of the least rate is. -/
theorem not_forall_isFinite_served : ¬ ∀ (ttl time now : Nat) (t : RateTable) (p : CurrencyPair)
    (x : Float), p.sold ≠ p.bought → ((RateCache.create ttl).refresh time t).get now p = some x →
    x.isFinite ∧ x > 0.0 := by
  intro usable
  let table : RateTable := [⟨⟨.usd, .eur⟩, leastRate⟩]
  have served : ((RateCache.create 60000).refresh 0 table).get 0 ⟨.eur, .usd⟩ =
      some (1.0 / leastRate) := rfl
  have infinite : (1.0 / leastRate).isFinite = false := by decide +kernel
  have finite := (usable 60000 0 0 _ _ _ (by decide) served).1
  rw [infinite] at finite
  cases finite

end Purse
