import Purse.Proofs.Rate.Usable

/-!
# What a listing of the cache says

A cache is read in two ways, by pair and as a whole. Both read the same map, each with a look at the
time of its own, and the listing sorts what it reads. This module says that the listing leaves
nothing out: what is served for any pair can be read off it (`RateCache.IsListing.served`), and a
cache that is refreshed with it, in whatever order, serves and lists the same
(`RateCache.IsListing.restores`).

The reason is that a table in which no pair occurs twice means just what it says: an entry is the last
of its pair because there is no other (`RateTable.isLast_iff_of_nodup`). A listing is such a table, and
so is every reordering of it.
-/

namespace Purse

variable {t u : RateTable} {p : CurrencyPair} {r : ExchangeRate} {x : Float} {c d : RateCache}
  {now : Nat} {rs : List ExchangeRate}

/-! ### Tables without repetitions -/

namespace RateTable

/-- In a table in which no pair occurs twice every usable entry is the last of its pair. -/
theorem isLast_iff_of_nodup (distinct : (t.map ExchangeRate.pair).Nodup) :
    t.IsLast r ↔ r ∈ t ∧ r.isUsable := by
  constructor
  · rintro ⟨before, after, rfl, usable, -⟩
    exact ⟨by simp, usable⟩
  · rintro ⟨hm, usable⟩
    obtain ⟨before, after, rfl⟩ := List.append_of_mem hm
    refine ⟨before, after, rfl, usable, fun e he _ same => ?_⟩
    rw [List.map_append, List.map_cons, List.nodup_append] at distinct
    obtain ⟨-, rest, -⟩ := distinct
    exact (List.nodup_cons.1 rest).1 (same ▸ List.mem_map_of_mem he)

/-- The view and the quotes of a table are made of its look-ups. -/
theorem view_congr (same : ∀ p, t.lookup p = u.lookup p) : t.view = u.view := by
  unfold view
  simp only [same]

theorem quote_congr (same : ∀ p, t.lookup p = u.lookup p) : t.quote p = u.quote p := by
  unfold quote
  rw [same, same]

theorem isUsable_of_mem_view (h : r ∈ t.view) : r.isUsable :=
  (lookup_eq_some_iff.1 (mem_view_iff.1 h)).isUsable

/-- No pair occurs twice in a view. -/
theorem nodup_map_pair_view (t : RateTable) : (t.view.map ExchangeRate.pair).Nodup := by
  refine List.pairwise_map.2 (pairwise_view.imp fun lt same => ?_)
  rw [same] at lt
  exact Nat.lt_irrefl _ lt

/-- **A view in any order is a table with the same look-ups.** -/
theorem lookup_of_perm_view (perm : u.Perm t.view) (p : CurrencyPair) : u.lookup p = t.lookup p := by
  have distinct : (u.map ExchangeRate.pair).Nodup :=
    (perm.map ExchangeRate.pair).nodup_iff.2 t.nodup_map_pair_view
  refine Option.ext fun x => ?_
  rw [lookup_eq_some_iff, isLast_iff_of_nodup distinct, perm.mem_iff]
  constructor
  · rintro ⟨hm, -⟩
    exact mem_view_iff.1 hm
  · intro found
    have hm : ExchangeRate.mk p x ∈ t.view := mem_view_iff.2 found
    exact ⟨hm, isUsable_of_mem_view hm⟩

/-- **The rate that a listing determines for a pair:** that of its entry, or the reciprocal of that of
the reversed pair, if the pair has no entry. -/
inductive Determines (rs : List ExchangeRate) (p : CurrencyPair) : Float → Prop
  | entry {rate : Float} (listed : ⟨p, rate⟩ ∈ rs) : Determines rs p rate
  | reciprocal {rate : Float} (unlisted : ∀ r ∈ rs, r.pair ≠ p) (listed : ⟨p.reversed, rate⟩ ∈ rs) :
      Determines rs p (1.0 / rate)

/-- What a table quotes is what its view determines. -/
theorem determines_view_iff : Determines t.view p x ↔ t.Quotes p x := by
  have listed {q : CurrencyPair} {rate : Float} : ⟨q, rate⟩ ∈ t.view ↔ t.IsLast ⟨q, rate⟩ :=
    isView_view.mem_iff _
  have unlisted : (∀ r ∈ t.view, r.pair ≠ p) ↔ ∀ e ∈ t, e.isUsable → e.pair ≠ p := by
    rw [← lookup_eq_none_iff, Option.eq_none_iff_forall_ne_some]
    constructor
    · intro other rate found
      exact other ⟨p, rate⟩ (mem_view_iff.2 found) rfl
    · rintro nothing r hr rfl
      exact nothing r.rate (mem_view_iff.1 hr)
  constructor
  · rintro (here | ⟨other, reversed⟩)
    · exact .direct (listed.1 here)
    · exact .reciprocal (unlisted.1 other) (listed.1 reversed)
  · rintro (last | ⟨nothing, last⟩)
    · exact .entry (listed.2 last)
    · exact .reciprocal (unlisted.2 nothing) (listed.2 last)

/-- A table quotes something exactly if its view is not empty. -/
theorem view_eq_nil_iff : t.view = [] ↔ ∀ p, t.quote p = none := by
  constructor
  · intro empty p
    refine Option.eq_none_iff_forall_ne_some.2 fun x quoted => ?_
    cases determines_view_iff.2 (quote_eq_some_iff.1 quoted) with
    | entry listed => simp [empty] at listed
    | reciprocal _ listed => simp [empty] at listed
  · intro nothing
    refine List.eq_nil_iff_forall_not_mem.2 fun r hr => ?_
    have quoted : t.quote r.pair = some r.rate :=
      quote_eq_some_iff.2 (.direct ((isView_view.mem_iff r).1 hr))
    cases (nothing r.pair).symm.trans quoted

end RateTable

/-! ### The order of the entries -/

/-- Two snapshots with the same rates show the same. -/
theorem RateSnapshot.Shows.eq_of_get? {s s' : RateSnapshot} {rs' : List ExchangeRate}
    (shows : s.Shows rs) (shows' : s'.Shows rs') (same : ∀ p, s.rates.get? p = s'.rates.get? p) :
    rs = rs' :=
  ExchangeRate.eq_of_ordered shows.ordered shows'.ordered fun r => by
    rw [shows.mem_iff, shows'.mem_iff, same]

namespace RateCache

/-- **The same cache but for the order of its entries,** which is that of an unordered map. -/
structure Reordered (c d : RateCache) : Prop where
  ttl : d.ttl = c.ttl
  refreshedAt : d.snapshot.refreshedAt = c.snapshot.refreshedAt
  entries : d.snapshot.rates.entries.Perm c.snapshot.rates.entries

namespace Reordered

theorem isFresh_eq (h : c.Reordered d) (now : Nat) : d.isFresh now = c.isFresh now := by
  unfold isFresh RateSnapshot.isFresh
  rw [h.ttl, h.refreshedAt]

/-- The order does not matter to a look-up. -/
theorem get_eq (h : c.Reordered d) (now : Nat) (p : CurrencyPair) : d.get now p = c.get now p := by
  unfold get
  rw [h.isFresh_eq, Table.get?_of_perm h.entries, Table.get?_of_perm h.entries]

/-- It does not matter to a listing either. -/
theorem getAll_eq (h : c.Reordered d) (now : Nat) : d.getAll now = c.getAll now := by
  have sorted := d.snapshot.shows_sort.eq_of_get? c.snapshot.shows_sort
    (Table.get?_of_perm h.entries)
  unfold getAll
  rw [h.isFresh_eq, h.entries.isEmpty_eq, sorted]

end Reordered

/-! ### Faithful listings -/

/-- **What a list says that the cache gives as its listing** now. -/
structure IsListing (c : RateCache) (now : Nat) (rs : List ExchangeRate) : Prop where
  /-- It is not empty. -/
  ne_nil : rs ≠ []
  /-- It is in the order of pairs, so that no pair occurs twice. -/
  ordered : rs.Pairwise fun a b => a.pair.index < b.pair.index
  usable : ∀ r ∈ rs, r.isUsable
  /-- What the cache serves for a pair is what the list determines. -/
  served : ∀ p x, c.get now p = some x ↔ RateTable.Determines rs p x
  /-- Any cache that is refreshed with the list, in whatever order, serves and lists the same now. -/
  restores : ∀ (d : RateCache) (rs' : List ExchangeRate), rs'.Perm rs →
    (∀ p, (d.refresh now rs').get now p = c.get now p) ∧ (d.refresh now rs').getAll now = some rs

/-- **The two ways to read the cache agree** now. -/
structure IsFaithful (c : RateCache) (now : Nat) : Prop where
  listing : ∀ rs, c.getAll now = some rs → c.IsListing now rs
  /-- There is no listing exactly if nothing is served. -/
  eq_none_iff : c.getAll now = none ↔ ∀ p, c.get now p = none
  /-- How the entries are ordered in the map does not show. -/
  reordered : ∀ d, c.Reordered d → d.getAll now = c.getAll now ∧ ∀ p, d.get now p = c.get now p

section Held

variable {time : Nat} (holds : c.snapshot = .take time t) (fresh : c.isFresh now)
include holds fresh

/-- What a cache lists that may serve is the view of the table that it holds. -/
theorem isListing_view (something : t.view ≠ []) : c.IsListing now t.view where
  ne_nil := something
  ordered := RateTable.pairwise_view
  usable _ := RateTable.isUsable_of_mem_view
  served p x := by
    rw [get_of_take holds, if_pos fresh, RateTable.quote_eq_some_iff, RateTable.determines_view_iff]
  restores d rs' perm := by
    have same := RateTable.lookup_of_perm_view perm
    have view : RateTable.view rs' = t.view := RateTable.view_congr same
    have refreshed : (d.refresh now rs').isFresh now := isFresh_refresh.2 (Nat.le_add_right ..)
    constructor
    · intro p
      rw [get_of_take holds, if_pos fresh, get_of_take rfl, if_pos refreshed]
      exact RateTable.quote_congr same
    · rw [getAll_of_take rfl, view, if_pos ⟨refreshed, something⟩]

/-- It lists nothing exactly if the table quotes nothing. -/
theorem getAll_eq_none_iff_of_take : c.getAll now = none ↔ ∀ p, c.get now p = none := by
  have empty : c.getAll now = none ↔ t.view = [] := by
    rw [getAll_of_take holds]
    simp [fresh]
  rw [empty, RateTable.view_eq_nil_iff]
  simp only [get_of_take holds, if_pos fresh]

end Held

/-- **The listing of a cache is faithful,** whatever it was refreshed with, however often and whenever
it is asked. -/
theorem Made.isFaithful (made : c.Made) (now : Nat) : c.IsFaithful now := by
  refine ⟨fun rs lists => ?_, ?_, fun d same => ⟨same.getAll_eq now, same.get_eq now⟩⟩
  · rcases made.holds with nothing | ⟨time, t, holds⟩
    · cases (getAll_of_not_refreshed nothing).symm.trans lists
    · have fresh := isFresh_of_getAll lists
      rw [getAll_of_take holds] at lists
      split at lists
      · next shown =>
        obtain rfl := Option.some.inj lists
        exact isListing_view holds fresh shown.2
      · cases lists
  · rcases made.holds with nothing | ⟨time, t, holds⟩
    · exact iff_of_true (getAll_of_not_refreshed nothing) fun p => get_of_not_refreshed nothing
    · by_cases fresh : c.isFresh now
      · exact getAll_eq_none_iff_of_take holds fresh
      · refine iff_of_true (getAll_of_not_fresh fresh) fun p => ?_
        rw [get_of_take holds, if_neg fresh]

/-- A cache that was refreshed twice, the second time with a table that gives EUR before USD, quotes
the rouble in both directions, USD in RUB a second time as zero, and last the dollar in dollars. -/
def replaced : RateCache :=
  ((create 60000).refresh 0 [⟨⟨.eur, .usd⟩, 1.2⟩]).refresh 10
    [⟨⟨.eur, .rub⟩, 98.0⟩, ⟨⟨.rub, .usd⟩, 0.01⟩, ⟨⟨.usd, .rub⟩, 90.0⟩, ⟨⟨.usd, .rub⟩, 0.0⟩,
      ⟨⟨.usd, .usd⟩, 1.0⟩]

/-- At the end of its time it lists three rates, and the listing is faithful. -/
theorem isFaithful_replaced :
    replaced.Made ∧ replaced.IsFaithful 60010 ∧
      replaced.IsListing 60010 [⟨⟨.usd, .rub⟩, 90.0⟩, ⟨⟨.rub, .usd⟩, 0.01⟩, ⟨⟨.eur, .rub⟩, 98.0⟩] := by
  have made : replaced.Made := .refresh 10 _ (.refresh 0 _ (.create 60000))
  have lists : replaced.getAll 60010 =
      some [⟨⟨.usd, .rub⟩, 90.0⟩, ⟨⟨.rub, .usd⟩, 0.01⟩, ⟨⟨.eur, .rub⟩, 98.0⟩] :=
    (getAll_of_take rfl).trans (if_pos ⟨by decide, List.cons_ne_nil _ _⟩)
  exact ⟨made, made.isFaithful 60010, (made.isFaithful 60010).listing _ lists⟩

end RateCache

end Purse
