import Mathlib.Data.List.Induction
import Mathlib.Data.List.Perm.Basic
import Purse.Proofs.Table
import Purse.Rate.Cache

/-!
# What the cache serves

A refresh collects a table, which is a plain list, into a map that holds for each pair the rate of
its last usable entry (`RateSnapshot.get?_collect`). So up to the end of its time the cache serves
what the table means and nothing else: for a pair the rate that the table quotes in one direction or
the other (`RateCache.get_refresh`), and for a listing the view of the table
(`RateCache.getAll_refresh`). After that, or before the first refresh, it serves nothing.

The view of a table leaves out what is not usable. If everything is, it is a listing of the whole
table: the last entry of each pair, and no pair lost (`RateTable.lists_view`).
-/

namespace Purse

variable {t : RateTable} {p : CurrencyPair} {r : ExchangeRate} {x : Float}

/-- Lists in the order of pairs, each pair at most once, are determined by their members. -/
theorem ExchangeRate.eq_of_ordered {rs rs' : List ExchangeRate}
    (ordered : rs.Pairwise fun a b => a.pair.index < b.pair.index)
    (ordered' : rs'.Pairwise fun a b => a.pair.index < b.pair.index)
    (same : ∀ r, r ∈ rs ↔ r ∈ rs') : rs = rs' := by
  have distinct {a b : ExchangeRate} (lt : a.pair.index < b.pair.index) : a ≠ b := by
    rintro rfl
    exact Nat.lt_irrefl _ lt
  have perm : rs.Perm rs' :=
    (List.perm_ext_iff_of_nodup (ordered.imp distinct) (ordered'.imp distinct)).2 same
  exact perm.eq_of_pairwise (fun a b _ _ lt gt => absurd (Nat.lt_trans lt gt) (Nat.lt_irrefl _))
    ordered ordered'

/-! ### What a table quotes -/

namespace RateTable

/-- **The rate that a table quotes for a pair in either direction:** its own, or the reciprocal of
that of the reversed pair. -/
def quote (t : RateTable) (p : CurrencyPair) : Option Float :=
  match t.lookup p with
  | some rate => some rate
  | none => (t.lookup p.reversed).map fun rate => 1.0 / rate

/-- The table has a usable entry for the pair or for the reversed one. -/
def Covers (t : RateTable) (p : CurrencyPair) : Prop :=
  ∃ r ∈ t, r.isUsable ∧ (r.pair = p ∨ r.pair = p.reversed)

/-- One entry more at the end counts, if it is usable. -/
theorem lookup_append_singleton :
    lookup (t ++ [r]) p = if r.isUsable && r.pair = p then some r.rate else lookup t p := by
  unfold lookup
  rw [List.reverse_append, List.reverse_singleton, List.singleton_append, List.find?_cons]
  split
  · next h => rw [if_pos h, Option.map_some]
  · next h => rw [h, if_neg Bool.false_ne_true]

/-- A pair is quoted if and only if it has a usable entry. -/
theorem isSome_lookup_iff : (lookup t p).isSome ↔ ∃ r ∈ t, r.isUsable ∧ r.pair = p := by
  unfold lookup
  rw [Option.isSome_map, List.find?_isSome]
  simp

/-- The last usable entry of its pair. -/
def IsLast (t : RateTable) (r : ExchangeRate) : Prop :=
  ∃ before after, t = before ++ r :: after ∧ r.isUsable ∧ ∀ e ∈ after, e.isUsable → e.pair ≠ r.pair

/-- **A pair is looked up at the rate of its last usable entry.** -/
theorem lookup_eq_some_iff : lookup t p = some x ↔ IsLast t ⟨p, x⟩ := by
  unfold lookup
  rw [Option.map_eq_some_iff]
  constructor
  · rintro ⟨e, found, rfl⟩
    obtain ⟨here, later, earlier, parts, others⟩ := List.find?_eq_some_iff_append.1 found
    simp only [Bool.and_eq_true, decide_eq_true_eq] at here
    obtain ⟨usable, rfl⟩ := here
    refine ⟨earlier.reverse, later.reverse, ?_, usable, ?_⟩
    · rw [← List.reverse_reverse t, parts]
      simp
    · -- a later usable entry of the pair would have been met first
      intro d hd usable' pair
      have passed := others d (List.mem_reverse.1 hd)
      simp [usable', pair] at passed
  · rintro ⟨before, after, rfl, usable, others⟩
    refine ⟨⟨p, x⟩, ?_, rfl⟩
    rw [List.find?_eq_some_iff_append]
    refine ⟨by simp [usable], after.reverse, before.reverse, by simp, ?_⟩
    intro e he
    have other := others e (List.mem_reverse.1 he)
    cases h : e.isUsable with
    | false => rfl
    | true => simp [other h]

/-- It is not found if it has no usable entry. -/
theorem lookup_eq_none_iff : lookup t p = none ↔ ∀ e ∈ t, e.isUsable → e.pair ≠ p := by
  rw [← Option.not_isSome_iff_eq_none, isSome_lookup_iff]
  simp

/-- **What a table quotes for a pair:** the rate of the last usable entry of the pair, or the
reciprocal of that of the reversed pair, if the pair has no usable entry itself. -/
inductive Quotes (t : RateTable) (p : CurrencyPair) : Float → Prop
  | direct {rate : Float} : t.IsLast ⟨p, rate⟩ → Quotes t p rate
  | reciprocal {rate : Float} : (∀ e ∈ t, e.isUsable → e.pair ≠ p) → t.IsLast ⟨p.reversed, rate⟩ →
      Quotes t p (1.0 / rate)

theorem quote_eq_some_iff : t.quote p = some x ↔ t.Quotes p x := by
  unfold quote
  cases direct : lookup t p with
  | some rate =>
    constructor
    · intro same
      obtain rfl := Option.some.inj same
      exact .direct (lookup_eq_some_iff.1 direct)
    · intro quotes
      cases quotes with
      | direct last => exact direct.symm.trans (lookup_eq_some_iff.2 last)
      | reciprocal nothing _ => cases direct.symm.trans (lookup_eq_none_iff.2 nothing)
  | none =>
    constructor
    · intro found
      obtain ⟨rate, reversed, rfl⟩ := Option.map_eq_some_iff.1 found
      exact .reciprocal (lookup_eq_none_iff.1 direct) (lookup_eq_some_iff.1 reversed)
    · intro quotes
      cases quotes with
      | direct last => cases direct.symm.trans (lookup_eq_some_iff.2 last)
      | reciprocal _ last => exact Option.map_eq_some_iff.2 ⟨_, lookup_eq_some_iff.2 last, rfl⟩

theorem Covers.isSome_quote (h : t.Covers p) : (t.quote p).isSome := by
  obtain ⟨r, hr, usable, direct | reversed⟩ := h
  · obtain ⟨x, hx⟩ := Option.isSome_iff_exists.1 (isSome_lookup_iff.2 ⟨r, hr, usable, direct⟩)
    rw [quote, hx]
    rfl
  · obtain ⟨x, hx⟩ := Option.isSome_iff_exists.1 (isSome_lookup_iff.2 ⟨r, hr, usable, reversed⟩)
    unfold quote
    split
    · rfl
    · rw [hx]
      rfl

/-- The view has an entry for each pair that is quoted, with its rate. -/
theorem mem_view_iff : r ∈ view t ↔ lookup t r.pair = some r.rate := by
  unfold view
  rw [List.mem_filterMap]
  constructor
  · rintro ⟨p, -, hp⟩
    obtain ⟨rate, hrate, rfl⟩ := Option.map_eq_some_iff.1 hp
    exact hrate
  · intro h
    exact ⟨r.pair, CurrencyPair.mem_all _, by rw [h, Option.map_some]⟩

/-- A table with a usable entry has something to show. -/
theorem view_ne_nil (h : ∃ r ∈ t, r.isUsable) : view t ≠ [] := by
  obtain ⟨r, hr, usable⟩ := h
  obtain ⟨x, hx⟩ := Option.isSome_iff_exists.1 (isSome_lookup_iff.2 ⟨r, hr, usable, rfl⟩)
  have shown : ExchangeRate.mk r.pair x ∈ view t := mem_view_iff.2 hx
  exact List.ne_nil_of_mem shown

/-- The view is in the order of pairs, each at most once. -/
theorem pairwise_view : (view t).Pairwise fun a b => a.pair.index < b.pair.index := by
  have ordered : CurrencyPair.all.Pairwise fun p q => p.index < q.index := by decide
  refine ordered.filterMap _ fun p q lt a ha b hb => ?_
  obtain ⟨-, -, rfl⟩ := Option.map_eq_some_iff.1 ha
  obtain ⟨-, -, rfl⟩ := Option.map_eq_some_iff.1 hb
  exact lt

/-- **What the view of a table is:** the last usable entry of each pair that has one, in the order of
pairs. -/
structure IsView (t : RateTable) (rs : List ExchangeRate) : Prop where
  mem_iff : ∀ r, r ∈ rs ↔ t.IsLast r
  ordered : rs.Pairwise fun a b => a.pair.index < b.pair.index

theorem isView_view : t.IsView t.view where
  mem_iff _ := mem_view_iff.trans lookup_eq_some_iff
  ordered := pairwise_view

/-- There is only one. -/
theorem IsView.eq_view {rs : List ExchangeRate} (h : t.IsView rs) : rs = t.view :=
  ExchangeRate.eq_of_ordered h.ordered pairwise_view fun r =>
    (h.mem_iff r).trans (isView_view.mem_iff r).symm

/-- **A listing of a table:** one entry for each pair that occurs in it, the last one, in the order of
pairs. -/
structure Lists (t : RateTable) (rs : List ExchangeRate) : Prop where
  /-- No pair is lost. -/
  complete : ∀ r ∈ t, ∃ e ∈ rs, e.pair = r.pair
  /-- What is listed is an entry of the table, and none of its pair comes after it. -/
  last : ∀ r ∈ rs, ∃ before after, t = before ++ r :: after ∧ ∀ e ∈ after, e.pair ≠ r.pair
  /-- Each pair is listed once, and they come in order. -/
  ordered : rs.Pairwise fun a b => a.pair.index < b.pair.index
  /-- Only a table without entries has an empty listing. -/
  eq_nil_iff : rs = [] ↔ t = []

/-- **The view of a table whose entries are all usable is its listing.** -/
theorem lists_view (usable : ∀ r ∈ t, r.isUsable) : Lists t t.view := by
  have complete : ∀ r ∈ t, ∃ e ∈ view t, e.pair = r.pair := by
    intro r hr
    obtain ⟨x, hx⟩ := Option.isSome_iff_exists.1 (isSome_lookup_iff.2 ⟨r, hr, usable r hr, rfl⟩)
    exact ⟨⟨r.pair, x⟩, mem_view_iff.2 hx, rfl⟩
  have last : ∀ r ∈ view t, ∃ before after, t = before ++ r :: after ∧
      ∀ e ∈ after, e.pair ≠ r.pair := by
    intro r hr
    obtain ⟨before, after, parts, -, others⟩ := lookup_eq_some_iff.1 (mem_view_iff.1 hr)
    refine ⟨before, after, parts, fun e he => others e he (usable e ?_)⟩
    rw [parts]
    exact List.mem_append_right _ (List.mem_cons_of_mem _ he)
  refine ⟨complete, last, pairwise_view, fun empty => ?_, fun empty => ?_⟩
  · refine List.eq_nil_iff_forall_not_mem.2 fun r hr => ?_
    obtain ⟨e, he, -⟩ := complete r hr
    rw [empty] at he
    cases he
  · refine List.eq_nil_iff_forall_not_mem.2 fun r hr => ?_
    obtain ⟨before, after, parts, -⟩ := last r hr
    rw [empty] at parts
    simp at parts

end RateTable

theorem CurrencyPair.index_injective {p q : CurrencyPair} (h : p.index = q.index) : p = q := by
  obtain ⟨sold, bought⟩ := p
  obtain ⟨sold', bought'⟩ := q
  cases sold <;> cases bought <;> cases sold' <;> cases bought' <;> first | rfl | cases h

namespace ExchangeRate

theorem sortByPair_perm (rs : List ExchangeRate) : (sortByPair rs).Perm rs :=
  List.mergeSort_perm ..

theorem pairwise_sortByPair (rs : List ExchangeRate) :
    (sortByPair rs).Pairwise fun a b => a.pair.index ≤ b.pair.index := by
  have sorted : (sortByPair rs).Pairwise fun a b => decide (a.pair.index ≤ b.pair.index) :=
    List.pairwise_mergeSort
    (fun a b c ab bc => by
      simp only [decide_eq_true_eq] at ab bc ⊢
      exact Nat.le_trans ab bc)
    (fun a b => by
      simp only [Bool.or_eq_true, decide_eq_true_eq]
      exact Nat.le_total ..) rs
  exact sorted.imp of_decide_eq_true

end ExchangeRate

/-! ### What a refresh collects -/

namespace RateSnapshot

/-- **A refresh keeps the last usable entry of each pair.** -/
theorem get?_collect : (collect t).get? p = t.lookup p := by
  -- the table is read from the front, and what counts is at its end
  induction t using List.reverseRecOn with
  | nil => rfl
  | append_singleton t r ih =>
    have last : collect (t ++ [r]) =
        if r.isUsable then (collect t).insert r.pair r.rate else collect t := by
      simp [collect]
    rw [last, RateTable.lookup_append_singleton]
    cases r.isUsable with
    | false => simpa using ih
    | true => simp [ih]

/-- **What a snapshot shows:** the rates that it holds, in the order of pairs. -/
structure Shows (s : RateSnapshot) (rs : List ExchangeRate) : Prop where
  mem_iff : ∀ r, r ∈ rs ↔ s.rates.get? r.pair = some r.rate
  ordered : rs.Pairwise fun a b => a.pair.index < b.pair.index

/-- The rates that are held, sorted, are what is shown. -/
theorem shows_sort (s : RateSnapshot) :
    s.Shows (ExchangeRate.sortByPair (s.rates.entries.map fun e => ⟨e.1, e.2⟩)) := by
  have perm := ExchangeRate.sortByPair_perm (s.rates.entries.map fun e => ⟨e.1, e.2⟩)
  refine ⟨fun r => ?_, ?_⟩
  · rw [perm.mem_iff, ← Table.mem_entries_iff, List.mem_map]
    exact ⟨fun ⟨e, he, eq⟩ => eq ▸ he, fun he => ⟨(r.pair, r.rate), he, rfl⟩⟩
  · -- a map holds no pair twice, so the order is strict
    have distinct : (ExchangeRate.sortByPair (s.rates.entries.map fun e => ⟨e.1, e.2⟩)).Pairwise
        fun a b => a.pair ≠ b.pair := by
      rw [← List.pairwise_map, ← List.Nodup, (perm.map _).nodup_iff, List.map_map]
      exact s.rates.nodup
    refine ((ExchangeRate.pairwise_sortByPair _).and distinct).imp ?_
    rintro a b ⟨le, ne⟩
    exact Nat.lt_of_le_of_ne le fun same => ne (CurrencyPair.index_injective same)

/-- The snapshot of a table shows the view of it. -/
theorem Shows.isView {time : Nat} {rs : List ExchangeRate} (h : (take time t).Shows rs) :
    t.IsView rs where
  mem_iff r := by
    rw [h.mem_iff, ← RateTable.lookup_eq_some_iff, ← get?_collect]
    rfl
  ordered := h.ordered

/-- **What was collected, sorted, is the view of the table.** -/
theorem sort_collect :
    ExchangeRate.sortByPair ((collect t).entries.map fun e => ⟨e.1, e.2⟩) = t.view :=
  (shows_sort (take 0 t)).isView.eq_view

end RateSnapshot

/-! ### What is served after a refresh -/

namespace RateCache

variable {c : RateCache} {time now : Nat}

/-- Nothing is served before the first refresh. -/
theorem get_of_not_refreshed (h : c.snapshot = .none) : c.get now p = none := by
  rw [get, isFresh, h]
  rfl

theorem getAll_of_not_refreshed (h : c.snapshot = .none) : c.getAll now = none := by
  rw [getAll, h]
  rfl

theorem isFresh_refresh : (c.refresh time t).isFresh now ↔ now ≤ time + c.ttl := by
  unfold isFresh refresh RateSnapshot.isFresh RateSnapshot.take
  simp only [decide_eq_true_eq]
  omega

/-- **A pair is served at the rate that the table quotes,** up to the end of its time. -/
theorem get_refresh :
    (c.refresh time t).get now p = if now ≤ time + c.ttl then t.quote p else none := by
  unfold get
  simp only [isFresh_refresh]
  unfold RateTable.quote
  rw [← RateSnapshot.get?_collect, ← RateSnapshot.get?_collect]
  rfl

/-- A cache that holds a table serves what it quotes, as long as it may serve. -/
theorem get_of_take (holds : c.snapshot = .take time t) :
    c.get now p = if c.isFresh now then t.quote p else none := by
  have same : c = c.refresh time t := by
    rw [refresh, ← holds]
  rw [same, get_refresh]
  simp only [isFresh_refresh]

/-- What is listed under a table is its view, as long as the cache may serve. A view without entries
is not listed, but nothing is listed instead. -/
theorem getAll_of_take (holds : c.snapshot = .take time t) :
    c.getAll now = if c.isFresh now ∧ t.view ≠ [] then some t.view else none := by
  have sorted := RateSnapshot.sort_collect (t := t)
  have entries : (RateSnapshot.collect t).entries = [] ↔ t.view = [] := by
    rw [← sorted]
    constructor
    · intro empty
      rw [empty, List.map_nil, ExchangeRate.sortByPair, List.mergeSort_nil]
    · intro empty
      have perm := ExchangeRate.sortByPair_perm
        ((RateSnapshot.collect t).entries.map fun e => ⟨e.1, e.2⟩)
      rw [empty] at perm
      exact List.map_eq_nil_iff.1 perm.nil_eq.symm
  have rates : c.snapshot.rates = RateSnapshot.collect t := by
    rw [holds]
    rfl
  unfold getAll
  rw [rates, sorted]
  by_cases fresh : c.isFresh now
  · by_cases empty : t.view = []
    · simp [entries.2 empty, empty]
    · have some_ : (RateSnapshot.collect t).entries ≠ [] := fun none_ => empty (entries.1 none_)
      simp [some_, empty, fresh]
  · simp [fresh]

/-- **What is listed of a table is its view,** if the cache may serve. -/
theorem getD_getAll_of_take (holds : c.snapshot = .take time t) (fresh : c.isFresh now) :
    (c.getAll now).getD [] = t.view := by
  rw [getAll_of_take holds]
  by_cases empty : t.view = []
  · simp [empty]
  · simp [empty, fresh]

/-- **A listing is the view of the table,** up to the end of its time. -/
theorem getAll_refresh (usable : ∃ r ∈ t, r.isUsable) :
    (c.refresh time t).getAll now = if now ≤ time + c.ttl then some t.view else none := by
  have something : t.view ≠ [] := RateTable.view_ne_nil usable
  rw [getAll_of_take (show (c.refresh time t).snapshot = .take time t from rfl)]
  simp only [isFresh_refresh, something, ne_eq, not_false_eq_true, and_true]

/-- The cache may serve, and holds something to list. -/
def CanList (c : RateCache) (now : Nat) : Prop :=
  c.isFresh now ∧ c.snapshot.rates.entries ≠ []

/-- It lists what its snapshot shows. -/
theorem CanList.exists_getAll (h : c.CanList now) :
    ∃ rs, c.getAll now = some rs ∧ c.snapshot.Shows rs := by
  obtain ⟨fresh, something⟩ := h
  refine ⟨_, ?_, c.snapshot.shows_sort⟩
  unfold getAll
  simp [fresh, something]

/-- A cache that is stale or empty lists nothing. -/
theorem getAll_of_not_canList (h : ¬ c.CanList now) : c.getAll now = none := by
  unfold CanList at h
  unfold getAll
  by_cases fresh : c.isFresh now
  · have nothing : c.snapshot.rates.entries = [] := by
      by_contra something
      exact h ⟨fresh, something⟩
    simp [nothing]
  · simp [fresh]

/-- A cache that may not serve lists nothing. -/
theorem getAll_of_not_fresh (stale : ¬ c.isFresh now) : c.getAll now = none := by
  unfold getAll
  simp [stale]

/-- A cache that lists anything may serve. -/
theorem isFresh_of_getAll {rs : List ExchangeRate} (lists : c.getAll now = some rs) :
    c.isFresh now := by
  by_contra stale
  rw [getAll_of_not_fresh stale] at lists
  cases lists

end RateCache

end Purse
