import Purse.Database.Service
import Purse.Proofs.Database.Transactions
import Purse.Proofs.Rate.Listing
import Purse.Proofs.Service.SteadyListing

/-!
# What a table of rates shows

A table of rates in a database holds rows of texts, and three things are made of it: the rate of one
pair, which the database looks for by the texts of its symbols, all rates, which it sends in the order
of the texts and from which rows of unknown currencies are left out here, and the listing of a service
that takes its rates from there, which leaves out what is not usable and goes by the order of
currencies.

A symbol names one currency and every currency has one symbol (`RateRow.toRate?_eq_some_iff`), so rows
with different texts are entries of different pairs. If no two rows have the same texts, then no pair
occurs twice in what is sent (`Database.nodup_map_pair_sent`), and all three show the same rows
(`Database.exists_showsRates`).
-/

namespace Purse

variable {db : Database} {p : CurrencyPair} {r : ExchangeRate} {row : RateRow} {x : Float}
  {rows : List RateRow} {table : RateTable} {now : Nat}

/-! ### Rows and entries -/

/-- The row of an entry. -/
def ExchangeRate.toRow (r : ExchangeRate) : RateRow :=
  ⟨r.pair.sold.symbol, r.pair.bought.symbol, r.rate⟩

namespace RateRow

/-- The texts by which a row is found. -/
def key (row : RateRow) : String × String := (row.sold, row.bought)

/-- **The rows of supported currencies are the rows of entries.** -/
theorem toRate?_eq_some_iff : row.toRate? = some r ↔ row = r.toRow := by
  obtain ⟨sold, bought, rate⟩ := row
  obtain ⟨⟨c, d⟩, x⟩ := r
  constructor
  · intro parsed
    obtain ⟨c', hc, rest⟩ := Option.bind_eq_some_iff.1 parsed
    obtain ⟨d', hd, last⟩ := Option.bind_eq_some_iff.1 rest
    cases last
    rw [ExchangeRate.toRow, Currency.symbol_of_ofSymbol? hc, Currency.symbol_of_ofSymbol? hd]
  · intro same
    cases same
    simp [toRate?]

theorem mem_filterMap_toRate?_iff : r ∈ rows.filterMap toRate? ↔ r.toRow ∈ rows := by
  rw [List.mem_filterMap]
  constructor
  · rintro ⟨row, hm, parsed⟩
    exact toRate?_eq_some_iff.1 parsed ▸ hm
  · intro hm
    exact ⟨r.toRow, hm, toRate?_eq_some_iff.2 rfl⟩

/-- Rows with different texts are entries of different pairs. -/
theorem nodup_map_pair_filterMap (distinct : (rows.map key).Nodup) :
    ((rows.filterMap toRate?).map ExchangeRate.pair).Nodup := by
  refine List.pairwise_map.2 ((List.pairwise_map.1 distinct).filterMap _ ?_)
  intro row row' ne a ha b hb same
  rw [toRate?_eq_some_iff.1 ha, toRate?_eq_some_iff.1 hb] at ne
  refine ne ?_
  rw [key, key, ExchangeRate.toRow, ExchangeRate.toRow, same]

/-- **The row that is found by its texts** is the only one with them. -/
theorem find?_eq_some_iff (distinct : (rows.map key).Nodup) :
    (rows.find? fun (row : RateRow) => row.sold = p.sold.symbol && row.bought = p.bought.symbol).map
      rate = some x ↔ (ExchangeRate.mk p x).toRow ∈ rows := by
  rw [Option.map_eq_some_iff]
  constructor
  · rintro ⟨⟨sold, bought, rate⟩, found, rfl⟩
    have same := List.find?_some found
    simp only [Bool.and_eq_true, decide_eq_true_eq] at same
    obtain ⟨rfl, rfl⟩ := same
    exact List.mem_of_find?_eq_some found
  · intro hm
    cases found : rows.find? fun (row : RateRow) =>
        row.sold = p.sold.symbol && row.bought = p.bought.symbol with
    | none =>
      have differs := List.find?_eq_none.1 found _ hm
      simp [ExchangeRate.toRow] at differs
    | some row =>
      have same := List.find?_some found
      simp only [Bool.and_eq_true, decide_eq_true_eq] at same
      have key_eq : row.key = (ExchangeRate.mk p x).toRow.key := Prod.ext same.1 same.2
      refine ⟨row, rfl, ?_⟩
      rw [List.inj_on_of_nodup_map distinct (List.mem_of_find?_eq_some found) hm key_eq]
      rfl

/-! The order of rows is that of the texts of what is sold, and then of what is bought. -/

theorem le_iff {a b : RateRow} :
    a.le b ↔ a.sold < b.sold ∨ a.sold = b.sold ∧ a.bought ≤ b.bought := by
  unfold le
  rw [Bool.or_eq_true, decide_eq_true_iff, Bool.and_eq_true, decide_eq_true_iff, Bool.not_eq_true',
    decide_eq_false_iff_not, String.not_lt]

theorem le_trans {a b c : RateRow} (ab : a.le b) (bc : b.le c) : a.le c := by
  rw [le_iff] at ab bc ⊢
  rcases ab with lt | ⟨same, le⟩
  · rcases bc with lt' | ⟨same', -⟩
    · exact .inl (String.lt_trans lt lt')
    · exact .inl (same' ▸ lt)
  · rcases bc with lt' | ⟨same', le'⟩
    · exact .inl (same ▸ lt')
    · exact .inr ⟨same.trans same', String.le_trans le le'⟩

theorem le_total (a b : RateRow) : a.le b ∨ b.le a := by
  simp only [le_iff]
  by_cases lt : a.sold < b.sold
  · exact .inl (.inl lt)
  by_cases gt : b.sold < a.sold
  · exact .inr (.inl gt)
  have same : a.sold = b.sold := String.le_antisymm (String.not_lt.1 gt) (String.not_lt.1 lt)
  rcases String.le_total a.bought b.bought with le | ge
  · exact .inl (.inr ⟨same, le⟩)
  · exact .inr (.inr ⟨same.symm, ge⟩)

theorem pairwise_mergeSort (rows : List RateRow) :
    (rows.mergeSort le).Pairwise fun a b => a.le b :=
  have trans (a b c : RateRow) (ab : le a b) (bc : le b c) : le a c := le_trans ab bc
  have total (a b : RateRow) : (le a b || le b a) = true := Bool.or_eq_true .. ▸ le_total a b
  List.pairwise_mergeSort trans total rows

end RateRow

/-! ### The two statements -/

namespace Database

/-- **The rates can be read:** the table is there, and neither of the two statements that read it
fails. -/
structure ReadsRates (db : Database) : Prop where
  ready : db.migrated
  one : db.faults.get? .selectRate = none
  all : db.faults.get? .selectRates = none

/-- What is sent when all rates are asked for, without the rows that are left out. -/
def sentRates (db : Database) : RateTable :=
  (db.visible.rates.mergeSort RateRow.le).filterMap RateRow.toRate?

theorem ReadsRates.getRate_eq (h : db.ReadsRates) (p : CurrencyPair) :
    (db.getRate p).2 = .ok ((db.visible.rates.find? fun (row : RateRow) =>
      row.sold = p.sold.symbol && row.bought = p.bought.symbol).map RateRow.rate) := by
  unfold getRate selectRate
  rw [send_of_works h.one, needing, if_pos (show (db.noted .selectRate).migrated from h.ready)]
  rfl

theorem ReadsRates.getAllRates_eq (h : db.ReadsRates) : db.getAllRates.2.1 = .ok db.sentRates := by
  unfold getAllRates selectRates
  rw [send_of_works h.all, needing, if_pos (show (db.noted .selectRates).migrated from h.ready)]
  rfl

/-- Every entry that is sent has a row, and every row of supported currencies is sent. -/
theorem mem_sentRates_iff : r ∈ db.sentRates ↔ r.toRow ∈ db.visible.rates := by
  rw [sentRates, RateRow.mem_filterMap_toRate?_iff, (List.mergeSort_perm ..).mem_iff]

theorem nodup_map_pair_sent (distinct : (db.visible.rates.map RateRow.key).Nodup) :
    (db.sentRates.map ExchangeRate.pair).Nodup :=
  RateRow.nodup_map_pair_filterMap (((List.mergeSort_perm ..).map RateRow.key).nodup_iff.2 distinct)

theorem pairwise_sentRates (db : Database) :
    db.sentRates.Pairwise fun a b => a.toRow.le b.toRow := by
  refine (RateRow.pairwise_mergeSort _).filterMap _ fun row row' le a ha b hb => ?_
  rw [RateRow.toRate?_eq_some_iff.1 ha, RateRow.toRate?_eq_some_iff.1 hb] at le
  exact le

end Database

/-! ### A caller who has the service to himself -/

namespace DatabaseService

variable {s u : DatabaseService}

/-- Something done after something that worked. -/
theorem run_bind_of_ok {α β : Type} {first : Action α} {then_ : α → Action β} {a : α}
    (works : (first.run s).run = (.ok a, u)) :
    ((first >>= then_).run s).run = ((then_ a).run u).run := by
  have opened : ((first >>= then_).run s).run =
      ((ExceptT.bindCont then_ (first.run s).run.1 : StateM _ _).run (first.run s).run.2).run := rfl
  rw [opened, works]
  rfl

/-- A look into the cache that finds nothing is made again, after a refresh with what the source
gives. -/
theorem run_consult {α : Type} {found? : RateCache → Option α}
    (fetches : (fetch.run s).run = (.ok table, u)) (misses : found? s.cache = none) :
    ((consult now found?).run s).run =
      (.ok (found? (u.cache.refresh now table)), { u with cache := u.cache.refresh now table }) := by
  have looks : ((get : Action DatabaseService).run s).run = (.ok s, s) := rfl
  unfold consult
  rw [run_bind_of_ok looks, misses]
  exact run_bind_of_ok fetches

/-- **A listing that finds nothing in the cache** is the view of what the source gives. -/
theorem run_serve_listing (fetches : (fetch.run s).run = (.ok table, u))
    (misses : s.cache.getAll now = none) (time : Timestamp) (drawn : Uuid) :
    ((serve now time drawn .listing).run s).run =
      (.ok (.rates table.view), { u with cache := u.cache.refresh now table }) := by
  have fresh : (u.cache.refresh now table).isFresh now :=
    RateCache.isFresh_refresh.2 (Nat.le_add_right ..)
  have opened : serve now time drawn .listing = consult now (fun cache => cache.getAll now) >>=
      fun found => pure (.rates (found.getD [])) := rfl
  rw [opened, run_bind_of_ok (run_consult fetches misses), RateCache.getD_getAll_of_take rfl fresh]
  rfl

/-- A fixed table is given as it is. -/
theorem run_fetch_of_fixed {source : FixedRates} (fixed : s.fixed = some source) :
    (fetch.run s).run = (.ok source.getAll, s) := by
  obtain ⟨db, cache, _⟩ := s
  obtain rfl := fixed
  rfl

/-- A service without one asks its database. -/
theorem run_fetch_of_database (own : s.fixed = none)
    (answers : s.database.getAllRates.2.1 = .ok table) :
    (fetch.run s).run = (.ok table, { s with database := s.database.getAllRates.1 }) := by
  obtain ⟨db, cache, _⟩ := s
  obtain rfl := own
  have opened : ((fetch.run ⟨db, cache, none⟩).run : Except WalletError RateTable × DatabaseService) =
      (db.getAllRates.2.1, ⟨db.getAllRates.1, cache, none⟩) := rfl
  rw [opened, answers]

end DatabaseService

/-! ### All three views -/

/-- **The usable entries of a table** in the order of pairs. -/
structure RateTable.IsUsablePart (t : RateTable) (rs : List ExchangeRate) : Prop where
  mem_iff : ∀ r, r ∈ rs ↔ r ∈ t ∧ r.isUsable
  ordered : rs.Pairwise fun a b => a.pair.index < b.pair.index

theorem RateTable.isUsablePart_view (distinct : (table.map ExchangeRate.pair).Nodup) :
    table.IsUsablePart table.view where
  mem_iff _ := (isView_view.mem_iff _).trans (isLast_iff_of_nodup distinct)
  ordered := pairwise_view

namespace Database

/-- **The table is what the database shows of its rates:** asked for all of them, asked for one pair,
and listed by a service. -/
structure ShowsRates (db : Database) (table : RateTable) : Prop where
  /-- It is the answer if all rates are asked for. -/
  answered : db.getAllRates.2.1 = .ok table
  /-- It has the rows whose symbols are both those of supported currencies, and no others. -/
  mem_iff : ∀ r, r ∈ table ↔ r.toRow ∈ db.visible.rates
  /-- It has each of them once. -/
  once : (table.map ExchangeRate.pair).Nodup
  /-- They come in the order of the texts. -/
  ordered : table.Pairwise fun a b => a.toRow.le b.toRow
  /-- A pair asked for alone has the rate of its entry. -/
  single : ∀ p x, (db.getRate p).2 = .ok (some x) ↔ ⟨p, x⟩ ∈ table
  /-- It has none exactly if it has no entry. -/
  missing : ∀ p, (db.getRate p).2 = .ok none ↔ ∀ r ∈ table, r.pair ≠ p
  /-- Whoever has a service over the database to himself, and finds its cache stale or empty, gets the
  usable entries of the table in the order of pairs. -/
  listed : ∀ (s : DatabaseService) (now : Nat), s.database = db → s.fixed = none →
    ¬ s.cache.CanList now → ∃ rs, table.IsUsablePart rs ∧ ∀ time drawn,
      ((DatabaseService.serve now time drawn .listing).run s).run.1 = .ok (.rates rs)
  /-- So does whoever meets nobody else at a service whose source answers with the table. -/
  shared : ∀ s : Service.State, s.source.answer = .ok table → s.source.delay = 0 →
    s.refreshLock = .open_ → ¬ s.cache.CanList s.clock → ∃ rs, table.IsUsablePart rs ∧
      s.Lists (.ok (.rates rs)) 1 (s.cache.refresh s.clock table)

/-- **Every database whose rates can be read shows one table of them,** whatever the texts and the
rates are, if no two rows have the same texts. -/
theorem exists_showsRates (readable : db.ReadsRates)
    (distinct : (db.visible.rates.map RateRow.key).Nodup) : ∃ table, db.ShowsRates table := by
  have once := nodup_map_pair_sent distinct
  have usable := RateTable.isUsablePart_view once
  have single (p : CurrencyPair) (x : Float) :
      (db.getRate p).2 = .ok (some x) ↔ ⟨p, x⟩ ∈ db.sentRates := by
    rw [readable.getRate_eq, Except.ok.injEq, RateRow.find?_eq_some_iff distinct, mem_sentRates_iff]
  refine ⟨db.sentRates, readable.getAllRates_eq, fun _ => mem_sentRates_iff, once,
    db.pairwise_sentRates, single, fun p => ?_, ?_, ?_⟩
  · -- no entry is an entry with none of the rates
    have found (x : Float) := single p x
    simp only [readable.getRate_eq, Except.ok.injEq] at found ⊢
    rw [Option.eq_none_iff_forall_ne_some]
    constructor
    · rintro nothing r hr rfl
      exact nothing r.rate ((found r.rate).2 hr)
    · intro other x here
      exact other ⟨p, x⟩ ((found x).1 here) rfl
  · rintro s now rfl own cannot
    refine ⟨_, usable, fun time drawn => ?_⟩
    have fetches := DatabaseService.run_fetch_of_database own readable.getAllRates_eq
    have misses := RateCache.getAll_of_not_canList cannot
    exact congrArg Prod.fst (DatabaseService.run_serve_listing fetches misses time drawn)
  · intro s replies instant open_ cannot
    have misses := RateCache.getAll_of_not_canList cannot
    exact ⟨db.sentRates.view, usable, Service.State.lists_of_fetch misses open_ instant replies⟩

/-- A table with a rate that is not a number, a row of a currency which is not supported, the dollar
in dollars, and the rouble before the dollar. -/
def sundry : Database :=
  .create true [] [⟨"RUB", "USD", 0.01⟩, ⟨"EUR", "USD", 0.0 / 0.0⟩, ⟨"USD", "RUB", 90.0⟩,
    ⟨"USD", "GBP", 0.8⟩, ⟨"USD", "USD", 1.0⟩]

/-- It shows four rows, of which two are usable. -/
theorem exists_showsRates_sundry :
    sundry.ReadsRates ∧ (sundry.visible.rates.map RateRow.key).Nodup ∧
      ∃ table, sundry.ShowsRates table ∧ ⟨⟨.eur, .usd⟩, 0.0 / 0.0⟩ ∈ table ∧
        ⟨⟨.usd, .usd⟩, 1.0⟩ ∈ table ∧
        table.IsUsablePart [⟨⟨.usd, .rub⟩, 90.0⟩, ⟨⟨.rub, .usd⟩, 0.01⟩] := by
  have readable : sundry.ReadsRates := ⟨rfl, rfl, rfl⟩
  have distinct : (sundry.visible.rates.map RateRow.key).Nodup := by decide
  obtain ⟨table, shows⟩ := exists_showsRates readable distinct
  have ruble := (shows.mem_iff ⟨⟨.rub, .usd⟩, 0.01⟩).2 (.head _)
  have euro := (shows.mem_iff ⟨⟨.eur, .usd⟩, 0.0 / 0.0⟩).2 (.tail _ (.head _))
  have dollar := (shows.mem_iff ⟨⟨.usd, .rub⟩, 90.0⟩).2 (.tail _ (.tail _ (.head _)))
  have idle := (shows.mem_iff ⟨⟨.usd, .usd⟩, 1.0⟩).2
    (.tail _ (.tail _ (.tail _ (.tail _ (.head _)))))
  refine ⟨readable, distinct, table, shows, euro, idle, fun r => ⟨fun hm => ?_, ?_⟩, by decide⟩
  · rcases List.mem_cons.1 hm with rfl | hm
    · exact ⟨dollar, rfl⟩
    · rw [List.mem_singleton.1 hm]
      exact ⟨ruble, rfl⟩
  · rintro ⟨hm, usable⟩
    have rows := (shows.mem_iff r).1 hm
    -- what is not listed is either no entry or not usable
    have entry {row : RateRow} (same : r.toRow = row) : row.toRate? = some r :=
      RateRow.toRate?_eq_some_iff.2 same.symm
    simp only [sundry, create, visible, Option.getD_none, List.mem_cons, List.not_mem_nil,
      or_false] at rows
    rcases rows with same | same | same | same | same <;> cases entry same
    · exact .tail _ (.head _)
    · cases usable
    · exact .head _
    · cases usable

end Database

end Purse
