import Purse.Proofs.Rate.Cache
import Purse.Proofs.Settings
import Purse.Rate.Source

/-!
# A fixed table asked for one pair

A fixed table answers two questions: what is the rate of a pair, and what are all rates. For the first
it is searched from the front (`FixedRates.get_eq_some_iff`). All rates go into a cache, where a later
entry of a pair replaces an earlier one, so what is listed of a pair is its last entry
(`RateCache.lists_refresh_iff`). The check of settings does not ask whether a pair occurs twice.

So the two answers know the same pairs, and they give the same rate for a pair exactly if its first and
its last entry do (`Settings.Accepted.fixedAnswers`). They differ for a pair that was quoted twice
(`Settings.not_forall_get_iff_lists`).
-/

namespace Purse

variable {t : RateTable} {p : CurrencyPair} {r : ExchangeRate} {x y : Float} {s : FixedRates}
  {time now : Nat}

/-! ### The first entry and the last -/

namespace RateTable

/-- The first entry of its pair. -/
def Opens (t : RateTable) (r : ExchangeRate) : Prop :=
  ∃ before after, t = before ++ r :: after ∧ ∀ e ∈ before, e.pair ≠ r.pair

/-- The last entry of its pair. -/
def Closes (t : RateTable) (r : ExchangeRate) : Prop :=
  ∃ before after, t = before ++ r :: after ∧ ∀ e ∈ after, e.pair ≠ r.pair

theorem Opens.mem (h : t.Opens r) : r ∈ t := by
  obtain ⟨before, after, rfl, -⟩ := h
  simp

theorem Closes.mem (h : t.Closes r) : r ∈ t := by
  obtain ⟨before, after, rfl, -⟩ := h
  simp

/-- If all entries are usable, the last usable one of a pair is its last. -/
theorem isLast_iff_closes (usable : ∀ r ∈ t, r.isUsable) : t.IsLast r ↔ t.Closes r := by
  constructor
  · rintro ⟨before, after, rfl, -, others⟩
    exact ⟨before, after, rfl, fun e he => others e he (usable e (by simp [he]))⟩
  · rintro ⟨before, after, rfl, others⟩
    exact ⟨before, after, rfl, usable r (by simp), fun e he _ => others e he⟩

/-- A pair that occurs has a last entry. -/
theorem exists_closes (usable : ∀ r ∈ t, r.isUsable) (hm : r ∈ t) :
    ∃ x, t.Closes ⟨r.pair, x⟩ := by
  obtain ⟨x, found⟩ := Option.isSome_iff_exists.1 (isSome_lookup_iff.2 ⟨r, hm, usable r hm, rfl⟩)
  exact ⟨x, (isLast_iff_closes usable).1 (lookup_eq_some_iff.1 found)⟩

/-- **A pair that occurs at most once** has the same first and last entry. -/
theorem eq_of_opens_of_closes (once : t.countP (fun e => e.pair = p) ≤ 1) (first : t.Opens ⟨p, x⟩)
    (last : t.Closes ⟨p, y⟩) : x = y := by
  obtain ⟨before, after, rfl, -⟩ := first
  -- there is no other entry of the pair on either side of the first one
  have others : ∀ e ∈ before ++ after, e.pair ≠ p := by
    intro e he same
    have counted : 0 < (before ++ after).countP fun e => e.pair = p :=
      List.countP_pos_iff.2 ⟨e, he, decide_eq_true same⟩
    simp only [List.countP_append, List.countP_cons, decide_true, if_true] at once counted
    omega
  have hm := last.mem
  simp only [List.mem_append, List.mem_cons] at hm
  rcases hm with hb | same | ha
  · exact absurd rfl (others _ (List.mem_append_left _ hb))
  · cases same
    rfl
  · exact absurd rfl (others _ (List.mem_append_right _ ha))

end RateTable

/-! ### The two answers -/

namespace FixedRates

/-- **Asked for one pair,** a fixed table answers with its first entry. -/
theorem get_eq_some_iff : s.get p = some x ↔ s.table.Opens ⟨p, x⟩ := by
  unfold get
  rw [Option.map_eq_some_iff]
  constructor
  · rintro ⟨e, found, rfl⟩
    obtain ⟨here, before, after, parts, others⟩ := List.find?_eq_some_iff_append.1 found
    obtain rfl := of_decide_eq_true here
    exact ⟨before, after, parts, fun d hd => by simpa using others d hd⟩
  · rintro ⟨before, after, parts, others⟩
    refine ⟨⟨p, x⟩, List.find?_eq_some_iff_append.2 ?_, rfl⟩
    exact ⟨decide_eq_true rfl, before, after, parts, fun d hd => by simpa using others d hd⟩

theorem get_eq_none_iff : s.get p = none ↔ ∀ r ∈ s.table, r.pair ≠ p := by
  unfold get
  simp

end FixedRates

namespace RateCache

/-- The cache has the entry in its listing now. -/
def Lists (c : RateCache) (now : Nat) (r : ExchangeRate) : Prop :=
  ∃ rs, c.getAll now = some rs ∧ r ∈ rs

/-- **What is listed after a refresh** with a table whose entries are all usable is the last entry of
each pair. -/
theorem lists_refresh_iff {c : RateCache} (usable : ∀ r ∈ t, r.isUsable) (inTime : now ≤ time + c.ttl) :
    (c.refresh time t).Lists now r ↔ t.Closes r := by
  have fresh : (c.refresh time t).isFresh now := isFresh_refresh.2 inTime
  have listed : (c.refresh time t).Lists now r ↔ r ∈ t.view := by
    unfold Lists
    rw [getAll_of_take rfl]
    constructor
    · rintro ⟨rs, shown, hm⟩
      split at shown
      · obtain rfl := Option.some.inj shown
        exact hm
      · cases shown
    · intro hm
      exact ⟨t.view, if_pos ⟨fresh, List.ne_nil_of_mem hm⟩, hm⟩
  rw [listed, RateTable.isView_view.mem_iff, RateTable.isLast_iff_closes usable]

end RateCache

namespace Settings

variable {c : Settings} {cache : RateCache}

/-- **The answers of the fixed table of some settings for a pair,** asked for the pair alone and by way
of a cache that lists the whole table. -/
structure FixedAnswers (c : Settings) (cache : RateCache) (now : Nat) (p : CurrencyPair) : Prop where
  /-- Asked alone the pair has the rate of its first entry. -/
  alone : ∀ x, c.fixedRates.get p = some x ↔ c.rates.table.Opens ⟨p, x⟩
  /-- It is listed with the rate of its last entry. -/
  listed : ∀ x, cache.Lists now ⟨p, x⟩ ↔ c.rates.table.Closes ⟨p, x⟩
  /-- No answer is given exactly if the pair is not listed. -/
  unknown : c.fixedRates.get p = none ↔ ∀ x, ¬ cache.Lists now ⟨p, x⟩
  /-- The two rates are the same exactly if those of the first and the last entry are. -/
  agree : (∀ x, c.fixedRates.get p = some x ↔ cache.Lists now ⟨p, x⟩) ↔
    ∀ x y, c.rates.table.Opens ⟨p, x⟩ → c.rates.table.Closes ⟨p, y⟩ → x = y
  /-- They are the same if the pair occurs at most once. -/
  once : c.rates.table.countP (fun e => e.pair = p) ≤ 1 →
    ∀ x, c.fixedRates.get p = some x ↔ cache.Lists now ⟨p, x⟩

/-- **A fixed table knows the same pairs, asked for one pair or for all,** and gives the same rate for
those whose first and last entry do. -/
theorem Accepted.fixedAnswers (accepted : c.Accepted) {ttl : Nat} (inTime : now ≤ time + ttl)
    (p : CurrencyPair) :
    c.FixedAnswers ((RateCache.create ttl).refresh time c.fixedRates.getAll) now p := by
  have usable : ∀ r ∈ c.rates.table, r.isUsable := accepted.isChecked.usable
  generalize hcache : (RateCache.create ttl).refresh time c.fixedRates.getAll = cache
  have alone (x : Float) : c.fixedRates.get p = some x ↔ c.rates.table.Opens ⟨p, x⟩ :=
    FixedRates.get_eq_some_iff
  have listed (x : Float) : cache.Lists now ⟨p, x⟩ ↔ c.rates.table.Closes ⟨p, x⟩ :=
    hcache ▸ RateCache.lists_refresh_iff usable inTime
  have unknown : c.fixedRates.get p = none ↔ ∀ x, ¬ cache.Lists now ⟨p, x⟩ := by
    rw [FixedRates.get_eq_none_iff]
    constructor
    · intro absent x lists
      exact absent _ ((listed x).1 lists).mem rfl
    · rintro unlisted r hr rfl
      obtain ⟨x, closes⟩ := RateTable.exists_closes usable hr
      exact unlisted x ((listed x).2 closes)
  have agree : (∀ x, c.fixedRates.get p = some x ↔ cache.Lists now ⟨p, x⟩) ↔
      ∀ x y, c.rates.table.Opens ⟨p, x⟩ → c.rates.table.Closes ⟨p, y⟩ → x = y := by
    constructor
    · intro same x y first last
      have answered : c.fixedRates.get p = some y := (same y).2 ((listed y).2 last)
      exact Option.some.inj (((alone x).2 first).symm.trans answered)
    · intro same x
      constructor
      · -- a pair that is answered is listed, at the rate of its last entry
        intro answered
        have first := (alone x).1 answered
        obtain ⟨y, last⟩ := RateTable.exists_closes usable first.mem
        exact (listed x).2 (same x y first last ▸ last)
      · intro lists
        have last := (listed x).1 lists
        cases answered : c.fixedRates.get p with
        | none => exact absurd lists (unknown.1 answered x)
        | some y => rw [same y x ((alone y).1 answered) last]
  exact ⟨alone, listed, unknown, agree, fun once =>
    agree.2 fun x y => RateTable.eq_of_opens_of_closes once⟩

/-- Settings whose table gives USD in RUB twice, with EUR in RUB between. -/
def requoted : Settings :=
  { rates := {
      source := .fixed
      table := [⟨⟨.usd, .rub⟩, 90.0⟩, ⟨⟨.eur, .rub⟩, 98.0⟩, ⟨⟨.usd, .rub⟩, 91.5⟩] } }

theorem requoted_checked : requoted.fault? = none := by decide

/-- Asked for USD in RUB alone, the table answers with the first rate. -/
theorem fixedAnswers_requoted :
    requoted.fault? = none ∧ 60000 ≤ 0 + 60000 ∧
      requoted.FixedAnswers ((RateCache.create 60000).refresh 0 requoted.fixedRates.getAll) 60000
        ⟨.usd, .rub⟩ ∧
      requoted.fixedRates.get ⟨.usd, .rub⟩ = some 90.0 := by
  have answers := (Accepted.checked requoted_checked).fixedAnswers
    (show 60000 ≤ 0 + 60000 from Nat.le_refl _) ⟨.usd, .rub⟩
  exact ⟨requoted_checked, Nat.le_refl _, answers, (answers.alone 90.0).2 ⟨[], _, rfl, nofun⟩⟩

/-- **The two answers are not the same for all settings:** asked alone, USD in RUB has the first rate,
and it is listed with the second. -/
theorem not_forall_get_iff_lists : ¬ ∀ c : Settings, c.Accepted → ∀ p : CurrencyPair,
    p.sold ≠ p.bought → ∀ (ttl time : Nat) (x : Float), c.fixedRates.get p = some x ↔
      ((RateCache.create ttl).refresh time c.fixedRates.getAll).Lists time ⟨p, x⟩ := by
  intro same
  have first : requoted.fixedRates.get ⟨.usd, .rub⟩ = some 90.0 := rfl
  have last : ((RateCache.create 60000).refresh 0 requoted.fixedRates.getAll).Lists 0
      ⟨⟨.usd, .rub⟩, 91.5⟩ := by
    have usable := (Accepted.checked requoted_checked).isChecked.usable
    exact (RateCache.lists_refresh_iff usable (Nat.zero_le _)).2
      ⟨[⟨⟨.usd, .rub⟩, 90.0⟩, ⟨⟨.eur, .rub⟩, 98.0⟩], [], rfl, nofun⟩
  have accepted : requoted.Accepted := .checked requoted_checked
  have answered := (same requoted accepted ⟨.usd, .rub⟩ (by decide) 60000 0 91.5).2 last
  rw [first] at answered
  have differ : (90.0 : Float) ≠ 91.5 := by decide
  exact differ (Option.some.inj answered)

end Settings

end Purse
