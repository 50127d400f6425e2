import Purse.Proofs.Rate.Cache
import Purse.Rate.Handle

/-!
# What a cache serves after a history

A cache is refreshed again and again, through any of its handles, and time passes in between. What it
serves is a function of two things only: the table of the last refresh, and the time that has passed
since (`LastRefreshed`). Everything that came before is gone, and other caches do not matter.

The two step lemmas are `Caches.seen_refresh`, which says that a refresh is seen through every handle
of the cache, and `Caches.seen_step`, which says that nothing else changes what is seen. Along a
history that leads from a refresh to now, the snapshot stands as it was taken
(`Caches.seen_after_quiet`) and only the clock goes on (`Caches.clock_after`).
-/

namespace Purse

variable {h g : CacheHandle} {a : CacheAction} {history later : List CacheAction} {t : RateTable}
  {p : CurrencyPair} {x : Float} {age clock : Nat} {s : Caches}

/-! ### Histories -/

/-- A handle that was made from another by cloning, any number of times. -/
inductive CacheHandle.Clones (h : CacheHandle) : CacheHandle → Prop
  | self : Clones h h
  | clone {g : CacheHandle} : Clones h g → Clones h g.clone

theorem CacheHandle.Clones.eq (same : h.Clones g) : g = h := by
  induction same with
  | self => rfl
  | clone _ ih =>
    rw [ih]
    rfl

namespace CacheAction

/-- Whether the cache of the handle is refreshed, through whatever handle. -/
def refreshes (h : CacheHandle) : CacheAction → Bool
  | refresh g _ => g.place = h.place
  | advance _ => false

/-- How much time passes. -/
def elapsed : CacheAction → Nat
  | refresh .. => 0
  | advance ms => ms

end CacheAction

/-- How much time passes in a history. -/
def elapsed : List CacheAction → Nat
  | [] => 0
  | a :: history => a.elapsed + elapsed history

theorem elapsed_append (before later : List CacheAction) :
    elapsed (before ++ later) = elapsed before + elapsed later := by
  induction before with
  | nil => exact (Nat.zero_add _).symm
  | cons a before ih => rw [List.cons_append, elapsed, elapsed, ih, Nat.add_assoc]

/-- The cache of the handle is not refreshed. -/
def Quiet (h : CacheHandle) (history : List CacheAction) : Prop := ∀ a ∈ history, ¬ a.refreshes h

theorem Quiet.append (before : Quiet h history) (after : Quiet h later) :
    Quiet h (history ++ later) := by
  intro a ha
  rcases List.mem_append.1 ha with ha | ha
  · exact before a ha
  · exact after a ha

/-- **The last refresh of the cache** of the handle was with the table, and so much time has passed
since. -/
def LastRefreshed (h : CacheHandle) (history : List CacheAction) (t : RateTable) (age : Nat) : Prop :=
  ∃ before g later, history = before ++ .refresh g t :: later ∧ g.place = h.place ∧ Quiet h later ∧
    age = elapsed later

/-- Either the cache was never refreshed, or there was a last time. -/
theorem quiet_or_lastRefreshed (h : CacheHandle) (history : List CacheAction) :
    Quiet h history ∨ ∃ t age, LastRefreshed h history t age := by
  -- the last refresh is looked for from the end
  induction history using List.reverseRecOn with
  | nil => exact .inl fun a ha => nomatch ha
  | append_singleton history a ih =>
    by_cases now : a.refreshes h
    · cases a with
      | refresh g t =>
        exact .inr ⟨t, 0, history, g, [], rfl, of_decide_eq_true now, nofun, rfl⟩
      | advance ms => cases now
    · have quiet : Quiet h [a] := by
        intro b hb
        obtain rfl := List.mem_singleton.1 hb
        exact now
      rcases ih with never | ⟨t, age, before, g, later, rfl, same, quiet', -⟩
      · exact .inl (never.append quiet)
      · exact .inr ⟨t, _, before, g, later ++ [a], by simp, same, quiet'.append quiet, rfl⟩

/-! ### What one action changes -/

namespace Caches

@[simp] theorem after_cons (s : Caches) (a : CacheAction) (history : List CacheAction) :
    s.after (a :: history) = (s.step a).after history := rfl

theorem after_append (s : Caches) (before later : List CacheAction) :
    s.after (before ++ later) = (s.after before).after later := List.foldl_append

theorem seen_start : ((start clock).seen h).snapshot = .none := rfl

/-- **A refresh is seen through every handle of the cache.** -/
theorem seen_refresh (same : g.place = h.place) :
    (s.refresh g t).seen h = (s.seen h).refresh s.clock t := by
  unfold refresh seen
  rw [same, Table.get?_insert_self]
  rfl

/-- **Nothing else is seen:** neither that time passes nor a refresh of another cache. -/
theorem seen_step (quiet : ¬ a.refreshes h) : (s.step a).seen h = s.seen h := by
  cases a with
  | refresh g t =>
    have other : g.place ≠ h.place := fun same => quiet (decide_eq_true same)
    unfold step refresh seen
    rw [Table.get?_insert_of_ne _ other]
  | advance ms => rfl

theorem clock_step (s : Caches) (a : CacheAction) : (s.step a).clock = s.clock + a.elapsed := by
  cases a with
  | refresh g t => rfl
  | advance ms => rfl

/-! ### What a whole history changes -/

theorem clock_after (s : Caches) (history : List CacheAction) :
    (s.after history).clock = s.clock + elapsed history := by
  induction history generalizing s with
  | nil => rfl
  | cons a history ih =>
    calc (s.after (a :: history)).clock
        = (s.step a).clock + elapsed history := ih (s.step a)
      _ = s.clock + a.elapsed + elapsed history := by rw [clock_step]
      _ = s.clock + elapsed (a :: history) := Nat.add_assoc ..

theorem seen_after_quiet (quiet : Quiet h history) : (s.after history).seen h = s.seen h := by
  induction history generalizing s with
  | nil => rfl
  | cons a history ih =>
    have first : ¬ a.refreshes h := quiet a List.mem_cons_self
    have rest : Quiet h history := fun b hb => quiet b (List.mem_cons_of_mem a hb)
    calc ((s.step a).after history).seen h
        = (s.step a).seen h := ih rest
      _ = s.seen h := seen_step first

/-- A cache that was never refreshed serves nothing. -/
theorem get_of_quiet (quiet : Quiet h history) : ((start clock).after history).get h p = none := by
  unfold get
  rw [seen_after_quiet quiet]
  exact RateCache.get_of_not_refreshed seen_start

/-- **After its last refresh a cache serves what the table quotes,** until its time is over. -/
theorem get_of_lastRefreshed (last : LastRefreshed h history t age) :
    ((start clock).after history).get h p = if age ≤ h.ttl then t.quote p else none := by
  obtain ⟨before, g, later, rfl, same, quiet, rfl⟩ := last
  rw [after_append, after_cons]
  generalize (start clock).after before = s
  have sees : ((s.refresh g t).after later).seen h = (s.seen h).refresh s.clock t :=
    (seen_after_quiet quiet).trans (seen_refresh same)
  have time : ((s.refresh g t).after later).clock = s.clock + elapsed later := clock_after ..
  show (((s.refresh g t).after later).seen h).get ((s.refresh g t).after later).clock p = _
  rw [sees, time, RateCache.get_refresh]
  have ttl : (s.seen h).ttl = h.ttl := rfl
  simp only [ttl, Nat.add_le_add_iff_left]

end Caches

/-- As long as there is no other refresh, the last one stays the last. -/
theorem LastRefreshed.append (last : LastRefreshed h history t age) (quiet : Quiet h later) :
    LastRefreshed h (history ++ later) t (age + elapsed later) := by
  obtain ⟨before, g, between, rfl, same, quiet', rfl⟩ := last
  exact ⟨before, g, between ++ later, by simp, same, quiet'.append quiet, (elapsed_append ..).symm⟩

/-! ### The meaning of the cache -/

/-- **What is served through a handle after a history** of refreshes, through whatever handles, and of
time that passes. The caches were new at the beginning, when the clock showed `clock`. -/
structure ServesLast (clock : Nat) (history : List CacheAction) (h : CacheHandle) : Prop where
  /-- A rate is served if and only if the cache was refreshed, no more than the time to live has
  passed since the last refresh, and the table of that refresh quotes the rate. -/
  served : ∀ p x, ((Caches.start clock).after history).get h p = some x ↔
    ∃ t age, LastRefreshed h history t age ∧ age ≤ h.ttl ∧ t.Quotes p x
  /-- Nothing else is ever visible: after any other history with the same last table, as long ago,
  the same is served. -/
  forgets : ∀ t age, LastRefreshed h history t age →
    ∀ clock' history', LastRefreshed h history' t age →
      ∀ p, ((Caches.start clock').after history').get h p =
        ((Caches.start clock).after history).get h p
  /-- Who may not serve, because there was no refresh or the last one is too long ago, stays silent
  until the next refresh. -/
  silent : (∀ t age, LastRefreshed h history t age → h.ttl < age) →
    ∀ later, Quiet h later → ∀ p, ((Caches.start clock).after (history ++ later)).get h p = none
  /-- The same is served through all clones of the handle. -/
  shared : ∀ g, h.Clones g → ∀ p,
    ((Caches.start clock).after history).get g p = ((Caches.start clock).after history).get h p

/-- **The meaning of a cache over whole histories:** whatever was done, it serves what the table of
its last refresh quotes, up to the end of its time and no longer. -/
theorem CacheHandle.servesLast (clock : Nat) (history : List CacheAction) (h : CacheHandle) :
    ServesLast clock history h where
  served p x := by
    constructor
    · intro serves
      rcases quiet_or_lastRefreshed h history with quiet | ⟨t, age, last⟩
      · rw [Caches.get_of_quiet quiet] at serves
        cases serves
      · rw [Caches.get_of_lastRefreshed last] at serves
        split at serves
        · next inTime => exact ⟨t, age, last, inTime, RateTable.quote_eq_some_iff.1 serves⟩
        · cases serves
    · rintro ⟨t, age, last, inTime, quotes⟩
      rw [Caches.get_of_lastRefreshed last, if_pos inTime]
      exact RateTable.quote_eq_some_iff.2 quotes
  forgets t age last clock' history' last' p := by
    rw [Caches.get_of_lastRefreshed last, Caches.get_of_lastRefreshed last']
  silent late later quiet p := by
    rcases quiet_or_lastRefreshed h history with never | ⟨t, age, last⟩
    · exact Caches.get_of_quiet (never.append quiet)
    · -- time only goes on
      have lt : h.ttl < age := late t age last
      rw [Caches.get_of_lastRefreshed (last.append quiet), if_neg (by omega)]
  shared g same p := by rw [same.eq]

end Purse
