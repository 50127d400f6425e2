import Mathlib.Algebra.GroupWithZero.Nat
import Mathlib.Data.List.Nodup
import Purse.Table

/-!
# Tables as lists of entries

`Table.get?` is the view of a table, and the entries are what it is made of. `Table.mem_entries_iff`
goes from one to the other, and the number of entries changes with the keys only. A sum over the
values can be taken apart at a key (`Table.sum_values_of_some`). The other lemmas
say when two ways to change a table come to the same table, entry by entry and in the same order,
and not only to the same view.
-/

namespace Purse.Table

variable {κ α : Type} {t u : Table κ α} {k j : κ} {a b : α} {f : α → α}

theorem ext_entries (h : t.entries = u.entries) : t = u := by
  obtain ⟨es, _⟩ := t
  obtain ⟨es', _⟩ := u
  cases h
  rfl

theorem nodup_entries (t : Table κ α) : t.entries.Nodup := t.nodup.of_map

variable [DecidableEq κ]

/-- **The entries are what look-ups find.** -/
theorem mem_entries_iff : (k, a) ∈ t.entries ↔ t.get? k = some a := by
  unfold get?
  constructor
  · intro hm
    -- whatever is found under the key is this entry, since no key occurs twice
    cases hf : t.entries.find? fun (e : κ × α) => e.1 = k with
    | none =>
      have other : ¬ k = k := by simpa using List.find?_eq_none.1 hf _ hm
      exact absurd rfl other
    | some e =>
      have he : e.1 = k := by simpa using List.find?_some hf
      have same : e = (k, a) :=
        List.inj_on_of_nodup_map t.nodup (List.mem_of_find?_eq_some hf) hm he
      rw [same, Option.map_some]
  · intro h
    obtain ⟨e, hf, rfl⟩ := Option.map_eq_some_iff.1 h
    have he : e.1 = k := by simpa using List.find?_some hf
    exact he ▸ List.mem_of_find?_eq_some hf

/-- Look-ups do not depend on the order in which the entries stand. -/
theorem get?_of_perm (perm : t.entries.Perm u.entries) (k : κ) : t.get? k = u.get? k := by
  refine Option.ext fun a => ?_
  rw [← mem_entries_iff, ← mem_entries_iff, perm.mem_iff]

theorem mem_values_iff : a ∈ t.values ↔ ∃ k, t.get? k = some a := by
  constructor
  · intro hm
    obtain ⟨e, he, rfl⟩ := List.mem_map.1 hm
    exact ⟨e.1, mem_entries_iff.1 he⟩
  · rintro ⟨k, h⟩
    exact List.mem_map.2 ⟨(k, a), mem_entries_iff.2 h, rfl⟩

@[simp] theorem get?_mapValues (t : Table κ α) (f : α → α) (k : κ) :
    (t.mapValues f).get? k = (t.get? k).map f := by
  unfold get? mapValues
  rw [List.find?_map, Option.map_map, Option.map_map]
  rfl

/-! ### The number of keys -/

theorem length_insertEntry {es : List (κ × α)} : (insertEntry k a es).length =
    if k ∈ es.map Prod.fst then es.length else es.length + 1 := by
  induction es with
  | nil => rfl
  | cons e es ih =>
    by_cases he : e.1 = k
    · simp [insertEntry, he]
    · have ne : ¬ k = e.1 := fun hk => he hk.symm
      rw [insertEntry, if_neg he, List.length_cons, ih]
      simp only [List.map_cons, List.mem_cons, ne, false_or, List.length_cons]
      split <;> rfl

/-- A new key counts. -/
theorem size_insert_of_none (new : t.get? k = none) (a : α) : (t.insert k a).size = t.size + 1 := by
  have absent : k ∉ t.entries.map Prod.fst := fun there => by
    obtain ⟨b, found⟩ := (contains_iff t k).1 ((mem_keys_iff t k).1 there)
    cases new.symm.trans found
  exact length_insertEntry.trans (if_neg absent)

/-- A key that is there does not count again. -/
theorem size_insert_of_some (old : t.get? k = some b) (a : α) : (t.insert k a).size = t.size :=
  length_insertEntry.trans (if_pos ((mem_keys_iff t k).2 ((contains_iff t k).2 ⟨b, old⟩)))

/-! ### Sums over the values -/

/-- Tables that look the same have the same entries, in some order. -/
theorem entries_perm (same : ∀ k, t.get? k = u.get? k) : t.entries.Perm u.entries := by
  refine (List.perm_ext_iff_of_nodup t.nodup_entries u.nodup_entries).2 ?_
  rintro ⟨k, a⟩
  rw [mem_entries_iff, mem_entries_iff, same k]

theorem entries_perm_cons_erase (there : t.get? k = some a) :
    t.entries.Perm ((k, a) :: (t.erase k).entries) := by
  have gone : (k, a) ∉ (t.erase k).entries := by simp [mem_entries_iff]
  have nodup : ((k, a) :: (t.erase k).entries).Nodup := List.nodup_cons.2 ⟨gone, nodup_entries _⟩
  refine (List.perm_ext_iff_of_nodup t.nodup_entries nodup).2 ?_
  rintro ⟨j, b⟩
  rw [mem_entries_iff, List.mem_cons, mem_entries_iff, get?_erase, Prod.mk.injEq]
  by_cases same : k = j
  · subst same
    simp [there, eq_comm]
  · simp [same, Ne.symm same]

/-- A sum over tables that look the same. -/
theorem sum_values_congr (same : ∀ k, t.get? k = u.get? k) (f : α → Nat) :
    (t.values.map f).sum = (u.values.map f).sum :=
  (((entries_perm same).map Prod.snd).map f).sum_nat

/-- A sum with one of the values set apart. -/
theorem sum_values_of_some (there : t.get? k = some a) (f : α → Nat) :
    (t.values.map f).sum = f a + ((t.erase k).values.map f).sum :=
  (((entries_perm_cons_erase there).map Prod.snd).map f).sum_nat

/-! ### Changes that come to the same -/

theorem filter_insertEntry {es : List (κ × α)} (h : k ∈ es.map Prod.fst) :
    (insertEntry k a es).filter (fun e => e.1 ≠ k) = es.filter fun e => e.1 ≠ k := by
  induction es with
  | nil => cases h
  | cons e es ih =>
    by_cases he : e.1 = k
    · simp [insertEntry, he]
    · have later : k ∈ es.map Prod.fst := (List.mem_cons.1 h).resolve_left (Ne.symm he)
      rw [insertEntry, if_neg he, List.filter_cons_of_pos (by simpa using he), ih later,
        List.filter_cons_of_pos (by simpa using he)]

/-- What is changed and then erased might as well be erased at once. -/
theorem erase_modify : (t.modify k f).erase k = t.erase k := by
  unfold modify
  split
  · next a ha =>
    have there : k ∈ t.entries.map Prod.fst := (mem_keys_iff t k).2 ((contains_iff t k).2 ⟨a, ha⟩)
    exact ext_entries (filter_insertEntry there)
  · rfl

theorem mapValues_eq_self (same : ∀ k a, t.get? k = some a → f a = a) : t.mapValues f = t := by
  refine ext_entries ?_
  change (t.entries.map fun e => (e.1, f e.2)) = t.entries
  rw [List.map_congr_left (g := id), List.map_id]
  intro e he
  exact Prod.ext rfl (same e.1 e.2 (mem_entries_iff.1 he))

theorem insertEntry_eq_map {es : List (κ × α)} (nodup : (es.map Prod.fst).Nodup)
    (there : (k, a) ∈ es) (same : ∀ e ∈ es, e.1 ≠ k → f e.2 = e.2) :
    insertEntry k (f a) es = es.map fun e => (e.1, f e.2) := by
  induction es with
  | nil => cases there
  | cons e es ih =>
    rw [List.map_cons, List.nodup_cons] at nodup
    by_cases he : e.1 = k
    · -- this is the entry, and the key does not occur again
      have eq : e = (k, a) := (List.mem_cons.1 there).elim Eq.symm fun later =>
        absurd (he ▸ List.mem_map.2 ⟨(k, a), later, rfl⟩) nodup.1
      have rest : es.map (fun e => (e.1, f e.2)) = es := by
        refine (List.map_congr_left (g := id) fun d hd => ?_).trans (List.map_id es)
        have hk : d.1 ≠ k := fun hk => nodup.1 (List.mem_map.2 ⟨d, hd, hk.trans he.symm⟩)
        exact Prod.ext rfl (same d (List.mem_cons_of_mem e hd) hk)
      rw [insertEntry, if_pos he, List.map_cons, rest, eq]
    · have later : (k, a) ∈ es := (List.mem_cons.1 there).resolve_left fun eq => he (by rw [← eq])
      rw [insertEntry, if_neg he, List.map_cons,
        ih nodup.2 later fun d hd => same d (List.mem_cons_of_mem e hd),
        same e List.mem_cons_self he]

/-- Changing every value in a way that matters to one of them only is changing that one. -/
theorem mapValues_eq_insert (there : t.get? k = some a)
    (same : ∀ j b, j ≠ k → t.get? j = some b → f b = b) : t.mapValues f = t.insert k (f a) :=
  ext_entries (insertEntry_eq_map t.nodup (mem_entries_iff.2 there) fun e he hk =>
    same e.1 e.2 hk (mem_entries_iff.1 he)).symm

end Purse.Table
