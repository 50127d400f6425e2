/-!
# Finite tables

A finite map kept as a list of entries in order of first insertion. No key occurs twice; this is
part of the type, so that the number of entries is the number of keys. The operations are described
by what they do to `Table.get?`.
-/

namespace Purse

/-- A finite map from keys to values, in order of first insertion. -/
structure Table (κ α : Type) where
  entries : List (κ × α)
  nodup : (entries.map Prod.fst).Nodup

namespace Table

variable {κ α : Type}

/-- The table without entries. -/
def empty : Table κ α := ⟨[], by simp⟩

instance : Inhabited (Table κ α) := ⟨empty⟩

/-- The number of keys. -/
def size (t : Table κ α) : Nat := t.entries.length

/-- The keys, in order of first insertion. -/
def keys (t : Table κ α) : List κ := t.entries.map Prod.fst

/-- The values, in order of their keys' first insertion. -/
def values (t : Table κ α) : List α := t.entries.map Prod.snd

variable [DecidableEq κ]

/-- The value of a key. -/
def get? (t : Table κ α) (k : κ) : Option α :=
  (t.entries.find? fun (e : κ × α) => e.1 = k).map Prod.snd

/-- Whether a key has a value. -/
def contains (t : Table κ α) (k : κ) : Bool := (t.get? k).isSome

/-- A list of entries with the value of `k` set: in its place if `k` occurs, at the end if not. -/
def insertEntry (k : κ) (a : α) : List (κ × α) → List (κ × α)
  | [] => [(k, a)]
  | e :: es => if e.1 = k then (k, a) :: es else e :: insertEntry k a es

theorem mem_keys_insertEntry {k j : κ} {a : α} {es : List (κ × α)} :
    j ∈ (insertEntry k a es).map Prod.fst ↔ j = k ∨ j ∈ es.map Prod.fst := by
  induction es with
  | nil => simp [insertEntry]
  | cons e es ih =>
    by_cases h : e.1 = k
    · simp [insertEntry, h]
    · rw [insertEntry, if_neg h, List.map_cons, List.mem_cons, ih, List.map_cons, List.mem_cons]
      constructor
      · rintro (h | h | h) <;> simp [h]
      · rintro (h | h | h) <;> simp [h]

theorem nodup_insertEntry {k : κ} {a : α} {es : List (κ × α)} (h : (es.map Prod.fst).Nodup) :
    ((insertEntry k a es).map Prod.fst).Nodup := by
  induction es with
  | nil => simp [insertEntry]
  | cons e es ih =>
    rw [List.map_cons, List.nodup_cons] at h
    by_cases he : e.1 = k
    · rw [insertEntry, if_pos he, List.map_cons, List.nodup_cons]
      exact ⟨he ▸ h.1, h.2⟩
    · rw [insertEntry, if_neg he, List.map_cons, List.nodup_cons]
      refine ⟨fun hm => ?_, ih h.2⟩
      rcases mem_keys_insertEntry.1 hm with hk | hk
      · exact he hk
      · exact h.1 hk

/-- The table with the value of `k` set. -/
def insert (t : Table κ α) (k : κ) (a : α) : Table κ α :=
  ⟨insertEntry k a t.entries, nodup_insertEntry t.nodup⟩

/-- The table without the key `k`. -/
def erase (t : Table κ α) (k : κ) : Table κ α :=
  ⟨t.entries.filter fun e => e.1 ≠ k, t.nodup.sublist ((List.filter_sublist).map _)⟩

/-- The table with the value of `k` changed by `f`, if `k` has one. -/
def modify (t : Table κ α) (k : κ) (f : α → α) : Table κ α :=
  match t.get? k with
  | some a => t.insert k (f a)
  | none => t

def mapValues (t : Table κ α) (f : α → α) : Table κ α :=
  ⟨t.entries.map fun e => (e.1, f e.2), by simpa [List.map_map, Function.comp_def] using t.nodup⟩

/-- A table of entries given in order; a later entry of a key replaces an earlier one. -/
def ofList (es : List (κ × α)) : Table κ α :=
  es.foldl (fun t e => t.insert e.1 e.2) empty

@[simp] theorem get?_empty (k : κ) : (empty : Table κ α).get? k = none := rfl

theorem find?_insertEntry (k j : κ) (a : α) (es : List (κ × α)) :
    ((insertEntry k a es).find? fun (e : κ × α) => e.1 = j).map Prod.snd =
      if k = j then some a else (es.find? fun (e : κ × α) => e.1 = j).map Prod.snd := by
  induction es with
  | nil => by_cases h : k = j <;> simp [insertEntry, h]
  | cons e es ih =>
    by_cases he : e.1 = k
    · by_cases h : k = j
      · simp [insertEntry, he, h]
      · simp [insertEntry, he, h]
    · rw [insertEntry, if_neg he]
      by_cases hj : e.1 = j
      · have h : ¬ k = j := fun h => he (hj.trans h.symm)
        simp [hj, h]
      · simp only [List.find?_cons, hj, decide_false]
        exact ih

@[simp] theorem get?_insert (t : Table κ α) (k j : κ) (a : α) :
    (t.insert k a).get? j = if k = j then some a else t.get? j :=
  find?_insertEntry k j a t.entries

@[simp] theorem get?_insert_self (t : Table κ α) (k : κ) (a : α) :
    (t.insert k a).get? k = some a := by simp

theorem get?_insert_of_ne (t : Table κ α) {k j : κ} (h : k ≠ j) (a : α) :
    (t.insert k a).get? j = t.get? j := by simp [h]

@[simp] theorem get?_erase (t : Table κ α) (k j : κ) :
    (t.erase k).get? j = if k = j then none else t.get? j := by
  unfold get? erase
  rw [List.find?_filter]
  by_cases h : k = j
  · subst h
    simp
  · rw [if_neg h]
    congr 2
    funext e
    by_cases he : e.1 = j
    · have : ¬ e.1 = k := fun hk => h (hk.symm.trans he)
      simp [he, Ne.symm h]
    · simp [he]

@[simp] theorem get?_modify (t : Table κ α) (k j : κ) (f : α → α) :
    (t.modify k f).get? j = if k = j then (t.get? j).map f else t.get? j := by
  unfold modify
  split
  · next a ha =>
    rw [get?_insert]
    split
    · next h => rw [← h, ha, Option.map_some]
    · rfl
  · next ha =>
    split
    · next h => rw [← h, ha, Option.map_none]
    · rfl

theorem contains_iff (t : Table κ α) (k : κ) : t.contains k ↔ ∃ a, t.get? k = some a :=
  Option.isSome_iff_exists

theorem mem_keys_iff (t : Table κ α) (k : κ) : k ∈ t.keys ↔ t.contains k := by
  simp only [keys, contains, get?, List.mem_map, Option.isSome_map]
  rw [List.find?_isSome]
  constructor
  · rintro ⟨e, he, rfl⟩
    exact ⟨e, he, by simp⟩
  · rintro ⟨e, he, h⟩
    exact ⟨e, he, by simpa using h⟩

end Table

end Purse
