import Mathlib.Data.List.Nodup
import Mathlib.Data.List.Perm.Basic
import Purse.Json.Decode
import Purse.Proofs.Json.Reader

/-!
# Records

What a record says depends neither on the order of its members nor on members that nobody asks for
(`Json.record?_perm`, `Json.record?_cons_unknown`), and the members that a record was made of are
found in it again (`Json.record?_ofMembers`).
-/

namespace Purse.Json

variable {name k : String} {v : Json} {names : List String}
  {members members' : List (Option String × Json)} {ms : List (String × Json)}

/-- A step that gives the same for every item gives the same for the list. -/
theorem mapM_congr {α β : Type} {f g : α → Option β} {l : List α} (h : ∀ a ∈ l, f a = g a) :
    l.mapM f = l.mapM g := by
  induction l with
  | nil => rfl
  | cons a l ih =>
    have rest := ih fun b hb => h b (List.mem_cons_of_mem a hb)
    rw [List.mapM_cons, List.mapM_cons, h a List.mem_cons_self, rest]

/-! ### Order and other members -/

theorem member?_perm (h : members.Perm members') : member? members name = member? members' name := by
  have filtered := h.filter fun m => m.1 = some name
  unfold member?
  generalize members.filter _ = found at *
  generalize members'.filter _ = found' at *
  match found with
  | [] => rw [List.nil_perm.1 filtered]
  | [m] => rw [List.singleton_perm.1 filtered]
  | _ :: _ :: _ =>
    -- there are several on both sides
    have several := filtered.length_eq
    match found' with
    | [] => cases several
    | [_] => cases several
    | _ :: _ :: _ => rfl

/-- **The order of the members does not matter.** -/
theorem record?_perm (h : members.Perm members') :
    record? names (object members) = record? names (object members') := by
  have read : (member? members : String → _) = member? members' := funext fun _ => member?_perm h
  rw [record?, record?, h.any_eq, read]

theorem member?_cons_of_ne (other : k ≠ name) :
    member? ((some k, v) :: members) name = member? members name := by
  rw [member?, List.filter_cons_of_neg (by simpa using other), member?]

/-- **A member that nobody asks for does not matter.** -/
theorem record?_cons_unknown (unknown : k ∉ names) :
    record? names (object ((some k, v) :: members)) = record? names (object members) := by
  have read : names.mapM (member? ((some k, v) :: members)) = names.mapM (member? members) := by
    refine mapM_congr fun name asked => member?_cons_of_ne ?_
    rintro rfl
    exact unknown asked
  rw [record?, record?, read]
  rfl

/-! ### Looking up members -/

/-- The members of a record as they stand in an object. -/
theorem filter_of_not_mem (absent : name ∉ ms.map Prod.fst) :
    (ms.map fun m => (some m.1, m.2)).filter (fun m => m.1 = some name) = [] := by
  rw [List.filter_eq_nil_iff]
  intro m hm
  obtain ⟨m, mem, rfl⟩ := List.mem_map.1 hm
  have other : m.1 ≠ name := by
    rintro rfl
    exact absent (List.mem_map_of_mem mem)
  simpa using other

theorem member?_of_not_mem (absent : name ∉ ms.map Prod.fst) :
    member? (ms.map fun m => (some m.1, m.2)) name = some none := by
  rw [member?, filter_of_not_mem absent]

theorem member?_of_mem (nodup : (ms.map Prod.fst).Nodup) (mem : (k, v) ∈ ms) :
    member? (ms.map fun m => (some m.1, m.2)) k = some (some v) := by
  -- in another order it stands first, and none of the others has its name
  obtain ⟨before, after, rfl⟩ := List.append_of_mem mem
  have front : (before ++ (k, v) :: after).Perm ((k, v) :: (before ++ after)) := List.perm_middle
  have alone : k ∉ (before ++ after).map Prod.fst :=
    (List.nodup_cons.1 ((front.map Prod.fst).nodup_iff.1 nodup)).1
  rw [member?_perm (front.map _), List.map_cons, member?, List.filter_cons_of_pos (by simp),
    filter_of_not_mem alone]

/-- **The members that a record was made of are found in it,** each under its name, and those that
were left out are not. -/
theorem record?_ofMembers (missing : List String) (nodup : (ms.map Prod.fst).Nodup)
    (absent : ∀ name ∈ missing, name ∉ ms.map Prod.fst) :
    record? (ms.map Prod.fst ++ missing) (ofMembers ms) =
      some (ms.map (fun m => some m.2) ++ missing.map fun _ => none) := by
  have named : (ms.map fun m => (some m.1, m.2)).any (fun m => m.1.isNone) = false := by
    simp
  have found : (ms.map Prod.fst).mapM (member? (ms.map fun m => (some m.1, m.2))) =
      some (ms.map fun m => some m.2) := by
    rw [List.mapM_map]
    exact (mapM_congr fun m mem => member?_of_mem nodup mem).trans List.mapM_pure
  have left : missing.mapM (member? (ms.map fun m => (some m.1, m.2))) =
      some (missing.map fun _ => none) :=
    (mapM_congr fun name mem => member?_of_not_mem (absent name mem)).trans List.mapM_pure
  rw [ofMembers, record?, named, List.mapM_append, found, left]
  rfl

/-! ### Other forms of a record -/

/-- The values that say the same as a record of these members: an object that has them in any order
and among others, and the array of them. -/
inductive Spells (names : List String) (own : List (String × Json)) : Json → Prop where
  | object {members others : List (String × Json)} (order : members.Perm (own ++ others))
    (unknown : ∀ m ∈ others, m.1 ∉ names) : Spells names own (ofMembers members)
  | array : Spells names own (array (own.map Prod.snd))

theorem spells_ofMembers (own : List (String × Json)) : Spells names own (ofMembers own) :=
  have order : own.Perm (own ++ []) := by rw [List.append_nil]
  .object order nofun

theorem record?_append_unknown {others : List (String × Json)}
    (unknown : ∀ m ∈ others, m.1 ∉ names) :
    record? names (ofMembers (ms ++ others)) = record? names (ofMembers ms) := by
  have front : record? names (ofMembers (others ++ ms)) = record? names (ofMembers ms) := by
    induction others with
    | nil => rfl
    | cons m others ih =>
      have rest := ih fun n h => unknown n (List.mem_cons_of_mem m h)
      exact (record?_cons_unknown (unknown m List.mem_cons_self)).trans rest
  exact (record?_perm (List.perm_append_comm.map _)).trans front

/-- **All these values are read alike.** Those of the members that may be missing come last. -/
theorem record?_of_spells (missing : List String) (nodup : (ms.map Prod.fst).Nodup)
    (absent : ∀ name ∈ missing, name ∉ ms.map Prod.fst)
    (h : Spells (ms.map Prod.fst ++ missing) ms v) :
    record? (ms.map Prod.fst ++ missing) v = record? (ms.map Prod.fst ++ missing) (ofMembers ms) := by
  cases h with
  | object order unknown =>
    exact (record?_perm (order.map _)).trans (record?_append_unknown unknown)
  | array =>
    have fits : (ms.map Prod.snd).length ≤ (ms.map Prod.fst ++ missing).length := by simp
    rw [record?_ofMembers missing nodup absent, record?, if_pos fits, List.map_map]
    simp

/-! ### Documents -/

/-- What a text becomes when it is read as a document and written again. -/
def rewritten? {α : Type} (read : String → Option α) (write : α → String) (s : String) :
    Option String :=
  (read s).map write

/-- If what is written is read back, then a text that was written is settled: whatever text it was
read from becomes it, it is read alike, and it stays itself. -/
theorem settled_of_read {α : Type} {read : String → Option α} {write : α → String} {a : α}
    (back : read (write a) = some a) {s : String} (h : read s = some a) :
    rewritten? read write s = some (write a) ∧ read (write a) = read s ∧
      rewritten? read write (write a) = some (write a) := by
  refine ⟨?_, ?_, ?_⟩
  · rw [rewritten?, h, Option.map_some]
  · rw [back, h]
  · rw [rewritten?, back, Option.map_some]

end Purse.Json
