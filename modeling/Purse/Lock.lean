/-!
# Exclusive locks

A lock with at most one holder. When it is given back it goes straight to whoever has waited
longest: nobody who comes later can slip in between.
-/

namespace Purse

/-- A lock that parties of type `α` hold and wait for. -/
structure Lock (α : Type) where
  holder : Option α
  /-- Who waits, the earliest first. -/
  waiting : List α
deriving DecidableEq

namespace Lock

variable {α : Type}

/-- The lock that nobody holds. -/
def open_ : Lock α := ⟨none, []⟩

instance : Inhabited (Lock α) := ⟨open_⟩

/-- Asking for the lock: it is taken at once if nobody holds it. -/
def request (l : Lock α) (a : α) : Lock α :=
  match l.holder with
  | none => { l with holder := some a }
  | some _ => { l with waiting := l.waiting ++ [a] }

variable [DecidableEq α]

/-- Giving the lock back, or giving up waiting for it. -/
def withdraw (l : Lock α) (a : α) : Lock α :=
  if l.holder = some a then
    match l.waiting with
    | [] => ⟨none, []⟩
    | next :: rest => ⟨some next, rest⟩
  else { l with waiting := l.waiting.filter (· ≠ a) }

end Lock

end Purse
