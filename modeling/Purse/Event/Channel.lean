import Purse.Table
import Purse.WalletError

/-!
# The event bus

A bus keeps the latest values published, a fixed number of them, and every subscriber reads on from
where it is. One that falls behind further than the bus keeps is told how many values it lost and
goes on with the oldest one kept. Values published while nobody listens are refused.
-/

namespace Purse

/-- A bus for values of type `α`, with subscribers named by `σ`. -/
structure Channel (σ α : Type) where
  /-- How many values are kept. -/
  depth : Nat
  /-- How many values have been accepted. -/
  accepted : Nat
  /-- The latest values accepted, at most `depth`, the earliest first. -/
  kept : List α
  /-- How many of the accepted values each subscriber has passed. -/
  readers : Table σ Nat

/-- What a subscriber gets when it asks. -/
inductive Received (α : Type) where
  /-- The next value. -/
  | value (a : α)
  /-- So many values are lost to this subscriber. -/
  | lagged (count : Nat)
  /-- There is nothing new. -/
  | empty

namespace Channel

variable {σ α : Type}

/-- The least power of two that is at least `n`. -/
def powerOfTwo (n : Nat) : Nat :=
  if n ≤ 1 then 1 else Nat.pow 2 ((n - 1).log2 + 1)

/-- A bus that keeps `capacity` values, and at least one, rounded up to a power of two. -/
def create (capacity : Nat) : Channel σ α :=
  ⟨powerOfTwo (max 1 capacity), 0, [], .empty⟩

/-- The latest `n` values of a list. -/
def latest (n : Nat) (as : List α) : List α := as.drop (as.length - n)

variable [DecidableEq σ]

/-- A new subscriber, which gets what is published from now on. -/
def subscribe (c : Channel σ α) (who : σ) : Channel σ α :=
  { c with readers := (c.readers.erase who).insert who c.accepted }

/-- The end of a subscription. -/
def unsubscribe (c : Channel σ α) (who : σ) : Channel σ α :=
  { c with readers := c.readers.erase who }

omit [DecidableEq σ] in
/-- Whether nobody listens. -/
def isDeserted (c : Channel σ α) : Bool := c.readers.entries.isEmpty

omit [DecidableEq σ] in
/-- **Publishing a value:** it is refused if nobody listens. -/
def publish (c : Channel σ α) (a : α) : Except PartnerFault (Channel σ α) :=
  if c.isDeserted then .error .noSubscribers
  else .ok { c with accepted := c.accepted + 1, kept := latest c.depth (c.kept ++ [a]) }

/-- **What a subscriber gets next,** and the bus after that. Who does not subscribe gets nothing. -/
def receive (c : Channel σ α) (who : σ) : Channel σ α × Received α :=
  match c.readers.get? who with
  | none => (c, .empty)
  | some passed =>
    let oldest := c.accepted - c.kept.length
    if passed < oldest then
      ({ c with readers := c.readers.insert who oldest }, .lagged (oldest - passed))
    else
      match c.kept[passed - oldest]? with
      | some a => ({ c with readers := c.readers.insert who (passed + 1) }, .value a)
      | none => (c, .empty)

/-- Everything that a subscriber can still get, losses left out, with at most `fuel` requests. -/
def drainFrom : (fuel : Nat) → Channel σ α → σ → Channel σ α × List α
  | 0, c, _ => (c, [])
  | fuel + 1, c, who =>
    match c.receive who with
    | (c, .value a) =>
      let (c, as) := drainFrom fuel c who
      (c, a :: as)
    | (c, .lagged _) => drainFrom fuel c who
    | (c, .empty) => (c, [])

/-- Everything that a subscriber can still get. -/
def drain (c : Channel σ α) (who : σ) : Channel σ α × List α :=
  drainFrom (c.kept.length + 2) c who

end Channel

end Purse
