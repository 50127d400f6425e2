/-!
# Timestamps

An instant of universal time: whole seconds since the start of 1970 and the nanoseconds past them. A
second that is counted twice at the end of a day, a leap second, is the preceding second with a
billion nanoseconds or more.
-/

namespace Purse

/-- An instant of universal time. -/
structure Timestamp where
  seconds : Int
  nanos : Nat
  nanos_lt : nanos < 2000000000
deriving DecidableEq

namespace Timestamp

def nanosPerSecond : Nat := 1000000000

/-- The start of 1970. -/
def epoch : Timestamp := ⟨0, 0, by decide⟩

instance : Inhabited Timestamp := ⟨epoch⟩

/-- Whether the instant lies in a leap second. -/
def inLeapSecond (t : Timestamp) : Bool := nanosPerSecond ≤ t.nanos

/-- The instant `ms` milliseconds later. -/
def afterMillis (t : Timestamp) (ms : Nat) : Timestamp :=
  let total := t.nanos + ms * 1000000
  ⟨t.seconds + (total / nanosPerSecond : Nat), total % nanosPerSecond, by
    have : total % nanosPerSecond < nanosPerSecond := Nat.mod_lt _ (by decide)
    unfold nanosPerSecond at *
    omega⟩

end Timestamp

end Purse
