import Purse.Service.Step

/-!
# Running the service

One particular interleaving of the service's steps, for whoever needs the calls to be carried out
and not only to be possible. Calls take turns: the one whose turn it is goes on until it has to
wait, and the next one in line follows. A call that gets a lock or a permit, or whose time has come,
goes to the end of the line; several whose time has come at once go there in the order of their
times, and in the order in which they began to wait if the times are equal.

`Runner.settle` goes on until nobody can move without the clock moving.
-/

namespace Purse.Service

/-- The service, and whose turn it is. -/
structure Runner where
  state : State
  /-- The calls that can go on, in the order of their turns. -/
  line : List CallId
  /-- The calls that wait for a time, in the order in which they began to. -/
  sleepers : List CallId
  /-- The greatest number of mutations that were with the store at once. -/
  peak : Nat

namespace Runner

/-- A runner of a service where nothing happens yet. -/
def start (state : State) : Runner := ⟨state, [], [], 0⟩

/-- When a call goes on by itself: when an answer is due, or when its wait at the gate is over. -/
def wakeTime? (s : State) (id : CallId) : Option Nat :=
  match s.calls.get? id with
  | none => none
  | some call =>
    match call.stage with
    | .queued _ => (s.gate.waiting.find? fun (w : Waiter Party) => w.who = .call id).bind Waiter.deadline
    | stage => stage.due?

def holderOf (l : Lock CallId) : List CallId := l.holder.toList

/-- The calls that hold the refresh lock, a row lock or a permit, in this order. -/
def holders (s : State) : List CallId :=
  holderOf s.refreshLock ++ s.rowLocks.values.flatMap holderOf ++
    s.gate.holders.reverse.filterMap fun p =>
      match p with
      | .call id => some id
      | .outside _ => none

/-- The calls that wait for the refresh lock, a row lock or a permit. -/
def waiters (s : State) : List CallId :=
  s.refreshLock.waiting ++ s.rowLocks.values.flatMap Lock.waiting ++
    s.gate.waiting.filterMap fun w =>
      match w.who with
      | .call id => some id
      | .outside _ => none

/-- The calls that waited before and hold what they waited for now. -/
def woken (before after : State) : List CallId :=
  let waited := waiters before
  let waiting := waiters after
  (holders after).filter fun id => waited.contains id && !waiting.contains id

/-- One call goes on until it has to wait. It takes no more steps than there are stages. -/
def proceed : (fuel : Nat) → Runner → CallId → Runner
  | 0, r, _ => r
  | fuel + 1, r, id =>
    match r.state.step? id with
    | some state => proceed fuel { r with state, peak := max r.peak state.mutating } id
    | none =>
      if (wakeTime? r.state id).isSome then { r with sleepers := r.sleepers.filter (· ≠ id) ++ [id] } else r

/-- The number of stages of a call. -/
def stageCount : Nat := 14

/-- The turn of one call, and what follows from it for the line. -/
def turn (r : Runner) (id : CallId) : Runner :=
  let after := proceed (stageCount + 1) r id
  { after with line := after.line ++ woken r.state after.state }

/-- Taking turns as long as somebody can go on, for at most `fuel` turns. -/
def settleFor : (fuel : Nat) → Runner → Runner
  | 0, r => r
  | fuel + 1, r =>
    match r.line with
    | [] => r
    | id :: rest => settleFor fuel (turn { r with line := rest } id)

/-- **Taking turns until nobody can go on.** A call gets a turn when it comes, and when it gets a
permit or a lock, of which it asks for no more than four. -/
def settle (r : Runner) : Runner :=
  settleFor (r.line.length + 5 * r.state.calls.size + 1) r

/-- A call with a new name begins, and all that follows from it. -/
def call (r : Runner) (id : CallId) (request : Request) (drawn : Uuid) : Runner :=
  settle { r with state := r.state.arrive id request drawn, line := r.line ++ [id] }

/-- A move from outside, and all that follows from it. -/
def move (r : Runner) (m : Move) : Runner :=
  let state := r.state.move m
  settle { r with state, line := r.line ++ woken r.state state }

/-- The calls whose time has come, in the order of their times. -/
def dueSleepers (s : State) (sleepers : List CallId) : List CallId :=
  let timed := sleepers.filterMap fun id => (wakeTime? s id).map fun t => (t, id)
  ((timed.filter fun e => e.1 ≤ s.clock).mergeSort fun a b => a.1 ≤ b.1).map Prod.snd

/-- Time passes, and all that follows from it. -/
def advance (r : Runner) (ms : Nat) : Runner :=
  let state := r.state.move (.tick ms)
  let due := dueSleepers state r.sleepers
  settle { r with
    state
    line := r.line ++ due
    sleepers := r.sleepers.filter fun id => !due.contains id }

end Runner

end Purse.Service
