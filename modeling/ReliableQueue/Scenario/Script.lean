import ReliableQueue.Clock
import ReliableQueue.Table

/-!
Scripts of executors: for each call what it waits for and how it ends.
-/

namespace ReliableQueue.Scenario

/-- What a call waits for. -/
inductive Wait where
  | nothing
  | millis (n : Nat)
  /-- Until the gate is opened, for good. -/
  | gate
  | cancellation
  | deadline
  | forever
deriving DecidableEq, Repr

inductive Ending where
  | succeed
  | fail (message : String)
  | panic
deriving DecidableEq, Repr

structure Behaviour where
  wait : Wait := .nothing
  /-- How a call ends that is cancelled before its wait is over, if it minds. -/
  onCancel : Option Ending := none
  ending : Ending := .succeed
deriving DecidableEq, Repr

namespace Behaviour

/-- What a call sees of the world while it waits. -/
structure Surroundings where
  now : Instant
  started : Instant
  deadline : Option Instant
  gateOpen : Bool
  cancelled : Bool

/-- The end of the wait, if it has come; a call without a deadline cannot wait for one. -/
def waited (b : Behaviour) (s : Surroundings) : Option Ending :=
  let ifDue (due : Bool) : Option Ending := if due then some b.ending else none
  match b.wait with
  | .nothing => some b.ending
  | .millis n => ifDue (decide (s.started + (Span.ofMillis n).nanos ≤ s.now))
  | .gate => ifDue s.gateOpen
  | .cancellation => ifDue s.cancelled
  | .deadline =>
      match s.deadline with
      | none => some (.fail "no deadline")
      | some d => ifDue (decide (d ≤ s.now))
  | .forever => none

/-- How the call ends now, if it does; the wait comes before the cancellation. -/
def ending? (b : Behaviour) (s : Surroundings) : Option Ending :=
  match b.waited s with
  | some e => some e
  | none => if s.cancelled then b.onCancel else none

/-- When the wait ends by itself. -/
def wakeUp? (b : Behaviour) (started : Instant) (deadline : Option Instant) : Option Instant :=
  match b.wait with
  | .millis n => some (started + (Span.ofMillis n).nanos)
  | .deadline => deadline
  | _ => none

end Behaviour

structure Script where
  default : List Behaviour := []
  byId : Table (List Behaviour) := .empty

namespace Script

/-- The behaviour of call number `n` for an identifier, the first being 0; the last one
of a list stands for all that would follow. -/
def behaviour (s : Script) (id : String) (n : Nat) : Behaviour :=
  let behaviours := (s.byId.get? id).getD s.default
  (behaviours[n]?.or behaviours.getLast?).getD {}

end Script

end ReliableQueue.Scenario
