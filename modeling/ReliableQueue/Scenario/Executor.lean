import ReliableQueue.Cancellation
import ReliableQueue.Retry.Attempts
import ReliableQueue.Scenario.Script

/-!
An executor that follows a script, under a retry policy or without one, and keeps
account of its calls.
-/

namespace ReliableQueue.Scenario

open Text (Bytes)

/-- The start of a call of the script. -/
structure Start where
  time : Instant
  id : String
  payload : Bytes
  /-- Time left until the deadline. -/
  remaining : Option Span
  cancelled : Bool

/-- How a call of the script ended; one that is abandoned at its timeout is dropped. -/
inductive Fate where
  | ok | err | panic | dropped
deriving DecidableEq, Repr

def Fate.name : Fate → String
  | .ok => "ok"
  | .err => "err"
  | .panic => "panic"
  | .dropped => "dropped"

structure End where
  time : Instant
  id : String
  fate : Fate

/-- The end of a whole call, retries included. -/
inductive Verdict where
  | succeeded
  | failed (message : String)
  | exhausted (cause : Retry.Exhausted)
  | panicked

inductive Activity where
  | acting (attempt : Nat) (behaviour : Behaviour) (started : Instant)
  | pausing (attempt : Nat) (resume : Instant) (error : String)

/-- A call under way. -/
structure Performance where
  id : String
  payload : Bytes
  deadline : Option Instant
  activity : Activity

def Performance.wakeUp? (p : Performance) : Option Instant :=
  match p.activity with
  | .acting _ behaviour started => behaviour.wakeUp? started p.deadline
  | .pausing _ resume _ => some resume

structure Executor where
  script : Script
  policy : Option Retry.Policy := none
  gateOpen : Bool := false
  /-- Calls of the script so far, for each identifier. -/
  counts : Table Nat := .empty
  /-- Latest first, as are the next two. -/
  starts : List Start := []
  ends : List End := []
  log : List (Instant × Logging.Entry) := []

namespace Executor

/-- Calls the script. -/
def act (ex : Executor) (now : Instant) (cancelled : Bool) (p : Performance) (attempt : Nat) :
    Performance × Executor :=
  let n := ex.counts.getD p.id 0
  let start : Start :=
    { time := now, id := p.id, payload := p.payload, cancelled
      remaining := p.deadline.map fun d => ⟨d - now⟩ }
  ({ p with activity := .acting attempt (ex.script.behaviour p.id n) now },
    { ex with counts := ex.counts.insert p.id (n + 1), starts := start :: ex.starts })

/-- Begins a call. -/
def begin (ex : Executor) (now : Instant) (cancelled : Bool) (id : String) (payload : Bytes)
    (deadline : Option Instant) : Performance × Executor :=
  ex.act now cancelled { id, payload, deadline, activity := .pausing 0 now "" } 0

def ended (ex : Executor) (now : Instant) (id : String) (fate : Fate) : Executor :=
  { ex with ends := ⟨now, id, fate⟩ :: ex.ends }

def noted (ex : Executor) (now : Instant) (id : String) (notices : List Retry.Notice) : Executor :=
  { ex with log := notices.foldl (fun log n => (now, n.entry id) :: log) ex.log }

/-- Goes on as a policy says. -/
def follow (ex : Executor) (now : Instant) (cancelled : Bool) (p : Performance) :
    Retry.Course → (Performance ⊕ Verdict) × Executor
  | .attempt attempt =>
      let (p, ex) := ex.act now cancelled p attempt
      (.inl p, ex)
  | .pause attempt resume error =>
      (.inl { p with activity := .pausing attempt resume error }, ex)
  | .succeeded => (.inr .succeeded, ex)
  | .exhausted cause => (.inr (.exhausted cause), ex)
  | .panicked _ => (.inr .panicked, ex)

/-- What follows an attempt that ended without a panic. -/
def afterAttempt (ex : Executor) (now : Instant) (cancelled : Bool) (p : Performance)
    (attempt : Nat) (result : Except String Unit) : (Performance ⊕ Verdict) × Executor :=
  match ex.policy with
  | none =>
      match result with
      | .ok () => (.inr .succeeded, ex)
      | .error message => (.inr (.failed message), ex)
  | some policy =>
      let (course, notices) := Retry.Course.afterAttempt policy now cancelled attempt result
      (ex.noted now p.id notices).follow now cancelled p course

/-- Takes a call further, if it can go on without the clock moving. -/
def advance (ex : Executor) (now : Instant) (cancelled : Bool) (p : Performance) :
    Option ((Performance ⊕ Verdict) × Executor) :=
  match p.activity with
  | .acting attempt behaviour started =>
      match behaviour.ending?
          { now, started, deadline := p.deadline, gateOpen := ex.gateOpen, cancelled } with
      | none => none
      | some .succeed =>
          some ((ex.ended now p.id .ok).afterAttempt now cancelled p attempt (.ok ()))
      | some (.fail message) =>
          some ((ex.ended now p.id .err).afterAttempt now cancelled p attempt (.error message))
      | some .panic => some (.inr .panicked, ex.ended now p.id .panic)
  | .pausing attempt resume error =>
      match Retry.Course.afterPause now cancelled attempt resume error with
      | none => none
      | some (course, notices) =>
          some ((ex.noted now p.id notices).follow now cancelled p course)

/-- Drops a call that was abandoned. -/
def drop (ex : Executor) (now : Instant) (p : Performance) : Executor :=
  match p.activity with
  | .acting .. => ex.ended now p.id .dropped
  | .pausing .. => ex

end Executor

/-- Ends by time, identifier and fate. -/
def arrangeEnds (ends : List End) : List End :=
  let before (a b : End) : Bool :=
    decide (a.time < b.time) || (a.time = b.time &&
      (decide (a.id < b.id) || (a.id = b.id && decide (a.fate.name ≤ b.fate.name))))
  ends.mergeSort before

end ReliableQueue.Scenario
