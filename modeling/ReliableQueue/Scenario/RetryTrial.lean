import ReliableQueue.Scenario.Executor
import ReliableQueue.Scenario.Schedule

/-!
A single call of a scripted executor under a retry policy, with a cancellation and
the opening of the gate at given instants.
-/

namespace ReliableQueue.Scenario

open Text (Bytes)

structure RetryTrial where
  id : String
  payload : Bytes
  policy : Retry.Policy
  script : Script
  cancelAt : Option Span := none
  openGateAt : Option Span := none
  deadline : Option Span := none

namespace RetryTrial

/-- A trial under way. -/
structure State where
  now : Instant
  executor : Executor
  progress : Performance ⊕ (Instant × Verdict)

def isPast (now : Instant) (due : Option Span) : Bool := due.any (·.nanos ≤ now)

def schedule (trial : RetryTrial) : Schedule State where
  now := State.now
  elapse s t := { s with now := t }
  step s :=
    match s.progress with
    | .inr _ => none
    | .inl p =>
      let ex := { s.executor with gateOpen := isPast s.now trial.openGateAt }
      match ex.advance s.now (isPast s.now trial.cancelAt) p with
      | none => none
      | some (.inl p, executor) => some { s with executor, progress := .inl p }
      | some (.inr v, executor) => some { s with executor, progress := .inr (s.now, v) }
  wakeUps s :=
    let own := match s.progress with
      | .inl p => p.wakeUp?
      | .inr _ => none
    [own, trial.cancelAt.map Span.nanos, trial.openGateAt.map Span.nanos].filterMap fun t => t

/-- The end of the call with its instant, if it ended in time, and the account of it. A
call that did not is left as it is. -/
def run (trial : RetryTrial) : Option (Instant × Verdict) × Executor :=
  let ex : Executor := { script := trial.script, policy := some trial.policy }
  let deadline := trial.deadline.bind (Clock.after? 0)
  let (p, executor) := ex.begin 0 (isPast 0 trial.cancelAt) trial.id trial.payload deadline
  let s := trial.schedule.await (·.progress.isRight) { now := 0, executor, progress := .inl p }
  (s.progress.getRight?, s.executor)

end RetryTrial

end ReliableQueue.Scenario
