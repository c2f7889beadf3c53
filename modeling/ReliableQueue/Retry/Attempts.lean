import ReliableQueue.Clock
import ReliableQueue.Logging.Entry
import ReliableQueue.Retry.Policy

/-!
The course of one call under a retry policy: attempts and pauses alternate until an
attempt succeeds, none is left, or the call is cancelled.
-/

namespace ReliableQueue.Retry

/-- Where a call under a policy stands. -/
inductive Course where
  /-- Attempt number `attempt`, the first being 0, is to be made. -/
  | attempt (attempt : Nat)
  /-- The attempt failed with `error`; the next one follows at `resume`. -/
  | pause (attempt : Nat) (resume : Instant) (error : String)
  | succeeded
  | exhausted (cause : Exhausted)
  /-- The pause could not be computed. -/
  | panicked (cause : Binary64.SpanError)
deriving DecidableEq

/-- What a call under a policy reports. -/
inductive Notice where
  | attemptFailed (attempt : Nat) (delay : Span) (error : String)
  | abandoned
deriving DecidableEq

def Notice.entry (task : String) : Notice → Logging.Entry
  | .attemptFailed attempt delay error =>
      { level := .warn
        message := "Task attempt failed, retrying"
        fields := [("task_id", .quoted task), ("attempt", .number (attempt + 1)),
          ("delay_ms", .number (delay.millis % UInt64.size)), ("error", .text error)] }
  | .abandoned =>
      { level := .debug
        message := "Retry abandoned, task context cancelled"
        fields := [("task_id", .quoted task)] }

namespace Course

/-- What follows attempt number `attempt`, which ended at `now` with `result`. -/
def afterAttempt (p : Policy) (now : Instant) (cancelled : Bool) (attempt : Nat)
    (result : Except String Unit) : Course × List Notice :=
  match result with
  | .ok () => (.succeeded, [])
  | .error error =>
    if !p.shouldRetry attempt || cancelled then
      (.exhausted ⟨attempt + 1, error⟩, [])
    else
      match p.delay attempt with
      | .error e => (.panicked e, [])
      | .ok d => (.pause attempt (Clock.sleepEnd now d) error, [.attemptFailed attempt d error])

/-- What follows a pause, or nothing while it lasts. -/
def afterPause (now : Instant) (cancelled : Bool) (attempt : Nat) (resume : Instant)
    (error : String) : Option (Course × List Notice) :=
  if cancelled then some (.exhausted ⟨attempt + 1, error⟩, [.abandoned])
  else if resume ≤ now then some (.attempt (attempt + 1), [])
  else none

end Course

end ReliableQueue.Retry
