import ReliableQueue.Logging.Entry
import ReliableQueue.Queue.Channel
import ReliableQueue.Queue.Error
import ReliableQueue.Queue.Task

/-!
What happens in a queue. Every change to the place of a task is an event, so the
events tell the whole history; some of them are shown as log entries.
-/

namespace ReliableQueue.Queue

inductive Event where
  | pushed (tasks : List Task)
  | queueStarted (workers bufferSize : Nat)
  | queueStopped
  /-- A stop met a loop that had panicked. -/
  | loopPanicked
  | fetcherStarted
  | popped (id : String)
  | popFailed (cause : Store.Error)
  /-- An identifier went back to the head of the backlog. -/
  | requeued (id : String)
  | requeueFailed (id : String) (cause : Store.Error)
  /-- The payload of a popped identifier was looked up. -/
  | loaded (claim : Claim)
  | claimed (claim : Claim)
  | claimFailed (id : String) (cause : Store.Error)
  | sent (claim : Claim)
  /-- A claim was undone and its identifier went back to the head of the backlog. -/
  | released (id : String)
  | releaseFailed (id : String) (cause : Store.Error)
  /-- A channel went away with a task in it, or a stop was dropped before its release. -/
  | discarded (id : String)
  | fetcherStopped
  | fetcherPanicked
  | workerStarted
  | received (claim : Claim)
  | called (claim : Claim)
  | completed (id : String) (elapsed : Span)
  | timedOut (id : String) (timeout : Span)
  | failed (id : String) (elapsed : Span) (error : String)
  | settled (claim : Claim)
  | settleFailed (claim : Claim) (cause : Store.Error)
  | workerStopped
  | workerPanicked (claim : Claim)
  | recovered (id : String)
  | recoveryFailed (id : String) (cause : Store.Error)
  | recoveredTotal (count : Nat)
  | sweeperStarted (period maxAge : Span)
  | swept (count : Nat)
  | sweepFailed (cause : Error)
  | sweeperStopped
deriving DecidableEq

namespace Event

open Logging (Entry Level Value)

/-- The service identifier of a queue. -/
def serviceName (name : String) : String := "taskqueue:" ++ name

/-- Milliseconds as logs give them. -/
def logMillis (d : Span) : Value := .number (d.millis % UInt64.size)

/-- The log entry that shows an event of the queue stored under `name`. -/
def entry? (name : String) (event : Event) : Option Entry :=
  let shown (level : Level) (message : String) (fields : List (String × Value)) : Option Entry :=
    some { level, message, fields := ("queue", .text name) :: fields }
  let sweeper (level : Level) (message : String) (fields : List (String × Value)) : Option Entry :=
    some { level, message, fields := ("queue", .text (serviceName name)) :: fields }
  let task (id : String) : String × Value := ("task_id", .text id)
  let error (cause : Store.Error) : String × Value := ("error", .text cause.message)
  match event with
  | pushed tasks => shown .debug "Pushed tasks" [("count", .number tasks.length)]
  | queueStarted workers bufferSize =>
      shown .info "Queue started"
        [("workers", .number workers), ("buffer_size", .number bufferSize)]
  | queueStopped => shown .info "Queue stopped" []
  | loopPanicked => shown .warn "Queue loop terminated abnormally" [("error", .text "<panic>")]
  | fetcherStarted => shown .debug "Fetcher started" []
  | popFailed cause => shown .error "Failed to pop task" [error cause]
  | requeueFailed id cause =>
      shown .error "Failed to push popped task back; task is lost" [task id, error cause]
  | claimed claim => shown .debug "Claimed task" [task claim.id]
  | claimFailed _ cause => shown .warn "Failed to claim task" [error cause]
  | released id => shown .debug "Released claimed task" [task id]
  | releaseFailed id cause =>
      shown .error "Failed to release claimed task; it stays claimed until recovered"
        [task id, error cause]
  | fetcherStopped => shown .debug "Fetcher stopped" []
  | workerStarted => shown .debug "Worker started" []
  | completed id elapsed =>
      shown .info "Task completed" [task id, ("elapsed_ms", logMillis elapsed)]
  | timedOut id timeout =>
      shown .warn "Task timed out" [task id, ("timeout_ms", logMillis timeout)]
  | failed id elapsed cause =>
      shown .error "Task failed"
        [task id, ("elapsed_ms", logMillis elapsed), ("error", .text cause)]
  | settleFailed claim cause =>
      shown .error "Failed to settle task; it stays claimed until recovered"
        [task claim.id, error cause]
  | workerStopped => shown .debug "Worker stopped" []
  | recovered id => shown .debug "Recovered stale task" [task id]
  | recoveryFailed id cause => shown .warn "Failed to recover stale task" [task id, error cause]
  | recoveredTotal count => shown .info "Recovered stale tasks" [("count", .number count)]
  | sweeperStarted period maxAge =>
      sweeper .debug "Recovery sweeper started"
        [("period", .text period.text), ("max_age", .text maxAge.text)]
  | swept count => sweeper .info "Recovered stale tasks" [("count", .number count)]
  | sweepFailed cause =>
      sweeper .error "Failed to recover stale tasks" [("error", .text cause.message)]
  | sweeperStopped => sweeper .debug "Recovery sweeper stopped" []
  | popped _ | requeued _ | loaded _ | sent _ | discarded _ | fetcherPanicked | received _
  | called _ | settled _ | workerPanicked _ => none

end Event

end ReliableQueue.Queue
