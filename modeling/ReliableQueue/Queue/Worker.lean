import ReliableQueue.Queue.Fetcher

/-!
The loop that executes tasks. A call of the executor has a token of its own and, if
there is a timeout, a deadline at which the loop abandons it. Whatever the outcome,
the task is settled: its claim is removed, and its payload if it had one.
-/

namespace ReliableQueue.Queue

/-- A call of the executor under way. -/
structure Execution where
  claim : Claim
  token : Token
  started : Instant
  deadline : Option Instant
deriving DecidableEq

/-- How an executor ends a call. -/
inductive CallResult where
  | succeeded
  | failed (error : String)
  | panicked
deriving DecidableEq, Repr

/-- What became of a call, as the loop sees it. -/
inductive Outcome where
  | succeeded
  | timedOut
  | failed (error : String)
deriving DecidableEq, Repr

/-- An error that comes at the deadline or later counts as a timeout. -/
def Outcome.ofResult (deadline : Option Instant) (now : Instant) : Except String Unit → Outcome
  | .ok () => .succeeded
  | .error e => if deadline.any (· ≤ now) then .timedOut else .failed e

def Outcome.event (options : Options) (call : Execution) (now : Instant) : Outcome → Event
  | .succeeded => .completed call.claim.id ⟨now - call.started⟩
  | .timedOut => .timedOut call.claim.id (options.executionTimeout.getD .zero)
  | .failed e => .failed call.claim.id ⟨now - call.started⟩ e

/-- Removes a claim, and the payload if one was loaded. -/
def settleBatch (keys : Keys) (claim : Claim) : Store.Batch :=
  let b := Store.Batch.empty.zrem keys.processing claim.id
  if claim.payload.isEmpty then b else b.hdel keys.payloads claim.id

inductive Worker where
  | starting
  /-- At the head of the loop, where it looks whether the run is cancelled. -/
  | idle
  /-- The run was not cancelled when the loop looked; it takes what has come meanwhile. -/
  | receiving
  /-- A task was received and its call is to begin. -/
  | beginning (claim : Claim)
  | executing (call : Execution)
  | settling (claim : Claim)
  | stopping
  | stopped
  | panicked
deriving DecidableEq

namespace Worker

def isLive : Worker → Bool
  | stopped | panicked => false
  | _ => true

/-- The task that the loop has received and not settled. -/
def held? : Worker → Option Claim
  | beginning claim | settling claim => some claim
  | executing call => some call.claim
  | _ => none

/-- When the loop abandons a call. -/
def wakeUp? : Worker → Option Instant
  | executing call => call.deadline
  | _ => none

/-- The end of a call that did not panic. -/
def finish (s : Setting) (sh : Shared) (call : Execution) (outcome : Outcome) : Moved Worker :=
  ⟨settling call.claim, { sh with tokens := sh.tokens.cancel call.token },
    [outcome.event s.options call s.now]⟩

/-- The executor ends a call. -/
def returns (s : Setting) (sh : Shared) (result : CallResult) : Worker → Option (Moved Worker)
  | executing call =>
      match result with
      | .succeeded => some (finish s sh call (.ofResult call.deadline s.now (.ok ())))
      | .failed e => some (finish s sh call (.ofResult call.deadline s.now (.error e)))
      | .panicked => some ⟨panicked, sh, [.workerPanicked call.claim]⟩
  | _ => none

/-- One step, if the loop can take one; `senderGone` says that no task will be sent any
more. -/
def step (s : Setting) (sh : Shared) (senderGone : Bool) : Worker → Option (Moved Worker)
  | starting => some ⟨idle, sh, [.workerStarted]⟩
  | idle =>
      if s.isCancelled sh then some ⟨stopping, sh, []⟩ else some ⟨receiving, sh, []⟩
  | receiving =>
      match sh.channel.buffer with
      | claim :: buffer =>
          some ⟨beginning claim, { sh with channel := { sh.channel with buffer } },
            [.received claim]⟩
      | [] =>
          if senderGone || sh.channel.closed then some ⟨stopping, sh, []⟩
          else some ⟨idle, sh, []⟩
  | beginning claim =>
      let (token, tokens) := sh.tokens.child s.token
      let call (deadline : Option Instant) : Moved Worker :=
        ⟨executing { claim, token, started := s.now, deadline }, { sh with tokens },
          [.called claim]⟩
      match s.options.executionTimeout with
      | none => some (call none)
      | some timeout =>
          match Clock.after? s.now timeout with
          | none => some ⟨panicked, sh, [.workerPanicked claim]⟩
          | some deadline => some (call (some deadline))
  | executing call =>
      if call.deadline.any (· ≤ s.now) then some (finish s sh call .timedOut) else none
  | settling claim =>
      match sh.memory.exec (settleBatch s.keys claim) with
      | (.ok (), memory) => some ⟨idle, { sh with memory }, [.settled claim]⟩
      | (.error e, memory) => some ⟨idle, { sh with memory }, [.settleFailed claim e]⟩
  | stopping => some ⟨stopped, sh, [.workerStopped]⟩
  | stopped | panicked => none

end Worker

end ReliableQueue.Queue
