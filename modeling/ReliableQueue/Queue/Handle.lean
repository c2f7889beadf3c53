import ReliableQueue.Queue.Recovery

/-!
Queue handles, the runs that they start, and the calls made on them.
-/

namespace ReliableQueue.Queue

structure Handle where
  name : String
  options : Options
  running : Bool := false
  /-- The run that the next stop ends. -/
  runtime : Option Nat := none
  /-- The call that starts or stops the queue right now. -/
  lock : Option Nat := none
  /-- Whether its owner still has the handle. -/
  owned : Bool := true
  /-- Nothing refers to the handle any more. -/
  disposed : Bool := false
deriving DecidableEq

namespace Handle

def keys (h : Handle) : Keys := .ofName h.name

def serviceName (h : Handle) : String := Event.serviceName h.name

/-- A handle, if the parts that it needs are given. -/
def build (name : String) (hasStore hasExecutor : Bool) (options : Options) : Except Error Handle :=
  if !hasStore then .error .noStore
  else if name.isEmpty then .error .emptyName
  else if !hasExecutor then .error .noExecutor
  else .ok { name, options }

/-- The diagnostic form. -/
def debug (h : Handle) : String :=
  "Queue \x7b name: " ++ Text.quoted h.name ++ ", keys: " ++ h.keys.debug ++ ", options: "
    ++ h.options.debug ++ ", running: " ++ (if h.running then "true" else "false") ++ ", .. \x7d"

end Handle

/-- What one start of a queue set going. -/
structure Run where
  handle : Nat
  token : Token
  channel : Channel
  fetcher : Fetcher := .starting
  workers : List Worker
  /-- The handle or a stop still has the receiving end of the channel. -/
  kept : Bool := true
deriving DecidableEq

namespace Run

/-- The channel goes away when neither the handle nor a worker has its receiving end. -/
def isAbandoned (r : Run) : Bool := !r.kept && !r.workers.any Worker.isLive

/-- A run whose channel went away, with the tasks lost in it. -/
def reap (r : Run) : Run × List Event :=
  if r.isAbandoned then
    ({ r with channel := r.channel.discard }, r.channel.buffer.map (Event.discarded ·.id))
  else (r, [])

def isLive (r : Run) : Bool := r.fetcher.isLive || r.workers.any Worker.isLive

end Run

/-- What callers ask of a queue. -/
inductive Request where
  | push (tasks : List Task)
  | start (parent : Token)
  | stop
  | queueLength
  | processingCount
  | recover (maxAge : Span)
deriving DecidableEq

inductive Reply where
  | done
  | count (n : Nat)
deriving DecidableEq, Repr

/-- Where a call stands. A stop takes the run, cancels it, waits for its loops one
after the other, empties the channel and releases what was in it, last task first. -/
inductive Stage where
  | entering (request : Request)
  | joining (run loop : Nat)
  | draining (run : Nat)
  | releasing (run : Nat) (left : List Claim)
  | recovering (maxAge : Span) (recovery : Recovery)
  | finished (time : Instant) (result : Except Error Reply)
  /-- Its caller has given up waiting. -/
  | dropped

namespace Stage

def isLive : Stage → Bool
  | finished .. | dropped => false
  | _ => true

end Stage

structure Call where
  handle : Nat
  stage : Stage

/-- Writes the payloads that are not empty, then appends all identifiers. -/
def pushBatch (keys : Keys) (tasks : List Task) : Store.Batch :=
  let payloads := (tasks.filter Task.hasPayload).foldl
    (fun (b : Store.Batch) t => b.hset keys.payloads t.id t.payload) Store.Batch.empty
  payloads.rpush keys.pending (tasks.map Task.id)

end ReliableQueue.Queue
