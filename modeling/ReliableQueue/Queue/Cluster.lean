import ReliableQueue.Queue.Sweeper

/-!
Any number of queue handles on one store, with everything that runs on their behalf.
All of it advances in atomic steps, and which process takes the next one is free:
a history of the cluster is any sequence of steps and of acts from outside.
-/

namespace ReliableQueue.Queue

/-- An event with its instant and the handle that it belongs to. -/
structure Record where
  time : Instant
  handle : Nat
  event : Event
deriving DecidableEq

structure Cluster where
  /-- The wall clock at instant 0, in nanoseconds since the epoch. -/
  epoch : Nat := 0
  now : Instant := 0
  memory : Store.Memory := {}
  tokens : Cancellation := {}
  handles : List Handle := []
  runs : List Run := []
  calls : List Call := []
  sweepers : List Sweeper := []
  /-- What happened so far, latest first. -/
  history : List Record := []

/-- Whatever takes steps of its own. -/
inductive Process where
  | fetcher (run : Nat)
  | worker (run index : Nat)
  | call (index : Nat)
  /-- A sweeper that is cancelled may overlook it when a tick is due. -/
  | sweeper (index : Nat) (heeds : Bool)
  /-- The end of a handle that nothing refers to. -/
  | disposal (handle : Nat)
deriving DecidableEq, Repr

namespace Cluster

def empty (epoch : Nat) : Cluster := { epoch }

instance : Inhabited Cluster := ⟨empty 0⟩

def record (c : Cluster) (handle : Nat) (events : List Event) : Cluster :=
  { c with history := events.foldl (fun h event => ⟨c.now, handle, event⟩ :: h) c.history }

def setRun (c : Cluster) (i : Nat) (r : Run) : Cluster := { c with runs := c.runs.set i r }

def setHandle (c : Cluster) (i : Nat) (h : Handle) : Cluster :=
  { c with handles := c.handles.set i h }

def setCall (c : Cluster) (i : Nat) (stage : Stage) : Cluster :=
  { c with calls := c.calls.modify i ({ · with stage }) }

/-- What the loops of a run work with. -/
def setting (c : Cluster) (h : Handle) (r : Run) : Setting :=
  { keys := h.keys, options := h.options, token := r.token, epoch := c.epoch, now := c.now }

def shared (c : Cluster) (r : Run) : Shared :=
  { memory := c.memory, channel := r.channel, tokens := c.tokens }

/-- Puts back run `i` with what its loops share, records the events of the step, and
lets the channel go if nobody has it any more. -/
def settle (c : Cluster) (i : Nat) (r : Run) (sh : Shared) (events : List Event) : Cluster :=
  let (r, lost) := { r with channel := sh.channel }.reap
  ({ c with memory := sh.memory, tokens := sh.tokens }.setRun i r).record r.handle (events ++ lost)

def stepFetcher (c : Cluster) (i : Nat) : Option Cluster := do
  let r ← c.runs[i]?
  let h ← c.handles[r.handle]?
  let moved ← r.fetcher.step (c.setting h r) (c.shared r)
  return c.settle i { r with fetcher := moved.loop } moved.shared moved.events

def stepWorker (c : Cluster) (i j : Nat) : Option Cluster := do
  let r ← c.runs[i]?
  let h ← c.handles[r.handle]?
  let w ← r.workers[j]?
  let moved ← w.step (c.setting h r) (c.shared r) (!r.fetcher.isLive)
  return c.settle i { r with workers := r.workers.set j moved.loop } moved.shared moved.events

/-- The executor ends the call of worker `j` of run `i`. -/
def executorReturns (c : Cluster) (i j : Nat) (result : CallResult) : Option Cluster := do
  let r ← c.runs[i]?
  let h ← c.handles[r.handle]?
  let w ← r.workers[j]?
  let moved ← w.returns (c.setting h r) (c.shared r) result
  return c.settle i { r with workers := r.workers.set j moved.loop } moved.shared moved.events

/-- Lets go of the receiving end that a handle or a stop had. -/
def letGo (c : Cluster) (i : Nat) : Cluster :=
  match c.runs[i]? with
  | none => c
  | some r => c.settle i { r with kept := false } (c.shared r) []

/-- Sets a run going for handle `i`. -/
def launch (c : Cluster) (i : Nat) (h : Handle) (parent : Token) : Cluster :=
  let (token, tokens) := c.tokens.child parent
  let run : Run :=
    { handle := i, token, channel := { capacity := h.options.bufferSize }
      workers := List.replicate h.options.workers .starting }
  let c := { c with tokens, runs := c.runs ++ [run] }
  (c.setHandle i { h with running := true, runtime := some (c.runs.length - 1) }).record i
    [.queueStarted h.options.workers h.options.bufferSize]

/-- The first step of call `n`, which handles what needs no waiting. -/
def enter (c : Cluster) (n i : Nat) (h : Handle) : Request → Option Cluster
  | .push [] => some (c.setCall n (.finished c.now (.ok .done)))
  | .push tasks =>
      match c.memory.exec (pushBatch h.keys tasks) with
      | (.error e, memory) =>
          some ({ c with memory }.setCall n (.finished c.now (.error (.store e))))
      | (.ok (), memory) =>
          let c := { c with memory }.setCall n (.finished c.now (.ok .done))
          some (c.record i [.pushed tasks])
  | .start parent =>
      if h.lock.isSome then none
      else if h.running then some (c.setCall n (.finished c.now (.error .alreadyRunning)))
      else some ((c.launch i h parent).setCall n (.finished c.now (.ok .done)))
  | .stop =>
      if h.lock.isSome then none
      else
        match h.runtime with
        | none => some (c.setCall n (.finished c.now (.ok .done)))
        | some run =>
            match c.runs[run]? with
            | none => none
            | some r =>
                let c := { c with tokens := c.tokens.cancel r.token }
                some ((c.setHandle i { h with runtime := none, lock := some n }).setCall n
                  (.joining run 0))
  | .queueLength =>
      some (c.setCall n (.finished c.now (.ok (.count (c.memory.llen h.keys.pending)))))
  | .processingCount =>
      some (c.setCall n (.finished c.now (.ok (.count (c.memory.zcard h.keys.processing)))))
  | .recover maxAge =>
      match checkMaxAge h.options maxAge with
      | .error e => some (c.setCall n (.finished c.now (.error e)))
      | .ok () => some (c.setCall n (.recovering maxAge .ranging))

/-- A stop has seen loop number `loop` end and goes on to `next`. -/
def joined (c : Cluster) (n i : Nat) (live panicked : Bool) (next : Stage) : Option Cluster :=
  if live then none
  else some ((c.setCall n next).record i (if panicked then [.loopPanicked] else []))

def stepCall (c : Cluster) (n : Nat) : Option Cluster := do
  let call ← c.calls[n]?
  let i := call.handle
  let h ← c.handles[i]?
  match call.stage with
  | .entering request => c.enter n i h request
  | .joining run loop =>
      let r ← c.runs[run]?
      match r.workers[loop]? with
      | some w => c.joined n i w.isLive (w = .panicked) (.joining run (loop + 1))
      | none => c.joined n i r.fetcher.isLive (r.fetcher = .panicked) (.draining run)
  | .draining run =>
      let r ← c.runs[run]?
      return (c.setRun run { r with channel := r.channel.discard }).setCall n
        (.releasing run r.channel.buffer.reverse)
  | .releasing run (claim :: left) =>
      let (event, memory) := release h.keys claim.id c.memory
      return ({ c with memory }.setCall n (.releasing run left)).record i [event]
  | .releasing run [] =>
      return (((c.letGo run).setHandle i { h with running := false, lock := none }).setCall n
        (.finished c.now (.ok .done))).record i [.queueStopped]
  | .recovering maxAge recovery =>
      let (outcome, memory, events) :=
        recovery.step h.keys maxAge (Clock.wallSecond c.epoch c.now) c.memory
      let stage : Stage := match outcome with
        | .going recovery => .recovering maxAge recovery
        | .done (.ok count) => .finished c.now (.ok (.count count))
        | .done (.error e) => .finished c.now (.error (.store e))
      return ({ c with memory }.setCall n stage).record i events
  | .finished .. | .dropped => none

/-- A step of sweeper `k`, which heeds only what there is to heed. -/
def stepSweeper (c : Cluster) (k : Nat) (heeds : Bool) : Option Cluster := do
  let s ← c.sweepers[k]?
  let h ← c.handles[s.handle]?
  if heeds && !c.tokens.isCancelled s.token then none
  else
    let (stage, memory, events) ← s.step h.keys c.epoch c.now heeds c.memory
    return { c with memory, sweepers := c.sweepers.set k { s with stage } }.record s.handle events

/-- Whether a call or a sweeper still needs handle `i`. -/
def isUsed (c : Cluster) (i : Nat) : Bool :=
  c.calls.any (fun call => call.handle = i && call.stage.isLive)
    || c.sweepers.any (fun s => s.handle = i && s.isLive)

/-- The end of a handle cancels its run and gives up the channel. -/
def stepDisposal (c : Cluster) (i : Nat) : Option Cluster := do
  let h ← c.handles[i]?
  if h.owned || h.disposed || c.isUsed i then none
  else
    match h.runtime with
    | none => return c.setHandle i { h with disposed := true }
    | some run =>
        let r ← c.runs[run]?
        let c := c.setHandle i { h with disposed := true, runtime := none }
        return { c with tokens := c.tokens.cancel r.token }.letGo run

/-- One atomic step of a process, if it can take one. -/
def step (c : Cluster) : Process → Option Cluster
  | .fetcher run => c.stepFetcher run
  | .worker run index => c.stepWorker run index
  | .call index => c.stepCall index
  | .sweeper index heeds => c.stepSweeper index heeds
  | .disposal handle => c.stepDisposal handle

/-! ### Acts from outside -/

def addHandle (c : Cluster) (h : Handle) : Cluster := { c with handles := c.handles ++ [h] }

/-- Makes a call; its number is the count of calls before it. -/
def invoke (c : Cluster) (handle : Nat) (request : Request) : Cluster :=
  { c with calls := c.calls ++ [⟨handle, .entering request⟩] }

/-- The caller of `n` gives up waiting. What a stop had taken is lost with it. -/
def abandon (c : Cluster) (n : Nat) : Cluster :=
  match c.calls[n]? with
  | none => c
  | some call =>
    if !call.stage.isLive then c
    else
      let unlock (c : Cluster) : Cluster :=
        { c with handles := c.handles.modify call.handle ({ · with lock := none }) }
      let dropped := c.setCall n .dropped
      match call.stage with
      | .joining run _ | .draining run => (unlock dropped).letGo run
      | .releasing run left =>
          ((unlock dropped).letGo run).record call.handle (left.map (Event.discarded ·.id))
      | _ => dropped

/-- The owner of a handle gives it up. -/
def drop (c : Cluster) (handle : Nat) : Cluster :=
  { c with handles := c.handles.modify handle ({ · with owned := false }) }

def cancel (c : Cluster) (t : Token) : Cluster := { c with tokens := c.tokens.cancel t }

def newToken (c : Cluster) : Token × Cluster :=
  let (t, tokens) := c.tokens.fresh
  (t, { c with tokens })

def failNext (c : Cluster) (point : Store.FaultPoint) (count : Nat) : Cluster :=
  { c with memory := c.memory.failNext point count }

/-- Sets a sweeper going, if its age is accepted. -/
def addSweeper (c : Cluster) (handle : Nat) (token : Token) (config : Sweeper.Config) :
    Except Error Cluster :=
  match c.handles[handle]? with
  | none => .ok c
  | some h =>
    match checkMaxAge h.options config.maxAge with
    | .error e => .error e
    | .ok () => .ok { c with sweepers := c.sweepers ++ [{ handle, token, config }] }

/-- Lets the time pass up to `t`. -/
def elapse (c : Cluster) (t : Instant) : Cluster := { c with now := max c.now t }

end Cluster

end ReliableQueue.Queue
