import ReliableQueue.Queue.Cluster
import ReliableQueue.Scenario.Executor
import ReliableQueue.Scenario.Schedule

/-!
One queue on a store in memory, with a scripted executor, on a clock that moves only
when nothing can run. A call of the executor that can end at the instant of its
timeout ends first.
-/

namespace ReliableQueue.Scenario

open Queue
open Text (Bytes)

/-- The performance of the call that worker `index` of run `run` is making. -/
structure Casting where
  run : Nat
  index : Nat
  token : Token
  performance : Performance

/-- A queue with its executor. -/
structure Stage where
  cluster : Cluster
  executor : Executor
  casts : List Casting := []
  /-- The process that took the last step and goes on first. -/
  current : Option Process := none

namespace Stage

/-- All processes that may take steps. -/
def processes (c : Cluster) : List Process :=
  let runs := (c.runs.zipIdx.filter fun (r, _) => r.isLive).flatMap fun (r, i) =>
    (List.range r.workers.length).map (Process.worker i) ++ [.fetcher i]
  let calls := (c.calls.zipIdx.filter fun (call, _) => call.stage.isLive).map fun (_, n) => .call n
  let sweepers := (c.sweepers.zipIdx.filter fun (s, _) => s.isLive).map fun (s, k) =>
    .sweeper k (c.tokens.isCancelled s.token)
  let handles := (c.handles.zipIdx.filter fun (h, _) => !h.disposed && !h.owned).map fun (_, i) =>
    .disposal i
  runs ++ calls ++ sweepers ++ handles

/-- The call that worker `j` of run `i` is making. -/
def execution? (c : Cluster) (i j : Nat) : Option Execution :=
  match c.runs[i]?.bind (·.workers[j]?) with
  | some (.executing call) => some call
  | _ => none

/-- Begins the performance of a call that the last step started and drops the one of a
call that it abandoned. -/
def cast (s : Stage) (i j : Nat) : Stage :=
  let isHere (x : Casting) : Bool := x.run = i && x.index = j
  match execution? s.cluster i j, s.casts.find? isHere with
  | some call, none =>
      let now := s.cluster.now
      let cancelled := s.cluster.tokens.isCancelled call.token
      let (performance, executor) :=
        s.executor.begin now cancelled call.claim.id call.claim.payload call.deadline
      { s with executor, casts := s.casts ++ [⟨i, j, call.token, performance⟩] }
  | none, some x =>
      { s with
        executor := s.executor.drop s.cluster.now x.performance
        casts := s.casts.filter (!isHere ·) }
  | _, _ => s

/-- Takes a performance further, if one can go on. -/
def perform? (s : Stage) : Option Stage :=
  s.casts.zipIdx.findSome? fun (x, k) =>
    let cancelled := s.cluster.tokens.isCancelled x.token
    match s.executor.advance s.cluster.now cancelled x.performance with
    | none => none
    | some (.inl performance, executor) =>
        some { s with executor, casts := s.casts.set k { x with performance } }
    | some (.inr verdict, executor) =>
        let result : CallResult := match verdict with
          | .succeeded => .succeeded
          | .failed message => .failed message
          | .exhausted cause => .failed cause.message
          | .panicked => .panicked
        let cluster := (s.cluster.executorReturns x.run x.index result).getD s.cluster
        some { s with
          cluster, executor, casts := s.casts.eraseIdx k
          current := some (.worker x.run x.index) }

/-- Whether a loop looks if its run is cancelled, to turn to the channel if it is not. -/
def isLooking (c : Cluster) : Process → Bool
  | .fetcher i =>
      match c.runs[i]?.map Run.fetcher with
      | some (.offering _) => true
      | _ => false
  | .worker i j => c.runs[i]?.bind (·.workers[j]?) = some .idle
  | _ => false

/-- What a process does at one go. The channel comes right after the look, and a loop that
is to look again has to wait. -/
def poll? (c : Cluster) (p : Process) : Option Cluster :=
  if isLooking c p then ((c.step p).bind (·.step p)).filter (!isLooking · p) else c.step p

/-- The stage after process `p` has gone on, if it can. -/
def stepOf? (s : Stage) (p : Process) : Option Stage :=
  match poll? s.cluster p with
  | none => none
  | some cluster =>
      let s := { s with cluster, current := some p }
      match p with
      | .worker i j => some (s.cast i j)
      | _ => some s

/-- The current process goes on until it has to wait; then the others come first. -/
def step? (s : Stage) : Option Stage :=
  match s.perform? with
  | some s => some s
  | none =>
    match s.current.bind s.stepOf? with
    | some s => some s
    | none => (processes s.cluster).findSome? s.stepOf?

def schedule : Schedule Stage where
  now s := s.cluster.now
  elapse s t := { s with cluster := s.cluster.elapse t, current := none }
  step := step?
  wakeUps s :=
    (s.cluster.runs.filter Run.isLive).flatMap
        (fun r => r.fetcher.wakeUp?.toList ++ r.workers.filterMap Worker.wakeUp?)
      ++ s.cluster.sweepers.filterMap Sweeper.wakeUp?
      ++ s.casts.filterMap (·.performance.wakeUp?)

end Stage

inductive QueueAct where
  | request (r : Request) (background : Option String)
  /-- Start under the current parent token. -/
  | start (background : Option String)
  | info
  | join (name : String)
  | advance (time : Span)
  | cancelParent
  | newParent
  | openGate
  | drop
  | sweeper (config : Sweeper.Config)
  | cancelSweepers
  | fail (point : Store.FaultPoint) (count : Nat)
  | zadd (id : String) (score : Binary64)
  | lpush (id : String)
  | pop
  | hget (id : String)
  | exec (batch : Store.Batch)

inductive QueueAnswer where
  | nothing
  | reply (r : Except Queue.Error Reply)
  | joined (time : Instant) (r : Except Queue.Error Reply)
  | description (h : Handle)
  | stored (r : Except Store.Error Unit)
  | value (r : Except Store.Error (Option String))
  | bytes (r : Except Store.Error (Option Bytes))
  /-- The handle was given up before. -/
  | dropped
  | blocked

/-- A queue under trial, with the parent token of its starts and the token of its sweepers. -/
structure QueueTrial where
  stage : Stage
  parent : Token
  sweepers : Token
  /-- Names of background calls with the numbers of the calls. -/
  background : List (String × Nat) := []

namespace QueueTrial

/-- The setting of a trial. -/
structure Scene where
  name : String
  options : Options
  script : Script
  policy : Option Retry.Policy := none
  /-- The wall clock at the start, in milliseconds since the epoch. -/
  epochMillis : Nat

def ofScene (scene : Scene) : Except Queue.Error QueueTrial := do
  let h ← Handle.build scene.name true true scene.options
  let c := (Cluster.empty (scene.epochMillis * Span.nanosPerMilli)).addHandle h
  let (parent, c) := c.newToken
  let (sweepers, c) := c.newToken
  let executor : Executor := { script := scene.script, policy := scene.policy }
  return { stage := { cluster := c, executor }, parent, sweepers }

def cluster (s : QueueTrial) : Cluster := s.stage.cluster

def now (s : QueueTrial) : Instant := s.cluster.now

def handle? (s : QueueTrial) : Option Handle := s.cluster.handles[0]?

def setCluster (s : QueueTrial) (c : Cluster) : QueueTrial :=
  { s with stage := { s.stage with cluster := c } }

def settle (s : QueueTrial) : QueueTrial :=
  { s with stage := Stage.schedule.settle stepLimit s.stage }

/-- The result of call `n` with the instant of its end, if it has ended. -/
def result? (st : Stage) (n : Nat) : Option (Instant × Except Queue.Error Reply) :=
  match st.cluster.calls[n]? with
  | some ⟨_, .finished time r⟩ => some (time, r)
  | _ => none

def isOwned (s : QueueTrial) : Bool := s.handle?.any Handle.owned

/-- Waits for call `n` as long as patience lasts. -/
def await (s : QueueTrial) (n : Nat) : QueueTrial :=
  { s with stage := Stage.schedule.await (fun st => (result? st n).isSome) s.stage }

/-- Makes a call of the queue. -/
def request (s : QueueTrial) (r : Request) (background : Option String) :
    QueueAnswer × QueueTrial :=
  if !s.isOwned then (.dropped, s)
  else
    let n := s.cluster.calls.length
    let s := s.setCluster (s.cluster.invoke 0 r)
    match background with
    | some name => (.nothing, { s with background := (name, n) :: s.background }.settle)
    | none =>
      let s := s.await n
      match result? s.stage n with
      | some (_, r) => (.reply r, s)
      | none => (.blocked, (s.setCluster (s.cluster.abandon n)).settle)

def withMemory (s : QueueTrial) (m : Store.Memory) : QueueTrial :=
  (s.setCluster { s.cluster with memory := m }).settle

def keys (s : QueueTrial) : Keys := (s.handle?.map Handle.keys).getD (.ofName "")

def act (s : QueueTrial) : QueueAct → QueueAnswer × QueueTrial
  | .request r background => s.request r background
  | .start background => s.request (.start s.parent) background
  | .info =>
      match s.handle? with
      | some h => if h.owned then (.description h, s) else (.dropped, s)
      | none => (.dropped, s)
  | .join name =>
      match s.background.lookup name with
      | none => (.nothing, s)
      | some n =>
          let s := { s with background := s.background.eraseP (·.1 = name) }.await n
          match result? s.stage n with
          | some (time, r) => (.joined time r, s)
          | none => (.blocked, s)
  | .advance d => (.nothing, { s with stage := Stage.schedule.advance d s.stage })
  | .cancelParent => (.nothing, (s.setCluster (s.cluster.cancel s.parent)).settle)
  | .newParent =>
      let (parent, c) := s.cluster.newToken
      (.nothing, { s.setCluster c with parent })
  | .openGate =>
      let executor := { s.stage.executor with gateOpen := true }
      (.nothing, { s with stage := { s.stage with executor } }.settle)
  | .drop => (.nothing, (s.setCluster (s.cluster.drop 0)).settle)
  | .sweeper config =>
      if !s.isOwned then (.dropped, s)
      else
        match s.cluster.addSweeper 0 s.sweepers config with
        | .error e => (.reply (.error e), s)
        | .ok c => (.nothing, (s.setCluster c).settle)
  | .cancelSweepers =>
      let s := (s.setCluster (s.cluster.cancel s.sweepers)).settle
      let (sweepers, c) := s.cluster.newToken
      (.nothing, { s.setCluster c with sweepers })
  | .fail point count => (.nothing, s.setCluster (s.cluster.failNext point count))
  | .zadd id score =>
      let (r, m) := s.cluster.memory.zadd s.keys.processing id score
      (.stored r, s.withMemory m)
  | .lpush id =>
      let (r, m) := s.cluster.memory.lpush s.keys.pending id
      (.stored r, s.withMemory m)
  | .pop =>
      let (r, m) := s.cluster.memory.look s.keys.pending
      (.value r, s.withMemory m)
  | .hget id =>
      let (r, m) := s.cluster.memory.hget s.keys.payloads id
      (.bytes r, s.withMemory m)
  | .exec batch =>
      let (r, m) := s.cluster.memory.exec batch
      (.stored r, s.withMemory m)

/-- What a trial shows after an act. -/
structure Picture where
  time : Instant
  running : Option Bool
  pending : List String
  processing : List (String × Binary64)
  payloads : Nat
  starts : List Start
  ends : List End
  log : List (Nat × Logging.Entry)

/-- The log entries since then, as far as `shown` wants them. -/
def logSince (s : QueueTrial) (shown : Option Logging.Level) (events notices : Nat) :
    List (Nat × Logging.Entry) :=
  let c := s.cluster
  let fromEvents := (c.history.take (c.history.length - events)).filterMap fun r =>
    (r.event.entry? ((c.handles[r.handle]?.map Handle.name).getD "")).map (Clock.millis r.time, ·)
  let log := s.stage.executor.log
  let fromCalls := (log.take (log.length - notices)).map fun (t, e) => (Clock.millis t, e)
  match shown with
  | none => []
  | some level =>
      Logging.arrange
        ((fromEvents ++ fromCalls).filter (fun (_, e) => e.level.verbosity ≤ level.verbosity))

/-- What is to be seen after an act on `before` that led to `s`. -/
def picture (before s : QueueTrial) (shown : Option Logging.Level) : Picture :=
  let ex := s.stage.executor
  let old := before.stage.executor
  { time := s.now
    running := if s.isOwned then s.handle?.map Handle.running else none
    pending := s.cluster.memory.contents.list s.keys.pending
    processing := (s.cluster.memory.contents.sortedSet s.keys.processing).sorted
    payloads := s.cluster.memory.hashLength s.keys.payloads
    starts := (ex.starts.take (ex.starts.length - old.starts.length)).reverse
    ends := arrangeEnds (ex.ends.take (ex.ends.length - old.ends.length))
    log := s.logSince shown before.cluster.history.length old.log.length }

/-- The answers and pictures of a sequence of acts. -/
def play (s : QueueTrial) (shown : Option Logging.Level) :
    List QueueAct → List (QueueAnswer × Picture)
  | [] => []
  | a :: rest =>
      let (answer, after) := s.act a
      (answer, picture s after shown) :: play after shown rest

end QueueTrial

end ReliableQueue.Scenario
