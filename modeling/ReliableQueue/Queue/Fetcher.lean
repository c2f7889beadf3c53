import ReliableQueue.Cancellation
import ReliableQueue.Queue.Event
import ReliableQueue.Queue.Options
import ReliableQueue.Store.Pop

/-!
The loop that claims tasks. It pops an identifier, loads the payload, stamps the
claim with the current second and sends the task to the workers. A claim that fails
goes back to the head of the backlog, as does a task in hand when the run is
cancelled. Every step makes at most one store access, and the look whether the run is
cancelled is a step of its own.
-/

namespace ReliableQueue.Queue

/-- What the loops of a run share. -/
structure Shared where
  memory : Store.Memory
  channel : Channel
  tokens : Cancellation

/-- A loop after a step, with what it shares and the events of the step. -/
structure Moved (σ : Type) where
  loop : σ
  shared : Shared
  events : List Event := []

/-- What does not change while a run lasts, and the time. -/
structure Setting where
  keys : Keys
  options : Options
  token : Token
  /-- The wall clock at instant 0, in nanoseconds since the epoch. -/
  epoch : Nat
  now : Instant

namespace Setting

def isCancelled (s : Setting) (sh : Shared) : Bool := sh.tokens.isCancelled s.token

/-- The stamp of a claim made now: the whole second of the wall clock. -/
def stamp (s : Setting) : Binary64 := .ofNat (Clock.wallSecond s.epoch s.now)

end Setting

inductive Fetcher where
  | starting
  /-- At the head of the loop. -/
  | checking
  | popping (pop : Store.Pop)
  /-- An identifier was popped. -/
  | holding (id : String)
  /-- It goes back since the run is cancelled. -/
  | returning (id : String)
  | loading (id : String)
  | stamping (claim : Claim)
  /-- It goes back since its claim failed. -/
  | undoing (id : String) (cause : Store.Error)
  /-- A task was claimed; the loop looks whether the run is cancelled. -/
  | offering (claim : Claim)
  /-- It was not cancelled then; the task is sent if there is room in the channel. -/
  | sending (claim : Claim)
  | releasing (claim : Claim)
  /-- After a store failure. -/
  | pausing (resume : Instant)
  | stopping
  | stopped
  | panicked
deriving DecidableEq

/-- Undoes a claim and puts its identifier before the head of the backlog. -/
def releaseBatch (keys : Keys) (id : String) : Store.Batch :=
  (Store.Batch.empty.zrem keys.processing id).lpush keys.pending id

/-- Runs the release of one claimed task. -/
def release (keys : Keys) (id : String) (m : Store.Memory) : Event × Store.Memory :=
  match m.exec (releaseBatch keys id) with
  | (.ok (), m) => (.released id, m)
  | (.error e, m) => (.releaseFailed id e, m)

/-- Puts an identifier that was not claimed before the head of the backlog. -/
def requeue (keys : Keys) (id : String) (m : Store.Memory) : Event × Store.Memory :=
  match m.lpush keys.pending id with
  | (.ok (), m) => (.requeued id, m)
  | (.error e, m) => (.requeueFailed id e, m)

namespace Fetcher

def isLive : Fetcher → Bool
  | stopped | panicked => false
  | _ => true

/-- The identifier that the loop has taken from the backlog and not passed on. -/
def held? : Fetcher → Option String
  | holding id | returning id | loading id | undoing id _ => some id
  | stamping claim | offering claim | sending claim | releasing claim => some claim.id
  | _ => none

/-- When the loop goes on by itself, if it waits for that. -/
def wakeUp? : Fetcher → Option Instant
  | popping pop => some pop.deadline
  | pausing resume => some resume
  | _ => none

/-- The pause after a store failure. -/
def pause (s : Setting) : Fetcher := .pausing (Clock.sleepEnd s.now s.options.pollInterval)

/-- One step, if the loop can take one. -/
def step (s : Setting) (sh : Shared) : Fetcher → Option (Moved Fetcher)
  | starting => some ⟨checking, sh, [.fetcherStarted]⟩
  | checking =>
      if s.isCancelled sh then some ⟨stopping, sh, []⟩
      else
        match Clock.after? s.now s.options.pollInterval with
        | none => some ⟨panicked, sh, [.fetcherPanicked]⟩
        | some deadline => some ⟨popping { deadline }, sh, []⟩
  | popping pop =>
      match pop.step s.keys.pending s.now sh.memory with
      | none => none
      | some (.waiting pop, memory) => some ⟨popping pop, { sh with memory }, []⟩
      | some (.done (.error e), memory) => some ⟨pause s, { sh with memory }, [.popFailed e]⟩
      | some (.done (.ok none), memory) => some ⟨checking, { sh with memory }, []⟩
      | some (.done (.ok (some id)), memory) =>
          some ⟨holding id, { sh with memory }, [.popped id]⟩
  | holding id =>
      if s.isCancelled sh then some ⟨returning id, sh, []⟩ else some ⟨loading id, sh, []⟩
  | returning id =>
      let (event, memory) := requeue s.keys id sh.memory
      some ⟨stopping, { sh with memory }, [event]⟩
  | loading id =>
      match sh.memory.hget s.keys.payloads id with
      | (.error e, memory) => some ⟨undoing id e, { sh with memory }, []⟩
      | (.ok payload, memory) =>
          let claim : Claim := ⟨id, payload.getD []⟩
          some ⟨stamping claim, { sh with memory }, [.loaded claim]⟩
  | stamping claim =>
      match sh.memory.zadd s.keys.processing claim.id s.stamp with
      | (.error e, memory) => some ⟨undoing claim.id e, { sh with memory }, []⟩
      | (.ok (), memory) => some ⟨offering claim, { sh with memory }, [.claimed claim]⟩
  | undoing id e =>
      let (event, memory) := requeue s.keys id sh.memory
      some ⟨pause s, { sh with memory }, [event, .claimFailed id e]⟩
  | offering claim =>
      if s.isCancelled sh then some ⟨releasing claim, sh, []⟩ else some ⟨sending claim, sh, []⟩
  | sending claim =>
      if sh.channel.closed then some ⟨releasing claim, sh, []⟩
      else if sh.channel.hasRoom then
        some ⟨checking, { sh with channel := sh.channel.send claim }, [.sent claim]⟩
      else some ⟨offering claim, sh, []⟩
  | releasing claim =>
      let (event, memory) := release s.keys claim.id sh.memory
      some ⟨stopping, { sh with memory }, [event]⟩
  | pausing resume =>
      if s.isCancelled sh then some ⟨stopping, sh, []⟩
      else if resume ≤ s.now then some ⟨checking, sh, []⟩
      else none
  | stopping => some ⟨stopped, sh, [.fetcherStopped]⟩
  | stopped | panicked => none

end Fetcher

end ReliableQueue.Queue
