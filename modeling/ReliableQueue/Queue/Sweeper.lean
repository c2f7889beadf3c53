import ReliableQueue.Queue.Handle

/-!
The loop that recovers abandoned claims at regular instants until it is cancelled.
-/

namespace ReliableQueue.Queue

namespace Sweeper

structure Config where
  interval : Span := .ofSeconds 60
  maxAge : Span := .ofSeconds 300
deriving DecidableEq

/-- The time between sweeps; zero stands for the default. -/
def Config.period (c : Config) : Span :=
  if c.interval.isZero then ({} : Config).interval else c.interval

inductive Stage where
  | starting
  | waiting (tick : Instant)
  | sweeping (recovery : Recovery) (next : Instant)
  | stopping
  | stopped
  | panicked
deriving DecidableEq

/-- How late a tick may be without shifting the ones after it. -/
def lateness : Nat := 5 * Span.nanosPerMilli

/-- The tick after one that was due at `tick` and came at `now`. After a late one the clock
has to have it. -/
def nextTick (period : Span) (tick now : Instant) : Option Instant :=
  if tick + lateness < now then Clock.after? now period
  else some ((Clock.after? tick period).getD (Clock.farFuture now))

end Sweeper

structure Sweeper where
  handle : Nat
  token : Token
  config : Sweeper.Config
  stage : Sweeper.Stage := .starting
deriving DecidableEq

namespace Sweeper

def isLive (s : Sweeper) : Bool :=
  match s.stage with
  | .stopped | .panicked => false
  | _ => true

def wakeUp? (s : Sweeper) : Option Instant :=
  match s.stage with
  | .waiting tick => some tick
  | _ => none

/-- One step, if the loop can take one; `heeds` says that it ends since it is cancelled. -/
def step (s : Sweeper) (keys : Keys) (epoch : Nat) (now : Instant) (heeds : Bool)
    (m : Store.Memory) : Option (Stage × Store.Memory × List Event) :=
  match s.stage with
  | .starting =>
      some (.waiting now, m, [.sweeperStarted s.config.period s.config.maxAge])
  | .waiting tick =>
      if heeds then some (.stopping, m, [])
      else if tick ≤ now then
        match nextTick s.config.period tick now with
        | some next => some (.sweeping .ranging next, m, [])
        | none => some (.panicked, m, [])
      else none
  | .sweeping recovery next =>
      match recovery.step keys s.config.maxAge (Clock.wallSecond epoch now) m with
      | (.going recovery, m, events) => some (.sweeping recovery next, m, events)
      | (.done (.ok count), m, events) =>
          some (.waiting next, m, events ++ if count = 0 then [] else [.swept count])
      | (.done (.error e), m, events) =>
          some (.waiting next, m, events ++ [.sweepFailed (.store e)])
  | .stopping => some (.stopped, m, [.sweeperStopped])
  | .stopped | .panicked => none

end Sweeper

end ReliableQueue.Queue
