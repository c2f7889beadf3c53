import ReliableQueue.Queue.Options
import ReliableQueue.Queue.Sweeper

/-!
The settings of a worker process and their defaults.
-/

namespace ReliableQueue.Config

structure RedisSettings where
  url : String
deriving DecidableEq, Repr

/-- Zeros are kept; the queue has its own defaults for them. -/
structure QueueSettings where
  name : String
  workers : Nat := 10
  bufferSize : Nat := 100
  executionTimeoutSeconds : Nat := 30
  pollIntervalMillis : Nat := 1000
deriving DecidableEq, Repr

structure RecoverySettings where
  enabled : Bool := true
  intervalSeconds : Nat := 60
  maxAgeSeconds : Nat := 300
deriving DecidableEq, Repr

structure LoggingSettings where
  filter : String := "taskqueue=info"
  json : Bool := false
deriving DecidableEq, Repr

structure Settings where
  redis : RedisSettings
  queue : QueueSettings
  recovery : RecoverySettings := {}
  logging : LoggingSettings := {}
deriving DecidableEq, Repr

namespace QueueSettings

def executionTimeout (s : QueueSettings) : Span := .ofSeconds s.executionTimeoutSeconds

def pollInterval (s : QueueSettings) : Span := .ofMillis s.pollIntervalMillis

/-- The default options with all settings applied. -/
def options (s : QueueSettings) : Queue.Options :=
  Queue.Options.default.setWorkers s.workers
    |>.setBufferSize s.bufferSize
    |>.setExecutionTimeout s.executionTimeout
    |>.setPollInterval s.pollInterval

end QueueSettings

namespace RecoverySettings

def interval (s : RecoverySettings) : Span := .ofSeconds s.intervalSeconds

def maxAge (s : RecoverySettings) : Span := .ofSeconds s.maxAgeSeconds

def sweeper (s : RecoverySettings) : Queue.Sweeper.Config := ⟨s.interval, s.maxAge⟩

end RecoverySettings

end ReliableQueue.Config
