import ReliableQueue.Binary64

/-!
When a failed call is repeated and after which pause: the pause grows by a factor
with every attempt and is cut off at a maximum once it has been computed.
-/

namespace ReliableQueue.Retry

structure Policy where
  /-- Repetitions after the first call. -/
  maxRetries : Nat := 3
  initialDelay : Span := .ofMillis 100
  maxDelay : Span := .ofSeconds 5
  multiplier : Binary64 := .ofNat 2
deriving DecidableEq

namespace Policy

instance : Inhabited Policy := ⟨{}⟩

/-- An attempt number as a signed 32-bit exponent. -/
def exponent (attempt : Nat) : Int :=
  if attempt < Nat.pow 2 31 then attempt else (attempt : Int) - UInt32.size

/-- The pause after attempt number `attempt`, the first being 0. There is none if the
uncut pause is no span. -/
def delay (p : Policy) (attempt : Nat) : Except Binary64.SpanError Span :=
  if p.maxRetries ≤ attempt then .ok p.maxDelay
  else
    match (Binary64.ofSpan p.initialDelay * p.multiplier.power (exponent attempt)).toSpan with
    | .error e => .error e
    | .ok d => .ok (if p.maxDelay < d then p.maxDelay else d)

def shouldRetry (p : Policy) (attempt : Nat) : Bool := attempt < p.maxRetries

end Policy

/-- The end of a call all of whose attempts failed. -/
structure Exhausted where
  attempts : Nat
  lastError : String
deriving DecidableEq, Repr

def Exhausted.message (e : Exhausted) : String :=
  "task failed after " ++ toString e.attempts ++ " attempts: " ++ e.lastError

end ReliableQueue.Retry
