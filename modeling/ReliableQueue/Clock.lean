import ReliableQueue.Span
import ReliableQueue.Binary64

/-!
Instants of a clock, in nanoseconds since its start. Sleeps are measured in whole
milliseconds: one ends at the first of them at or after its deadline.
-/

namespace ReliableQueue

/-- Nanoseconds since the clock's start. -/
abbrev Instant := Nat

namespace Clock

/-- Seconds that no instant reaches: what a signed 64-bit number leaves after more than
the first hour, in which the clock was started. -/
def horizon : Nat := Nat.pow 2 63 - Nat.pow 2 12

/-- The instant `d` after `now`, if the clock has it. -/
def after? (now : Instant) (d : Span) : Option Instant :=
  if now + d.nanos < horizon * Span.nanosPerSecond then some (now + d.nanos) else none

/-- Thirty years on, where a sleep ends whose own end the clock does not have. -/
def farFuture (now : Instant) : Instant := now + (Span.ofSeconds (86400 * 365 * 30)).nanos

def sleepEnd (now : Instant) (d : Span) : Instant := (after? now d).getD (farFuture now)

/-- The first whole millisecond at or after `t`. -/
def tick (t : Instant) : Instant :=
  (t + Span.nanosPerMilli - 1) / Span.nanosPerMilli * Span.nanosPerMilli

def millis (t : Instant) : Nat := t / Span.nanosPerMilli

/-- Whole seconds since the epoch, `epoch` being the wall clock at the clock's start. -/
def wallSecond (epoch : Nat) (now : Instant) : Nat := (epoch + now) / Span.nanosPerSecond

end Clock

end ReliableQueue
