import ReliableQueue.Text.Hex

/-!
The bounded channel between the fetcher and the workers of a run.
-/

namespace ReliableQueue.Queue

/-- A claimed task with the payload that was stored for it. -/
structure Claim where
  id : String
  payload : Text.Bytes
deriving DecidableEq, Repr

structure Channel where
  capacity : Nat
  /-- Tasks sent and not received, oldest first. -/
  buffer : List Claim := []
  /-- Nothing can be sent any more. -/
  closed : Bool := false
deriving DecidableEq, Repr

namespace Channel

def hasRoom (ch : Channel) : Bool := ch.buffer.length < ch.capacity

def send (ch : Channel) (claim : Claim) : Channel :=
  { ch with buffer := ch.buffer ++ [claim] }

/-- Closes the channel and forgets what it holds. -/
def discard (ch : Channel) : Channel := { ch with buffer := [], closed := true }

end Channel

end ReliableQueue.Queue
