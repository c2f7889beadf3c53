/-!
Cancellation tokens. A token carries the numbers of itself and of the tokens it
descends from, so it is cancelled as soon as one of them is, and never again not.
-/

namespace ReliableQueue

/-- A token: its own number, then those of its ancestors from the nearest on. -/
structure Token where
  lineage : List Nat
deriving DecidableEq, Repr, Inhabited

/-- The tokens given out so far and those that were cancelled themselves. -/
structure Cancellation where
  next : Nat := 0
  cancelled : List Nat := []
deriving DecidableEq, Repr, Inhabited

namespace Cancellation

def fresh (c : Cancellation) : Token × Cancellation :=
  (⟨[c.next]⟩, { c with next := c.next + 1 })

def child (c : Cancellation) (parent : Token) : Token × Cancellation :=
  (⟨c.next :: parent.lineage⟩, { c with next := c.next + 1 })

/-- Cancels a token and with it all that descend from it. -/
def cancel (c : Cancellation) (t : Token) : Cancellation :=
  match t.lineage with
  | [] => c
  | n :: _ => if n ∈ c.cancelled then c else { c with cancelled := n :: c.cancelled }

def isCancelled (c : Cancellation) (t : Token) : Bool :=
  t.lineage.any (c.cancelled.contains ·)

end Cancellation

end ReliableQueue
