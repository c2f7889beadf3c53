import ReliableQueue.Clock
import ReliableQueue.Store.Memory

/-!
Pops that wait for a value. A pop looks at its list at once and then again after
every push to any list; it gives up when its deadline has come and nothing was
pushed since its last look.
-/

namespace ReliableQueue.Store

/-- A pop under way. -/
structure Pop where
  deadline : Instant
  /-- The number of pushes at the last look, if there was one. -/
  seen : Option Nat := none
deriving DecidableEq, Repr

/-- What a step of a pop leads to. -/
inductive Pop.Outcome where
  | waiting (p : Pop)
  | done (result : Except Error (Option String))

namespace Pop

/-- Whether the pop looks at its list when it is next run. -/
def isDue (p : Pop) (m : Memory) : Bool := p.seen ≠ some m.pushes

/-- One step, if the pop can take one. -/
def step (p : Pop) (key : String) (now : Instant) (m : Memory) : Option (Outcome × Memory) :=
  if p.isDue m then
    match m.look key with
    | (.error e, m) => some (.done (.error e), m)
    | (.ok (some value), m) => some (.done (.ok (some value)), m)
    | (.ok none, m) => some (.waiting { p with seen := some m.pushes }, m)
  else if p.deadline ≤ now then some (.done (.ok none), m)
  else none

end Pop

end ReliableQueue.Store
