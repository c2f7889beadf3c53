import ReliableQueue.Queue.Worker

/-!
Recovery of abandoned claims. The claims up to a cutoff are looked up in one access
and then moved back to the tail of the backlog one by one; entries whose move fails
are skipped.
-/

namespace ReliableQueue.Queue

/-- Refuses ages that do not exceed the execution timeout. -/
def checkMaxAge (o : Options) (maxAge : Span) : Except Error Unit :=
  let timeout := o.executionTimeout.getD .zero
  if maxAge ≤ timeout then .error (.maxAgeTooSmall maxAge timeout) else .ok ()

/-- The latest stamp that counts as abandoned when the wall clock shows `second`. -/
def cutoff (second : Nat) (maxAge : Span) : Binary64 := .ofNat second - .ofSpan maxAge

/-- Moves one claim back to the tail of the backlog. -/
def recoveryBatch (keys : Keys) (id : String) : Store.Batch :=
  (Store.Batch.empty.zrem keys.processing id).rpush keys.pending [id]

/-- A recovery under way. -/
inductive Recovery where
  | ranging
  | restoring (left : List String) (count : Nat)
deriving DecidableEq

inductive Recovery.Outcome where
  | going (r : Recovery)
  | done (result : Except Store.Error Nat)

namespace Recovery

/-- One step; `second` is what the wall clock shows. -/
def step (keys : Keys) (maxAge : Span) (second : Nat) (m : Store.Memory) :
    Recovery → Outcome × Store.Memory × List Event
  | ranging =>
      match m.zrangebyscore keys.processing (cutoff second maxAge) with
      | (.error e, m) => (.done (.error e), m, [])
      | (.ok ids, m) => (.going (restoring ids 0), m, [])
  | restoring [] count =>
      (.done (.ok count), m, if count = 0 then [] else [.recoveredTotal count])
  | restoring (id :: left) count =>
      match m.exec (recoveryBatch keys id) with
      | (.ok (), m) => (.going (restoring left (count + 1)), m, [.recovered id])
      | (.error e, m) => (.going (restoring left count), m, [.recoveryFailed id e])

end Recovery

end ReliableQueue.Queue
