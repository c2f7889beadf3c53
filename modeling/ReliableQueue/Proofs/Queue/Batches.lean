import ReliableQueue.Proofs.Store.Contents
import ReliableQueue.Queue.Recovery
import ReliableQueue.Queue.Handle

/-!
The four transactions of a queue: what the backlog, the claims and the payloads are after a
push, a release, a settlement and a recovery.
-/

namespace ReliableQueue.Queue

open Store (Batch Command Contents)

variable (c : Contents) (k : Keys)

/-! ### Push -/

theorem foldl_hset_commands (key : String) (tasks : List Task) (b : Batch) :
    (tasks.foldl (fun (b : Batch) t => b.hset key t.id t.payload) b).commands =
      b.commands ++ tasks.map (fun t => Command.hset key t.id t.payload) := by
  induction tasks generalizing b with
  | nil => simp
  | cons t rest ih =>
      rw [List.foldl_cons, ih]
      simp [Batch.hset, Batch.add]

theorem pushBatch_commands (tasks : List Task) (h : tasks ≠ []) :
    (pushBatch k tasks).commands =
      (tasks.filter Task.hasPayload).map (fun t => Command.hset k.payloads t.id t.payload) ++
        [Command.rpush k.pending (tasks.map Task.id)] := by
  simp [pushBatch, Batch.rpush, Batch.add, foldl_hset_commands, Batch.empty, h]

theorem list_applyAll_hset (key x : String) (tasks : List Task) (c : Contents) :
    (c.applyAll (tasks.map fun t => Command.hset key t.id t.payload)).list x = c.list x := by
  induction tasks generalizing c with
  | nil => rfl
  | cons t rest ih => simp [ih]

theorem score?_applyAll_hset (key x m : String) (tasks : List Task) (c : Contents) :
    (c.applyAll (tasks.map fun t => Command.hset key t.id t.payload)).score? x m =
      c.score? x m := by
  induction tasks generalizing c with
  | nil => rfl
  | cons t rest ih => simp [ih]

theorem pending_push (tasks : List Task) (h : tasks ≠ []) :
    (c.applyAll (pushBatch k tasks).commands).list k.pending =
      c.list k.pending ++ tasks.map Task.id := by
  simp [pushBatch_commands k tasks h, list_applyAll_hset]

theorem score?_push (tasks : List Task) (h : tasks ≠ []) (x m : String) :
    (c.applyAll (pushBatch k tasks).commands).score? x m = c.score? x m := by
  simp [pushBatch_commands k tasks h, score?_applyAll_hset]

/-- The payload of `x` after a push: that of the last task for `x` that has one, if there is
such a task. -/
def lastPayload (x : String) (before : Option Text.Bytes) (tasks : List Task) :
    Option Text.Bytes :=
  (tasks.filter Task.hasPayload).foldl (fun b t => if t.id = x then some t.payload else b) before

theorem field?_applyAll_hset (key x : String) (tasks : List Task) (c : Contents) :
    (c.applyAll (tasks.map fun t => Command.hset key t.id t.payload)).field? key x =
      tasks.foldl (fun b t => if t.id = x then some t.payload else b) (c.field? key x) := by
  induction tasks generalizing c with
  | nil => rfl
  | cons t rest ih => simp [ih, eq_comm]

theorem payload_push (tasks : List Task) (h : tasks ≠ []) (x : String) :
    (c.applyAll (pushBatch k tasks).commands).field? k.payloads x =
      lastPayload x (c.field? k.payloads x) tasks := by
  simp [pushBatch_commands k tasks h, field?_applyAll_hset, lastPayload]

/-! ### Release -/

theorem releaseBatch_commands (id : String) :
    (releaseBatch k id).commands = [.zrem k.processing id, .lpush k.pending id] := rfl

theorem pending_release (id : String) :
    (c.applyAll (releaseBatch k id).commands).list k.pending = id :: c.list k.pending := by
  simp [releaseBatch_commands]

theorem score?_release (id x : String) :
    (c.applyAll (releaseBatch k id).commands).score? k.processing x =
      if x = id then none else c.score? k.processing x := by
  simp [releaseBatch_commands]

theorem field?_release (id key x : String) :
    (c.applyAll (releaseBatch k id).commands).field? key x = c.field? key x := by
  simp [releaseBatch_commands]

/-! ### Settlement -/

theorem settleBatch_commands (claim : Claim) :
    (settleBatch k claim).commands = .zrem k.processing claim.id ::
      if claim.payload.isEmpty then [] else [.hdel k.payloads claim.id] := by
  unfold settleBatch
  split <;> rfl

theorem list_settle (claim : Claim) (x : String) :
    (c.applyAll (settleBatch k claim).commands).list x = c.list x := by
  rw [settleBatch_commands]
  split <;> simp

theorem score?_settle (claim : Claim) (x : String) :
    (c.applyAll (settleBatch k claim).commands).score? k.processing x =
      if x = claim.id then none else c.score? k.processing x := by
  rw [settleBatch_commands]
  split <;> simp

theorem payload_settle (claim : Claim) (x : String) :
    (c.applyAll (settleBatch k claim).commands).field? k.payloads x =
      if x = claim.id ∧ claim.payload ≠ [] then none else c.field? k.payloads x := by
  rw [settleBatch_commands]
  split
  · next empty => simp [List.isEmpty_iff.mp empty]
  · next given => simp [List.isEmpty_eq_false_iff.mp (Bool.eq_false_iff.mpr given)]

/-! ### Recovery -/

theorem recoveryBatch_commands (id : String) :
    (recoveryBatch k id).commands = [.zrem k.processing id, .rpush k.pending [id]] := rfl

theorem pending_recovery (id : String) :
    (c.applyAll (recoveryBatch k id).commands).list k.pending = c.list k.pending ++ [id] := by
  simp [recoveryBatch_commands]

theorem score?_recovery (id x : String) :
    (c.applyAll (recoveryBatch k id).commands).score? k.processing x =
      if x = id then none else c.score? k.processing x := by
  simp [recoveryBatch_commands]

theorem field?_recovery (id key x : String) :
    (c.applyAll (recoveryBatch k id).commands).field? key x = c.field? key x := by
  simp [recoveryBatch_commands]

end ReliableQueue.Queue
