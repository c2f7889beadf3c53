import ReliableQueue.Proofs.Queue.Calls
import ReliableQueue.Proofs.Queue.Traces

/-!
Occurrences of identifiers are conserved. Whatever is pushed or recovered is somewhere, or
has come to one of the ends that events tell of.
-/

namespace ReliableQueue.Queue

variable {name x : String} {c : Cluster}

/-- All that the loops and the channel of a run have. -/
def Run.holds (r : Run) : List String :=
  r.inHand ++ r.channel.buffer.map Claim.id ++ r.working.map Claim.id

namespace Cluster

/-- All that is neither waiting in the store nor gone. -/
def holds (c : Cluster) : List String := c.runs.flatMap Run.holds ++ c.left.map Claim.id

theorem count_holds (c : Cluster) (x : String) :
    c.holds.count x = c.inHand.count x + (c.buffered.map Claim.id).count x +
      (c.working.map Claim.id).count x + (c.left.map Claim.id).count x := by
  simp only [holds, inHand, buffered, working, List.count_append, List.map_flatMap]
  rw [count_flatMap_add (g := fun r => r.inHand ++ r.channel.buffer.map Claim.id)
    (h := fun r => r.working.map Claim.id) (fun r => by simp only [Run.holds, List.count_append]),
    count_flatMap_add (fun r => List.count_append)]

/-- What is held was popped and not claimed, is on the way to a worker, or is with one. -/
theorem count_holds_eq (c : Cluster) (x : String) :
    c.holds.count x =
      (c.stock x).unclaimed + (c.stock x).sending + (c.stock x).working := by
  have hand (r : Run) : (r.inHand ++ r.channel.buffer.map Claim.id).count x =
      r.unclaimed.count x + (r.sending.map Claim.id).count x := by
    simp only [Run.inHand, Run.unclaimed, Run.sending, Fetcher.held?_eq, List.map_append,
      List.count_append]
    cases r.fetcher <;> simp [Fetcher.unclaimed?, Fetcher.claimed?]
  simp only [holds, stock, unclaimed, sending, working, List.map_append, List.map_flatMap,
    List.count_append]
  rw [count_flatMap_add (g := fun r => r.inHand ++ r.channel.buffer.map Claim.id)
    (h := fun r => r.working.map Claim.id) (fun r => by simp only [Run.holds, List.count_append]),
    count_flatMap_add hand]
  omega

/-- What came into being is waiting, held or gone. -/
def Balanced (name x : String) (c : Cluster) : Prop :=
  tally Event.gainedIds c.events x =
    (c.pending name).count x + c.holds.count x + tally Event.goneIds c.events x

variable {epoch : Nat}

theorem balanced (h : Reaches (OnQueue name) (empty epoch) c) (x : String) :
    c.Balanced name x := by
  obtain ⟨backlog, hand, line, work⟩ := accounts h (fun _ _ ok => ok) x
  have held := c.count_holds_eq x
  simp only [stock] at held
  simp only [Balanced, tally_gained, tally_gone, tally_lost]
  omega

/-! ### Calls -/

/-- The received tasks whose calls are to begin. -/
def ready (c : Cluster) : List Claim :=
  c.runs.flatMap fun r => r.workers.flatMap (·.ready?.toList)

theorem count_working (c : Cluster) (x : String) :
    (c.working.map Claim.id).count x =
      (c.ready.map Claim.id).count x + (c.calling.map Claim.id).count x := by
  simp only [working, ready, calling, Run.working, Run.calling, List.map_flatMap]
  refine count_flatMap_add fun r => count_flatMap_add fun w => ?_
  cases w <;> simp [Worker.held?, Worker.ready?, Worker.calling?]

/-- How many occurrences of `x` are on the way to a call. -/
def waiting (name x : String) (c : Cluster) : Nat :=
  (c.pending name).count x + c.inHand.count x + (c.buffered.map Claim.id).count x +
    (c.left.map Claim.id).count x + (c.ready.map Claim.id).count x

/-- Every occurrence that was pushed or recovered is in one place or has come to one end.
So no task is given to an executor more often than it was pushed and recovered; and where
nothing fails to go back, panics or is discarded, every occurrence is given to an executor
or is on the way to one. -/
theorem conserved (h : Reaches (OnQueue name) (empty epoch) c) (x : String) :
    tally Event.pushedIds c.events x + tally Event.recoveredIds c.events x =
        (c.pending name).count x + c.inHand.count x +
          ((c.buffered.map Claim.id).count x + (c.left.map Claim.id).count x) +
          (c.working.map Claim.id).count x +
          (tally Event.endedIds c.events x + tally Event.panickedIds c.events x) +
          tally Event.unqueuedIds c.events x + tally Event.unreleasedIds c.events x +
          tally Event.discardedIds c.events x ∧
      tally Event.calledIds c.events x ≤
        tally Event.pushedIds c.events x + tally Event.recoveredIds c.events x ∧
      (tally Event.unqueuedIds c.events x = 0 → tally Event.unreleasedIds c.events x = 0 →
        tally Event.discardedIds c.events x = 0 → tally Event.panickedIds c.events x = 0 →
        tally Event.calledIds c.events x + c.waiting name x =
          tally Event.pushedIds c.events x + tally Event.recoveredIds c.events x) := by
  have total : c.Balanced name x := balanced h x
  have ⟨lower, upper⟩ := calls_bounds h x
  have working := c.count_working x
  simp only [Balanced, count_holds, tally_gained, tally_gone, tally_lost] at total
  refine ⟨?_, ?_, ?_⟩
  · omega
  · omega
  · intro unqueued unreleased discarded panicked
    simp only [waiting]
    omega

theorem conserved_oneDelivered :
    tally Event.calledIds oneDelivered.events "x" + oneDelivered.waiting "q" "x" =
      tally Event.pushedIds oneDelivered.events "x" +
        tally Event.recoveredIds oneDelivered.events "x" ∧
      tally Event.calledIds oneDelivered.events "x" = 1 := by
  have reached : Reaches (OnQueue "q") (empty 0) oneDelivered :=
    .of_run (by simp [oneDelivery, OnQueue]) run_oneDelivery
  refine ⟨(conserved reached "x").2.2 ?_ ?_ ?_ ?_, ?_⟩
  all_goals decide +kernel

end Cluster

end ReliableQueue.Queue
