import ReliableQueue.Proofs.Queue.Places

/-!
How often an identifier occurs in the events of a history.
-/

namespace ReliableQueue.Queue

namespace Event

/-! ### Identifiers that an event names -/

@[simp] def pushedIds : Event → List String
  | pushed tasks => tasks.map Task.id
  | _ => []

@[simp] def recoveredIds : Event → List String
  | recovered id => [id]
  | _ => []

@[simp] def poppedIds : Event → List String
  | popped id => [id]
  | _ => []

/-- Identifiers that went back to the backlog before they were claimed. -/
@[simp] def requeuedIds : Event → List String
  | requeued id => [id]
  | _ => []

/-- Identifiers whose claims were undone by the transaction that put them back. -/
@[simp] def releasedIds : Event → List String
  | released id => [id]
  | _ => []

/-- The payload was looked up. -/
@[simp] def loadedIds : Event → List String
  | loaded claim => [claim.id]
  | _ => []

@[simp] def receivedIds : Event → List String
  | received claim => [claim.id]
  | _ => []

@[simp] def calledIds : Event → List String
  | called claim => [claim.id]
  | _ => []

/-- A settlement was attempted. -/
@[simp] def endedIds : Event → List String
  | settled claim | settleFailed claim _ => [claim.id]
  | _ => []

@[simp] def settledIds : Event → List String
  | settled claim => [claim.id]
  | _ => []

@[simp] def unsettledIds : Event → List String
  | settleFailed claim _ => [claim.id]
  | _ => []

@[simp] def panickedIds : Event → List String
  | workerPanicked claim => [claim.id]
  | _ => []

@[simp] def claimedIds : Event → List String
  | claimed claim => [claim.id]
  | _ => []

/-- A claim was removed. -/
@[simp] def unclaimedIds : Event → List String
  | settled claim => [claim.id]
  | released id | recovered id => [id]
  | _ => []

/-- A failed push to the head of the backlog. -/
@[simp] def unqueuedIds : Event → List String
  | requeueFailed id _ => [id]
  | _ => []

@[simp] def unreleasedIds : Event → List String
  | releaseFailed id _ => [id]
  | _ => []

@[simp] def discardedIds : Event → List String
  | discarded id => [id]
  | _ => []

/-- An occurrence came into being. -/
@[simp] def gainedIds (e : Event) : List String := e.pushedIds ++ e.recoveredIds

/-- An occurrence was lost without a call that ended. -/
@[simp] def lostIds (e : Event) : List String := e.unqueuedIds ++ e.unreleasedIds ++ e.discardedIds

/-- An occurrence came to its end. -/
@[simp] def goneIds (e : Event) : List String := e.endedIds ++ e.panickedIds ++ e.lostIds

end Event

/-- How often `x` occurs among what `f` reads from the events. -/
def tally (f : Event → List String) (es : List Event) (x : String) : Nat :=
  (es.flatMap f).count x

variable {f g : Event → List String} {es : List Event} {x : String}

@[simp] theorem tally_nil : tally f [] x = 0 := rfl

@[simp] theorem tally_cons (e : Event) : tally f (e :: es) x = (f e).count x + tally f es x := by
  simp [tally]

@[simp] theorem tally_append (es' : List Event) :
    tally f (es ++ es') x = tally f es x + tally f es' x := by
  simp [tally]

@[simp] theorem tally_reverse : tally f es.reverse x = tally f es x :=
  (es.reverse_perm.flatMap_right f).count_eq x

theorem tally_add : tally (fun e => f e ++ g e) es x = tally f es x + tally g es x := by
  induction es with
  | nil => rfl
  | cons e es ih =>
      simp only [tally_cons, List.count_append, ih]
      omega

theorem tally_gained : tally Event.gainedIds es x =
    tally Event.pushedIds es x + tally Event.recoveredIds es x :=
  tally_add

theorem tally_lost : tally Event.lostIds es x =
    tally Event.unqueuedIds es x + tally Event.unreleasedIds es x +
      tally Event.discardedIds es x := by
  show tally (fun e => _ ++ _) es x = _
  rw [tally_add, tally_add]

theorem tally_gone : tally Event.goneIds es x =
    tally Event.endedIds es x + tally Event.panickedIds es x + tally Event.lostIds es x := by
  show tally (fun e => _ ++ _) es x = _
  rw [tally_add, tally_add]

theorem tally_eq_zero : tally f es x = 0 ↔ ∀ e ∈ es, x ∉ f e := by
  simp [tally, List.count_eq_zero]

theorem tally_congr (h : ∀ e ∈ es, f e = g e) : tally f es x = tally g es x := by
  induction es with
  | nil => rfl
  | cons e es ih =>
      rw [tally_cons, tally_cons, h e (by simp), ih fun e he => h e (by simp [he])]

theorem tally_le (h : ∀ e : Event, (f e).count x ≤ (g e).count x) :
    tally f es x ≤ tally g es x := by
  induction es with
  | nil => exact Nat.le_refl 0
  | cons e es ih =>
      rw [tally_cons, tally_cons]
      exact Nat.add_le_add (h e) ih

theorem tally_ended (es : List Event) (x : String) :
    tally Event.endedIds es x = tally Event.settledIds es x + tally Event.unsettledIds es x := by
  rw [← tally_add]
  exact tally_congr fun e _ => by cases e <;> rfl

theorem settled_le_ended (es : List Event) (x : String) :
    tally Event.settledIds es x ≤ tally Event.endedIds es x :=
  tally_le fun e => by cases e <;> simp

/-- `f` reads something only from events that move tasks. -/
def ReadsMoves (f : Event → List String) : Prop := ∀ e, e.movesTask = false → f e = []

theorem tally_quiet (hf : ReadsMoves f) (h : Quiet es) : tally f es x = 0 :=
  tally_eq_zero.mpr fun e he => by simp [hf e (h e he)]

@[simp] theorem readsMoves :
    ReadsMoves Event.poppedIds ∧ ReadsMoves Event.requeuedIds ∧ ReadsMoves Event.claimedIds ∧
      ReadsMoves Event.receivedIds ∧ ReadsMoves Event.releasedIds ∧
      ReadsMoves Event.unqueuedIds ∧ ReadsMoves Event.unreleasedIds ∧
      ReadsMoves Event.discardedIds ∧ ReadsMoves Event.calledIds ∧ ReadsMoves Event.endedIds ∧
      ReadsMoves Event.panickedIds ∧ ReadsMoves Event.loadedIds := by
  refine ⟨?_, ?_, ?_, ?_, ?_, ?_, ?_, ?_, ?_, ?_, ?_, ?_⟩
  all_goals
    intro e he
    cases e <;> first | rfl | cases he

theorem tally_discarded_of_nil (hf : ∀ id, f (.discarded id) = []) (claims : List Claim) :
    tally f (claims.map (Event.discarded ·.id)) x = 0 := by
  rw [tally_eq_zero]
  simp only [List.mem_map]
  rintro e ⟨claim, -, rfl⟩
  simp [hf]

theorem tally_reap_of_nil (hf : ∀ id, f (.discarded id) = []) (r : Run) :
    tally f r.reap.2 x = 0 := by
  rcases r.reap_cases with ⟨-, h⟩ | ⟨-, h⟩ <;> rw [h]
  · rfl
  · exact tally_discarded_of_nil hf _

end ReliableQueue.Queue
