import ReliableQueue.Proofs.Queue.Changes
import ReliableQueue.Proofs.Queue.Tallies

/-!
The store follows the history. Each event has one effect on the contents of the store, and
the contents are what the effects of all events, one after the other, make of the contents at
first. So what is in the backlog, what is claimed and which payloads are stored can be read
from the events alone.
-/

namespace ReliableQueue.Queue

open Store (Contents)

variable {k : Keys} {a : Act}

/-- How an event changes the contents of the store. -/
def Effect (k : Keys) (before after : Contents) : Event → Prop
  | .pushed tasks => tasks ≠ [] ∧ after = before.applyAll (pushBatch k tasks).commands
  | .popped id =>
      ∃ rest, before.list k.pending = id :: rest ∧ after = before.setList k.pending rest
  | .requeued id => after = before.apply (.lpush k.pending id)
  | .loaded claim =>
      claim.payload = (before.field? k.payloads claim.id).getD [] ∧ after = before
  | .claimed claim => ∃ stamp, after = before.setScore k.processing claim.id stamp
  | .released id => after = before.applyAll (releaseBatch k id).commands
  | .settled claim => after = before.applyAll (settleBatch k claim).commands
  | .recovered id => after = before.applyAll (recoveryBatch k id).commands
  | _ => after = before

/-- The effects of the events, latest first, lead from one contents of the store to another. -/
inductive Leads (k : Keys) (first : Contents) : List Event → Contents → Prop where
  | nil : Leads k first [] first
  | cons {e : Event} {es : List Event} {before after : Contents} :
      Leads k first es before → Effect k before after e → Leads k first (e :: es) after

theorem effect_of_quiet {e : Event} (h : e.movesTask = false) (c : Contents) :
    Effect k c c e := by
  cases e <;> first | rfl | cases h

namespace Leads

variable {first mid after : Contents} {es earlier : List Event} {e : Event}

theorem one (h : Effect k first after e) : Leads k first [e] after := .cons .nil h

theorem append (later : Leads k mid es after) (h : Leads k first earlier mid) :
    Leads k first (es ++ earlier) after := by
  induction later with
  | nil => exact h
  | cons _ effect ih => exact .cons ih effect

theorem split (h : Leads k first (es ++ earlier) after) :
    ∃ mid, Leads k first earlier mid ∧ Leads k mid es after := by
  induction es generalizing after with
  | nil => exact ⟨after, h, .nil⟩
  | cons e rest ih =>
      cases h with
      | cons before effect =>
          obtain ⟨mid, early, late⟩ := ih before
          exact ⟨mid, early, .cons late effect⟩

/-- Where an event is in a history, the contents before it and after it are known. -/
theorem at_event (h : Leads k first (es ++ e :: earlier) after) :
    ∃ before mid, Leads k first earlier before ∧ Effect k before mid e ∧ Leads k mid es after := by
  obtain ⟨mid, early, late⟩ := h.split
  cases early with
  | cons before effect => exact ⟨_, mid, before, effect, late⟩

theorem of_same (h : ∀ e ∈ es, Effect k first first e) : Leads k first es first := by
  induction es with
  | nil => exact .nil
  | cons e rest ih =>
      exact .cons (ih fun e he => h e (List.mem_cons_of_mem _ he)) (h e List.mem_cons_self)

theorem of_quiet (h : Quiet es) : Leads k first es first :=
  of_same fun e he => effect_of_quiet (h e he) first

theorem of_discards (h : ∀ e ∈ es, ∃ id, e = .discarded id) : Leads k first es first := by
  refine of_same fun e he => ?_
  obtain ⟨id, rfl⟩ := h e he
  rfl

end Leads

/-! ### The backlog -/

/-- A task comes into the backlog when it is pushed, recovered, requeued or released, and
leaves it when it is popped. -/
theorem Effect.backlog {before after : Contents} {e : Event} (h : Effect k before after e)
    (x : String) :
    (after.list k.pending).count x + e.poppedIds.count x =
      (before.list k.pending).count x + e.pushedIds.count x + e.recoveredIds.count x +
        e.requeuedIds.count x + e.releasedIds.count x := by
  cases e with
  | pushed tasks =>
      obtain ⟨some, rfl⟩ := h
      simp [pending_push _ _ _ some]
  | popped id =>
      obtain ⟨rest, head, rfl⟩ := h
      simp [head, List.count_cons]
  | loaded claim =>
      obtain ⟨-, rfl⟩ := h
      simp
  | claimed claim =>
      obtain ⟨stamp, rfl⟩ := h
      simp
  | requeued id =>
      rw [show after = _ from h]
      simp [List.count_cons]
  | released id =>
      rw [show after = _ from h, pending_release]
      simp [List.count_cons]
  | settled claim =>
      rw [show after = _ from h, list_settle]
      simp
  | recovered id =>
      rw [show after = _ from h, pending_recovery]
      simp
  | _ =>
      rw [show after = _ from h]
      simp

theorem Leads.backlog {first after : Contents} {es : List Event} (h : Leads k first es after)
    (x : String) :
    (after.list k.pending).count x + tally Event.poppedIds es x =
      (first.list k.pending).count x + tally Event.pushedIds es x +
        tally Event.recoveredIds es x + tally Event.requeuedIds es x +
        tally Event.releasedIds es x := by
  induction h with
  | nil => simp
  | cons _ effect ih =>
      have one := effect.backlog x
      simp only [tally_cons]
      omega

/-! ### Steps -/

theorem Fetcher.Move.leads {sh : Shared} {f : Fetcher} {m : Moved Fetcher}
    (h : Fetcher.Move k sh f m) :
    Leads k sh.memory.contents m.events.reverse m.shared.memory.contents := by
  cases h with
  | quiet held contents channel events =>
      rw [contents]
      exact .of_quiet fun e he => events e (List.mem_reverse.mp he)
  | popped id rest free held head contents channel events =>
      rw [events]
      exact .one ⟨rest, head, contents⟩
  | loaded claim was loop payload contents channel events =>
      rw [events]
      exact .one ⟨payload, contents⟩
  | claimed claim stamp had held contents channel events =>
      rw [events]
      exact .one ⟨stamp, contents⟩
  | requeued id notes had free contents channel events quiet =>
      rw [events, List.reverse_cons]
      exact (Leads.of_quiet fun e he => quiet e (List.mem_reverse.mp he)).append (.one contents)
  | requeueFailed id cause notes had free fault contents channel events quiet =>
      rw [events, List.reverse_cons]
      exact (Leads.of_quiet fun e he => quiet e (List.mem_reverse.mp he)).append (.one contents)
  | sent claim had free contents channel events
  | released id had free contents channel events
  | releaseFailed id cause had free fault contents channel events =>
      rw [events]
      exact .one contents

theorem Worker.Move.leads {sh : Shared} {w : Worker} {m : Moved Worker}
    (h : Worker.Move k sh w m) :
    Leads k sh.memory.contents m.events.reverse m.shared.memory.contents := by
  cases h with
  | quiet held calling contents channel events =>
      rw [contents]
      exact .of_quiet fun e he => events e (List.mem_reverse.mp he)
  | received claim rest free loop head contents channel events
  | called claim had held calling contents channel events
  | settled claim had loop contents channel events
  | settleFailed claim cause had loop fault contents channel events
  | panicked claim had loop contents channel events =>
      rw [events]
      exact .one contents

namespace Cluster

variable {c d : Cluster}

theorem leads_reap (r : Run) (first : Contents) : Leads k first r.reap.2.reverse first :=
  .of_discards fun _ he => Run.mem_reap (List.mem_reverse.mp he)

/-- Every change has the effects of its events. -/
theorem leads_of_change (change : Change k a c d) :
    ∃ es, d.events = es ++ c.events ∧ Leads k c.memory.contents es d.memory.contents := by
  cases change with
  | quiet contents _ _ events | launched _ _ _ _ _ contents _ _ events =>
      obtain ⟨es, quiet, events⟩ := events
      exact ⟨es, events, contents ▸ .of_quiet quiet⟩
  | pushed tasks some contents runs left events =>
      exact ⟨[_], events, .one ⟨some, contents⟩⟩
  | fetched i r m run live move contents runs left events =>
      exact ⟨_, events, contents ▸ (leads_reap _ _).append move.leads⟩
  | worked i j r w m run worker move panic contents runs left events =>
      exact ⟨_, events, contents ▸ (leads_reap _ _).append move.leads⟩
  | drained n i r call run stage draining contents runs calls events =>
      exact ⟨[], events, by rw [contents]; exact .nil⟩
  | released n i claim rest call stage releasing contents runs calls events =>
      exact ⟨[_], events, .one contents⟩
  | releaseFailed n i claim rest cause call stage releasing fault contents runs calls events =>
      exact ⟨[_], events, .one contents⟩
  | letGo i cause contents runs left events =>
      obtain ⟨es, quiet, events⟩ := events
      obtain ⟨es', grown, discards⟩ := c.events_letGo_eq i
      refine ⟨es ++ es', by rw [events, grown, List.append_assoc], ?_⟩
      rw [contents]
      exact (Leads.of_quiet quiet).append (.of_discards discards)
  | forfeited n i call act stage stopping contents runs calls events =>
      obtain ⟨es', grown, discards⟩ := c.events_letGo_eq i
      refine ⟨_ ++ es', by rw [events, grown, List.append_assoc], ?_⟩
      rw [contents]
      refine Leads.append (.of_discards fun e he => ?_) (.of_discards discards)
      obtain ⟨claim, -, rfl⟩ := List.mem_map.mp (List.mem_reverse.mp he)
      exact ⟨claim.id, rfl⟩
  | recovered id cause contents runs left events =>
      exact ⟨[_], events, .one contents⟩

end Cluster

end ReliableQueue.Queue
