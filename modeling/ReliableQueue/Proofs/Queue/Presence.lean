import ReliableQueue.Proofs.Queue.Claims
import ReliableQueue.Proofs.Queue.Exclusion

/-!
Where the store has a task that was pushed and not settled: in the backlog or among the claims.
A fetcher takes a task out of the backlog in one access and claims it in a later one, so in
between the store does not have it, and it is lost if the process dies there.
-/

namespace ReliableQueue.Queue

namespace Cluster

variable {name x : String} {c d : Cluster} {epoch : Nat}

/-- The store has `x`, in the backlog or among the claims. -/
def Stored (name x : String) (c : Cluster) : Prop :=
  x ∈ c.pending name ∨ (c.claim? name x).isSome = true

/-- What an act does to a task that is neither in the store nor popped afterwards, if it does
not settle it or fail to requeue it: nothing. -/
theorem absent_before {es : List Event} (trace : Trace (.ofName name) es c d) (single : Single es)
    (unsettled : tally Event.settledIds es x = 0) (requeued : tally Event.unqueuedIds es x = 0)
    (absent : ¬d.Stored name x) (hand : x ∉ d.unclaimed) :
    ¬c.Stored name x ∧ x ∉ c.unclaimed ∧ tally Event.pushedIds es x = 0 := by
  simp only [Stored, not_or, claim_after trace single x] at absent ⊢
  obtain ⟨pending, unclaimed, stands⟩ := absent
  have backlog := trace.leads.backlog x
  have flow := (trace.flow x).hand
  have removed := tally_unclaimed es x
  rw [Cluster.pending] at pending ⊢
  rw [← List.count_eq_zero] at pending hand ⊢
  simp only [stock] at flow
  -- Whatever leaves the backlog for good is claimed, so nothing left it.
  refine ⟨⟨by omega, fun stood => stands ⟨by omega, stood⟩⟩, ?_, by omega⟩
  rw [← List.count_eq_zero]
  omega

theorem stored_or_unclaimed (h : Reaches (OnQueue name) (empty epoch) c)
    (pushed : 0 < tally Event.pushedIds c.events x)
    (unsettled : tally Event.settledIds c.events x = 0)
    (requeued : tally Event.unqueuedIds c.events x = 0) : c.Stored name x ∨ x ∈ c.unclaimed := by
  induction h with
  | refl => exact absurd pushed (Nat.lt_irrefl 0)
  | @perform b c a hr ok hp ih =>
      obtain ⟨es, trace, single⟩ := hr.next (fun _ _ ok => ok) hp
      rw [trace.events, tally_append] at pushed unsettled requeued
      refine Classical.byContradiction fun absent => ?_
      rw [not_or] at absent
      obtain ⟨stored, hand, none⟩ :=
        absent_before trace single (by omega) (by omega) absent.1 absent.2
      rcases ih (by omega) (by omega) (by omega) with h | h
      · exact stored h
      · exact hand h

/-- Without recoveries, a claim that stands is one more than were taken back. -/
theorem unclaimed_lt_claimed (h : Reaches (OnQueue name) (empty epoch) c)
    (unrecovered : tally Event.recoveredIds c.events x = 0) (claimed : stands x c.events = true) :
    tally Event.unclaimedIds c.events x < tally Event.claimedIds c.events x := by
  induction h with
  | refl => cases claimed
  | @perform b c a hr ok hp ih =>
      obtain ⟨es, trace, single⟩ := hr.next (fun _ _ ok => ok) hp
      obtain ⟨-, -, line, work⟩ := accounts hr (fun _ _ ok => ok) x
      have removed := tally_unclaimed b.events x
      have settled := settled_le_ended b.events x
      rw [trace.events, tally_append] at unrecovered
      rw [trace.events, stands_append] at claimed
      rw [trace.events, tally_append, tally_append]
      rcases ((single.claims x _).1).mp claimed with now | ⟨none, stood⟩
      · have alone := (single.claims x true).2 now
        omega
      · have before := ih (by omega) stood
        omega

/-- A task that was pushed, was not settled and did not fail to go back is in the store, unless
a fetcher has popped it and not claimed it yet. If it was pushed once and never recovered, it is
in the store exactly if no fetcher has it so. -/
theorem stored_unless_unclaimed (h : Reaches (OnQueue name) (empty epoch) c)
    (pushed : 0 < tally Event.pushedIds c.events x)
    (unsettled : tally Event.settledIds c.events x = 0)
    (requeued : tally Event.unqueuedIds c.events x = 0) :
    (x ∉ c.unclaimed → c.Stored name x) ∧
      (tally Event.pushedIds c.events x = 1 → tally Event.recoveredIds c.events x = 0 →
        (c.Stored name x ↔ x ∉ c.unclaimed)) := by
  have kept := stored_or_unclaimed h pushed unsettled requeued
  refine ⟨kept.resolve_right, fun once unrecovered => ⟨fun stored hand => ?_, kept.resolve_right⟩⟩
  obtain ⟨backlog, popped, line, work⟩ := accounts h (fun _ _ ok => ok) x
  have here : 0 < c.unclaimed.count x := List.count_pos_iff.mpr hand
  rcases stored with waiting | claimed
  · have : 0 < (c.pending name).count x := List.count_pos_iff.mpr waiting
    omega
  · rw [claimed_of_reaches h x] at claimed
    have removed := tally_unclaimed c.events x
    have more := unclaimed_lt_claimed h unrecovered claimed
    omega

/-- The one task was popped and is not claimed yet. -/
def popped : Cluster := ((empty 0).run (oneDelivery.take 9)).get (by decide +kernel)

theorem run_popped : (empty 0).run (oneDelivery.take 9) = some popped :=
  (Option.some_get _).symm

theorem not_stored_popped :
    tally Event.pushedIds popped.events "x" = 1 ∧ ¬popped.Stored "q" "x" := by
  have reached : Reaches (OnQueue "q") (empty 0) popped :=
    .of_run (by simp [oneDelivery, OnQueue]) run_popped
  have once : tally Event.pushedIds popped.events "x" = 1 := by decide +kernel
  have hand : "x" ∈ popped.unclaimed := by decide +kernel
  have exact := (stored_unless_unclaimed reached (by rw [once]; decide) (by decide +kernel)
    (by decide +kernel)).2 once (by decide +kernel)
  exact ⟨once, fun stored => exact.mp stored hand⟩

/-- A task that was pushed and is not settled may be missing from the store, although nothing
failed. -/
theorem not_stored_always :
    ¬∀ epoch c, Reaches (Faultless "q") (empty epoch) c →
      (∀ x, tally Event.pushedIds c.events x ≤ 1) →
      ∀ x, 0 < tally Event.pushedIds c.events x → tally Event.settledIds c.events x = 0 →
        c.Stored "q" x := by
  intro always
  have reached : Reaches (Faultless "q") (empty 0) popped :=
    .of_run (by simp [oneDelivery, Faultless, Calm, OnQueue]) run_popped
  have once : (popped.events.flatMap Event.pushedIds).Nodup := by decide +kernel
  have stored := always 0 popped reached (fun x => List.nodup_iff_count.mp once x) "x"
    (by decide +kernel) (by decide +kernel)
  have absent : "x" ∉ popped.pending "q" ∧ (popped.claim? "q" "x").isSome = false := by
    decide +kernel
  rcases stored with waiting | claimed
  · exact absent.1 waiting
  · rw [absent.2] at claimed
    cases claimed

end Cluster

end ReliableQueue.Queue
