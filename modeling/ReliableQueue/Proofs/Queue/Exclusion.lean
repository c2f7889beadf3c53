import ReliableQueue.Proofs.Queue.Conservation

/-!
When the calls for one task exclude each other. A recovery hands a task out again although
its claim may still be on the way to a worker or at one: claims get their stamp before they
wait in the channel, and there need not be an execution timeout. So exclusion depends on
what is recovered and on what was lost.
-/

namespace ReliableQueue.Queue

variable {k : Keys} {name x : String} {a : Act} {c d : Cluster} {epoch : Nat}

/-- In a history, latest first, no call for `x` begins after a settlement of `x`. -/
def NeverAgain (x : String) : List Event → Prop
  | [] => True
  | e :: earlier =>
      (x ∈ e.calledIds → tally Event.settledIds earlier x = 0) ∧ NeverAgain x earlier

theorem neverAgain_append {es earlier : List Event} (h : ∀ e ∈ es, x ∉ e.calledIds) :
    NeverAgain x (es ++ earlier) ↔ NeverAgain x earlier := by
  induction es with
  | nil => rfl
  | cons e rest ih =>
      have he : x ∉ e.calledIds := h e (by simp)
      rw [List.cons_append, NeverAgain, ih fun e hm => h e (by simp [hm])]
      exact ⟨And.right, fun hr => ⟨fun hx => absurd hx he, hr⟩⟩

namespace Cluster

/-- At most one call for `x` is in flight, which it is from its beginning until its task is
settled, and no call for `x` ever began after a settlement of `x`. -/
structure Exclusive (x : String) (c : Cluster) : Prop where
  single : (c.calling.map Claim.id).count x ≤ 1
  never_again : NeverAgain x c.events

/-- How many occurrences of `x` were lost before a call. -/
def lost (x : String) (c : Cluster) : Nat :=
  tally Event.lostIds c.events x + tally Event.panickedIds c.events x

theorem ended_eq_settled {es : List Event}
    (settles : ∀ claim cause, .settleFailed claim cause ∉ es) :
    tally Event.endedIds es x = tally Event.settledIds es x := by
  refine tally_congr fun e he => ?_
  cases e with
  | settleFailed claim cause => exact absurd he (settles claim cause)
  | _ => rfl

theorem Calm.onQueue {c : Cluster} {a : Act} (h : Calm name c a) : OnQueue name c a := h.1

/-- Every delivery is on the way to a call, has led to one, or was lost before. -/
theorem deliveries (h : Reaches (Calm name) (empty epoch) c) (x : String) :
    tally Event.pushedIds c.events x + tally Event.recoveredIds c.events x =
      c.waiting name x + tally Event.calledIds c.events x + c.lost x := by
  have total : c.Balanced name x := balanced (h.mono fun _ _ => Calm.onQueue) x
  have calls := calls_of_calm h x
  have working := c.count_working x
  simp only [Balanced, count_holds, tally_gained, tally_gone] at total
  simp only [waiting, lost]
  omega

/-- A task that is called at most once is called exclusively. -/
theorem exclusive_of_called (h : Reaches (Calm name) (empty epoch) c)
    (once : tally Event.calledIds c.events x ≤ 1) : c.Exclusive x := by
  refine ⟨by have := calls_of_calm h x; omega, ?_⟩
  induction h with
  | refl => exact trivial
  | @perform b c a hr ok hp ih =>
      have change := change_of_perform (named_of_reaches (fun _ _ => Calm.onQueue) hr) hp
      have ended := calls_of_calm hr x
      have settled := settled_le_ended b.events x
      rcases called_cases change with same | ⟨claim, es, he, none⟩
      · obtain ⟨es, he⟩ := change.events_grow
        have hs := same x
        rw [he, tally_append] at hs
        rw [he, neverAgain_append (tally_eq_zero.mp (by omega))]
        exact ih (by rw [← same x]; exact once)
      · have uncalled : ∀ e ∈ es, x ∉ e.calledIds := fun e hm => by
          have := none e hm
          cases e <;> first | exact List.not_mem_nil | cases this
        rw [he, tally_append, tally_cons] at once
        rw [he, neverAgain_append uncalled]
        refine ⟨fun hx => ?_, ih (by omega)⟩
        have one : 0 < (Event.called claim).calledIds.count x := List.count_pos_iff.mpr hx
        omega

/-- A task whose calls were exclusive all along was called at most once. -/
theorem called_of_exclusive (h : Reaches (Calm name) (empty epoch) c)
    (settles : ∀ claim cause, .settleFailed claim cause ∉ c.events)
    (exclusive : ∀ d, Reaches (Calm name) (empty epoch) d → Reaches (Calm name) d c →
      d.Exclusive x) :
    tally Event.calledIds c.events x ≤ 1 := by
  induction h with
  | refl => exact Nat.zero_le _
  | @perform b c a hr ok hp ih =>
      have change := change_of_perform (named_of_reaches (fun _ _ => Calm.onQueue) hr) hp
      obtain ⟨es, grown⟩ := change.events_grow
      have settles' : ∀ claim cause, .settleFailed claim cause ∉ b.events :=
        fun claim cause hm => settles claim cause (by simp [grown, hm])
      have before := ih settles' fun d hd hb => exclusive d hd (.perform hb ok hp)
      rcases called_cases change with same | ⟨claim, es, he, none⟩
      · rw [same x]
        exact before
      · have now := exclusive c (.perform hr ok hp) .refl
        have calls := calls_of_calm (.perform hr ok hp) x
        have uncalled := tally_isOfCall (f := Event.calledIds) (x := x)
          (fun e he => by cases e <;> first | rfl | cases he) none
        have unended := tally_isOfCall (f := Event.endedIds) (x := x)
          (fun e he => by cases e <;> first | rfl | cases he) none
        have never := now.never_again
        rw [he, neverAgain_append (tally_eq_zero.mp uncalled)] at never
        by_cases hx : x ∈ (Event.called claim).calledIds
        · -- An earlier call must still be in flight, since nothing was settled.
          have settled := never.1 hx
          rw [← ended_eq_settled settles'] at settled
          have ended : tally Event.endedIds c.events x = 0 := by
            rw [he, tally_append, tally_cons, unended, settled]
            rfl
          have := now.single
          omega
        · have one : (Event.called claim).calledIds.count x = 0 := List.count_eq_zero.mpr hx
          rw [he, tally_append, tally_cons, uncalled, one]
          omega

/-- The calls for a task exclude each other all along exactly when all its deliveries but
one are still on the way to a call or were lost before. For a task that was pushed once, that
is to say that its recoveries are made up for. -/
theorem exclusive_iff (h : Reaches (Calm name) (empty epoch) c)
    (settles : ∀ claim cause, .settleFailed claim cause ∉ c.events) (x : String) :
    (∀ d, Reaches (Calm name) (empty epoch) d → Reaches (Calm name) d c → d.Exclusive x) ↔
      tally Event.pushedIds c.events x + tally Event.recoveredIds c.events x ≤
        1 + c.waiting name x + c.lost x := by
  have total := deliveries h x
  constructor
  · intro exclusive
    have once := called_of_exclusive h settles exclusive
    omega
  · intro bound d hd hc
    obtain ⟨es, he⟩ := hc.events_grow (fun _ _ => Calm.onQueue)
      (named_of_reaches (fun _ _ => Calm.onQueue) hd)
    have once : tally Event.calledIds c.events x ≤ 1 := by omega
    rw [he, tally_append] at once
    exact exclusive_of_called hd (Nat.le_trans (Nat.le_add_left _ _) once)

theorem exclusive_oneDelivered :
    (∀ d, Reaches (Calm "q") (empty 0) d → Reaches (Calm "q") d oneDelivered →
      d.Exclusive "x") ∧ tally Event.calledIds oneDelivered.events "x" = 1 := by
  have reached : Reaches (Calm "q") (empty 0) oneDelivered :=
    .of_run (by simp [oneDelivery, Calm, OnQueue]) run_oneDelivery
  have settled : oneDelivered.events.all (fun e => e.endedIds = []) = true := by decide +kernel
  refine ⟨(exclusive_iff reached ?_ "x").mpr (by decide +kernel), by decide +kernel⟩
  intro claim cause h
  simpa using List.all_eq_true.mp settled _ h

/-! ### A call for a task that is in flight -/

/-- Acts on one queue among which no executor panics and no store call is made to fail. -/
def Faultless (name : String) (c : Cluster) (a : Act) : Prop :=
  Calm name c a ∧ ∀ point count, a ≠ .failNext point count

/-- The tasks at executors. -/
def executing (c : Cluster) : List Claim :=
  c.runs.flatMap fun r => r.workers.flatMap fun
    | .executing call => [call.claim]
    | _ => []

/-- Two workers with calls of 1.9 s, of at most 2 s. The third task waits for one of them
in the channel, so its claim is older than 3 s in the middle of its call; a recovery of such
claims hands it to the other worker. -/
def waitThenRecover : List Act :=
  let claimOne := List.replicate 7 (Act.step (.fetcher 0))
  let take (worker : Nat) := List.replicate 3 (Act.step (.worker 0 worker))
  let finish (worker : Nat) := [.executorReturns 0 worker .succeeded, .step (.worker 0 worker)]
  [.build "q" { workers := 2, executionTimeout := some (.ofSeconds 2) }, .newToken,
    .invoke 0 (.push [{ id := "a" }, { id := "b" }, { id := "x" }]), .step (.call 0),
    .invoke 0 (.start ⟨[0]⟩), .step (.call 1), .step (.fetcher 0), .step (.worker 0 0),
    .step (.worker 0 1)] ++
    claimOne ++ claimOne ++ claimOne ++ take 0 ++ take 1 ++
    [.elapse 1900000000] ++ finish 0 ++ take 0 ++ finish 1 ++
    [.elapse 3800000000, .invoke 0 (.recover (.ofSeconds 3))] ++
    List.replicate 3 (.step (.call 2)) ++ claimOne ++ take 1

theorem waitThenRecover_performed : ((empty 0).run waitThenRecover).isSome = true := by
  decide +kernel

/-- An accepted age does not exclude two calls at once for a task that was pushed once. -/
theorem not_exclusive_of_accepted_age :
    ¬∀ epoch c, Reaches (Faultless "q") (empty epoch) c →
      (∀ x, tally Event.pushedIds c.events x ≤ 1) →
      ∀ x, (c.executing.map Claim.id).count x ≤ 1 := by
  intro exclusion
  obtain ⟨c, hc⟩ := Option.isSome_iff_exists.mp waitThenRecover_performed
  have reached : Reaches (Faultless "q") (empty 0) c :=
    .of_run (by simp [waitThenRecover, Faultless, Calm, OnQueue]) hc
  have facts : ((empty 0).run waitThenRecover).all (fun c =>
      (c.events.flatMap Event.pushedIds).Nodup ∧
        (c.executing.map Claim.id).count "x" = 2) = true := by
    decide +kernel
  simp only [hc, Option.all_some, decide_eq_true_eq] at facts
  have twice := exclusion 0 c reached (fun x => List.nodup_iff_count.mp facts.1 x) "x"
  omega

end Cluster

end ReliableQueue.Queue
