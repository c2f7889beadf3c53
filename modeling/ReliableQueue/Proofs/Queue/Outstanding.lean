import Mathlib.Data.List.Perm.Subperm
import ReliableQueue.Proofs.Queue.Drain
import ReliableQueue.Proofs.Queue.Exclusion
import ReliableQueue.Proofs.Queue.Lifecycle

/-!
Tasks that are claimed and neither settled nor put back. The claims in the store are kept by
identifier, so the deliveries of one identifier share a claim: it stands for a task at hand until
any of them is settled or put back, and for good where they do not overlap.
-/

namespace ReliableQueue

/-- A table has no more entries than there are keys in a list that names all its keys. -/
theorem Table.size_le_length {α : Type} {t : Table α} {l : List String}
    (named : ∀ k, (t.get? k).isSome = true → k ∈ l) : t.size ≤ l.length := by
  have found {es : List (String × α)} {k : String} (hk : k ∈ es.map Prod.fst) :
      (es.lookup k).isSome = true := by
    induction es with
    | nil => cases hk
    | cons e rest ih =>
        rw [List.lookup_cons]
        split
        · rfl
        · next apart =>
            refine ih ((List.mem_cons.mp hk).resolve_left fun same => ?_)
            simp [same] at apart
  have sub : (t.entries.map Prod.fst).Subperm l :=
    t.distinct.subperm fun k hk => named k (found hk)
  simpa [size] using sub.length_le

namespace Queue

variable {k : Keys} {name x : String} {c d : Cluster} {epoch : Nat}

/-- After the latest claim of `x`, some delivery of `x` was settled, put back or recovered. -/
def TakenBack (x : String) (es : List Event) : Prop :=
  ∃ later e earlier, es = later ++ e :: earlier ∧ x ∈ e.unclaimedIds ∧
    tally Event.claimedIds later x = 0

theorem takenBack_cons (e : Event) (es : List Event) :
    TakenBack x (e :: es) ↔ x ∈ e.unclaimedIds ∨ x ∉ e.claimedIds ∧ TakenBack x es := by
  constructor
  · rintro ⟨later, e', earlier, split, taken, since⟩
    cases later with
    | nil =>
        cases split
        exact .inl taken
    | cons e'' later =>
        cases split
        rw [tally_cons, Nat.add_eq_zero_iff] at since
        exact .inr ⟨List.count_eq_zero.mp since.1, later, e', earlier, rfl, taken, since.2⟩
  · rintro (taken | ⟨same, later, e', earlier, rfl, taken, since⟩)
    · exact ⟨[], e, es, rfl, taken, rfl⟩
    · refine ⟨e :: later, e', earlier, rfl, taken, ?_⟩
      rw [tally_cons, since, List.count_eq_zero.mpr same]

theorem stands_iff (x : String) (es : List Event) :
    stands x es = true ↔ 0 < tally Event.claimedIds es x ∧ ¬TakenBack x es := by
  induction es with
  | nil => simp [stands, claimedAfter]
  | cons e rest ih =>
      have apart : x ∈ e.claimedIds → x ∉ e.unclaimedIds := by
        cases e <;> simp
      simp only [stands] at ih
      simp only [stands, claimedAfter, takenBack_cons, tally_cons, Bool.or_eq_true,
        Bool.and_eq_true, Bool.not_eq_true', decide_eq_true_eq, decide_eq_false_iff_not, ih]
      generalize e.claimedIds = set at apart ⊢
      generalize e.unclaimedIds = removed at apart ⊢
      by_cases now : x ∈ set
      · simp [now, apart now, Nat.add_pos_left (List.count_pos_iff.mpr now)]
      · simp [now, List.count_eq_zero.mpr now, and_left_comm]

/-- What is claimed is at hand afterwards, or has come to its end. -/
theorem Flow.outstanding {es : List Event} {s t : Stock} (h : Flow x es s t) :
    tally Event.claimedIds es x + (s.sending + s.working) =
      t.sending + t.working + tally Event.settledIds es x + tally Event.releasedIds es x +
        tally Event.unsettledIds es x + tally Event.unreleasedIds es x +
        tally Event.discardedIds es x + tally Event.panickedIds es x := by
  have line := h.line
  have work := h.work
  have ended := tally_ended es x
  omega

namespace Cluster

/-- The tasks that are claimed and neither settled nor put back. -/
def outstanding (c : Cluster) : List Claim := c.sending ++ c.working

theorem count_outstanding (c : Cluster) (x : String) :
    (c.outstanding.map Claim.id).count x = (c.stock x).sending + (c.stock x).working := by
  simp only [outstanding, stock, List.map_append, List.count_append]

/-- A claim that stands is of a task at hand, or of one that was lost after it was claimed. -/
theorem outstanding_of_claim {ok : Cluster → Act → Prop} (h : Reaches ok c d)
    (one : ∀ c a, ok c a → OnQueue name c a) (named : c.Named name)
    (free : c.claim? name x = none) (claimed : (d.claim? name x).isSome = true) :
    0 < (d.outstanding.map Claim.id).count x + tally Event.unsettledIds d.events x +
      tally Event.unreleasedIds d.events x + tally Event.discardedIds d.events x +
      tally Event.panickedIds d.events x := by
  obtain ⟨b, later, rest, claim, earlier, since, before, -, -, sending, set, unset⟩ :=
    last_claim h one named free claimed
  have flow := (since.flow x).outstanding
  have removed := tally_unclaimed later x
  rw [count_outstanding, since.events, before]
  simp only [tally_append, tally_cons]
  have line : (b.stock x).sending = (b.sending.map Claim.id).count x := rfl
  omega

/-- All deliveries of `x` that are in the backlog or at hand, or were lost, came from a push or a
recovery. -/
theorem outstanding_le (h : Reaches (OnQueue name) (empty epoch) c) (x : String) :
    (c.outstanding.map Claim.id).count x ≤
      tally Event.pushedIds c.events x + tally Event.recoveredIds c.events x := by
  obtain ⟨backlog, hand, line, work⟩ := accounts h (fun _ _ ok => ok) x
  rw [outstanding, List.map_append, List.count_append]
  omega

/-- Where the deliveries of `x` do not overlap and none is recovered, the claim of `x` stands as
long as one is at hand. -/
theorem claimed_of_apart (h : Reaches (OnQueue name) (empty epoch) c)
    (held : 0 < (c.outstanding.map Claim.id).count x)
    (unrecovered : tally Event.recoveredIds c.events x = 0)
    (apart : ∀ d, Reaches (OnQueue name) (empty epoch) d → Reaches (OnQueue name) d c →
      (d.outstanding.map Claim.id).count x ≤ 1) : (c.claim? name x).isSome = true := by
  induction h with
  | refl => cases held
  | @perform b c a hr ok hp ih =>
      obtain ⟨es, trace, single⟩ := hr.next (fun _ _ ok => ok) hp
      have flow := (trace.flow x).outstanding
      rw [← count_outstanding, ← count_outstanding] at flow
      rw [trace.events, tally_append] at unrecovered
      rw [claim_after trace single x]
      rcases Nat.eq_zero_or_pos (tally Event.claimedIds es x) with none | now
      · -- The task was at hand before, and it was the only one.
        have once := apart b hr (.perform .refl ok hp)
        have stood := ih (by omega) (by omega) fun d hd hb => apart d hd (.perform hb ok hp)
        have removed := tally_unclaimed es x
        exact .inr ⟨by omega, stood⟩
      · exact .inl now

/-- A task at hand has its identifier in the processing set exactly when no delivery of that
identifier was settled, put back or recovered after it was last claimed. That is always so where
none was recovered and no two deliveries were at hand at once, as for one that was pushed once. -/
theorem claimed_unless_takenBack (h : Reaches (OnQueue name) (empty epoch) c) {claim : Claim}
    (held : claim ∈ c.outstanding) :
    ((c.claim? name claim.id).isSome = true ↔ ¬TakenBack claim.id c.events) ∧
      (tally Event.recoveredIds c.events claim.id = 0 →
        (tally Event.pushedIds c.events claim.id ≤ 1 ∨
          ∀ d, Reaches (OnQueue name) (empty epoch) d → Reaches (OnQueue name) d c →
            (d.outstanding.map Claim.id).count claim.id ≤ 1) →
        (c.claim? name claim.id).isSome = true) := by
  have counted : 0 < (c.outstanding.map Claim.id).count claim.id :=
    List.count_pos_iff.mpr (List.mem_map_of_mem held)
  constructor
  · obtain ⟨-, -, line, work⟩ := accounts h (fun _ _ ok => ok) claim.id
    have set : 0 < tally Event.claimedIds c.events claim.id := by
      rw [outstanding, List.map_append, List.count_append] at counted
      omega
    rw [claimed_of_reaches h claim.id, stands_iff]
    exact ⟨And.right, fun kept => ⟨set, kept⟩⟩
  · rintro unrecovered (once | apart)
    · refine claimed_of_apart h counted unrecovered fun d hd later => ?_
      obtain ⟨es, grown⟩ := later.events_grow (fun _ _ ok => ok)
        (named_of_reaches (fun _ _ ok => ok) hd)
      have bound := outstanding_le hd claim.id
      rw [grown, tally_append] at unrecovered once
      omega
    · exact claimed_of_apart h counted unrecovered apart

/-- Two tasks with one identifier are at two executors, and one of the calls ends. -/
def twinDelivery : List Act := List.flatten [
  [.newToken, .invoke 0 (.push [{ id := "x" }, { id := "x" }]), .step (.call 0),
    .invoke 0 (.start ⟨[0]⟩), .step (.call 1)],
  List.replicate 15 (.step (.fetcher 0)),
  List.replicate 4 (.step (.worker 0 0)),
  List.replicate 4 (.step (.worker 0 1)),
  [.executorReturns 0 0 .succeeded, .step (.worker 0 0)]]

def twinBuilt : Cluster := (empty 0).addHandle { name := "q", options := { workers := 2 } }

def twinSettled : Cluster := (twinBuilt.run twinDelivery).get (by decide +kernel)

theorem reaches_twinSettled {ok : Cluster → Act → Prop}
    (first : ok (empty 0) (.build "q" { workers := 2 }))
    (rest : ∀ a ∈ twinDelivery, ∀ c, ok c a) : Reaches ok (empty 0) twinSettled :=
  .head first (d := twinBuilt) rfl (.of_run rest (Option.some_get _).symm)

theorem claimed_unless_takenBack_twinSettled :
    twinSettled.working = [⟨"x", []⟩] ∧ TakenBack "x" twinSettled.events ∧
      oneDelivered.working = [⟨"x", []⟩] ∧ (oneDelivered.claim? "q" "x").isSome = true := by
  have twin : Reaches (OnQueue "q") (empty 0) twinSettled :=
    reaches_twinSettled rfl (by simp [twinDelivery, OnQueue])
  have one : Reaches (OnQueue "q") (empty 0) oneDelivered :=
    .of_run (by simp [oneDelivery, OnQueue]) run_oneDelivery
  have held : (⟨"x", []⟩ : Claim) ∈ twinSettled.outstanding := by decide +kernel
  have free : twinSettled.claim? "q" "x" = none := by decide +kernel
  refine ⟨by decide +kernel, ?_, by decide +kernel, ?_⟩
  · refine Classical.byContradiction fun kept => ?_
    have claimed := (claimed_unless_takenBack twin held).1.mpr kept
    rw [free] at claimed
    cases claimed
  · have again : (⟨"x", []⟩ : Claim) ∈ oneDelivered.outstanding := by decide +kernel
    exact (claimed_unless_takenBack one again).2 (by decide +kernel) (.inl (by decide +kernel))

/-- With repeated identifiers a task at an executor may have no claim, although nothing fails and
nothing is recovered: the settlement of one delivery removes the claim that the other one has. -/
theorem not_claimed_while_held :
    ¬∀ epoch c, Reaches (fun c a => Sequential "q" c a ∧ Faultless "q" c a) (empty epoch) c →
      ∀ claim ∈ c.buffered ++ c.executing, (c.claim? "q" claim.id).isSome = true := by
  intro claimed
  have reached : Reaches (fun c a => Sequential "q" c a ∧ Faultless "q" c a) (empty 0)
      twinSettled := by
    refine reaches_twinSettled ?_ ?_
    · simp [Sequential, Faultless, Calm, OnQueue, empty]
    · simp [twinDelivery, Sequential, Faultless, Calm, OnQueue]
  have still := claimed 0 twinSettled reached ⟨"x", []⟩ (by decide +kernel)
  rw [show twinSettled.claim? "q" "x" = none by decide +kernel] at still
  cases still

end Cluster

end Queue

end ReliableQueue
