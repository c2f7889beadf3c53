import ReliableQueue.Proofs.Queue.Deliveries
import ReliableQueue.Proofs.Queue.Outstanding
import ReliableQueue.Proofs.Queue.Standing

/-!
What the store holds for tasks that are nowhere any more: nothing, as long as no handle and no
stop under way is given up and nothing is lost. A claim is always that of a task at hand, and a
payload always has a delivery to come that has not found the hash empty, and will remove it.
-/

namespace ReliableQueue.Queue

variable {k : Keys} {name x : String} {i : Nat} {a : Act} {c d : Cluster} {epoch : Nat}
  {es : List Event}

namespace Cluster

/-! ### Channels that are given up -/

/-- Acts on one queue with which no handle is given up, and no stop under way. -/
def Steadfast (name : String) : Cluster → Act → Prop
  | _, .build n _ => n = name
  | _, .drop _ => False
  | c, .abandon n => ∀ call, c.calls[n]? = some call → call.stage.stopping? = none
  | _, _ => True

theorem Steadfast.onQueue (ok : Steadfast name c a) : OnQueue name c a := by
  cases a with
  | build n options => exact ok
  | _ => trivial

theorem Safe.goesOn (safe : c.Safe) (runs : c.RunsKept d) : d.Safe := by
  intro n r hr
  obtain ⟨q, hq, on⟩ := runs.on.back runs.length hr
  rcases safe n q hq with kept | spent
  · exact .inl (runs.kept n q r hq hr kept)
  · exact .inr (on.spent spent)

/-- A run that is over may be let go. -/
theorem Safe.letGo {m : Nat} {r : Run} (safe : c.Safe) (run : c.runs[m]? = some r)
    (spent : r.Spent) (runs : d.runs = (c.letGo m).runs) : d.Safe := by
  intro n q hq
  rw [runs] at hq
  rcases Decidable.em (n = m) with rfl | apart
  · obtain ⟨q', hq', on⟩ := (c.runsGoOn_letGo n).back (c.length_letGo n) hq
    obtain rfl := Option.some.inj (run.symm.trans hq')
    exact .inr (on.spent spent)
  · rcases c.letGo_cases m with ⟨same, -⟩ | ⟨q', -, set, -⟩
    · exact safe n q (same ▸ hq)
    · rw [set, List.getElem?_set_ne (Ne.symm apart)] at hq
      exact safe n q hq

/-- No handle was given up, no stop either, and nothing was lost with a channel. -/
structure Whole (c : Cluster) : Prop where
  owned : ∀ h ∈ c.handles, h.owned = true
  awaited : c.Awaited
  safe : c.Safe
  intact : c.Intact

theorem Whole.turn (whole : c.Whole) (turn : Turning a c d)
    (kept : ∀ n call, a = .abandon n → c.calls[n]? = some call → call.stage.stopping? = none) :
    d.Safe ∧ d.Intact := by
  cases turn with
  | launched n call h r at_call asked handle lock running fresh runs handles calls events =>
      obtain ⟨es, none, events⟩ := events
      refine ⟨fun m q hq => ?_, whole.intact.grows events none⟩
      rw [runs] at hq
      rcases getElem?_concat_cases hq with ⟨-, rfl⟩ | hq
      · exact .inl fresh.kept
      · exact whole.safe m q hq
  | taken n m call h r at_call asked handle lock runtime run runs handles calls events =>
      exact ⟨whole.safe.goesOn (runsKept_same runs), whole.intact.same events⟩
  | went n m call next at_call stops still runs handles calls ends left events =>
      obtain ⟨es, none, events⟩ := events
      exact ⟨whole.safe.goesOn runs, whole.intact.grows events none⟩
  | ended n m call h at_call stage handle runs handles calls events =>
      obtain ⟨es, none, events⟩ := events
      obtain ⟨r, run, ends⟩ := whole.awaited n m call at_call (by rw [stage]; rfl)
      rw [stage] at ends
      rw [events_letGo_of_spent run ends.2] at events
      exact ⟨whole.safe.letGo run ends.2 runs, whole.intact.grows events none⟩
  | forsaken n m call act at_call stops =>
      rw [kept n call act at_call] at stops
      cases stops
  | disposed j m h r handle unused =>
      have given := unused.given
      rw [whole.owned h (List.mem_of_getElem? handle)] at given
      cases given

theorem Whole.perform (whole : c.Whole) (ok : Steadfast name c a) (h : c.perform a = some d) :
    d.Whole := by
  have turned : d.Safe ∧ d.Intact := by
    rcases steady_or_turning h with steady | turn
    · exact ⟨whole.safe.goesOn steady.runs, steady.intact whole.safe whole.intact⟩
    · refine whole.turn turn ?_
      rintro n call rfl hc
      exact ok call hc
  refine ⟨owned_perform whole.owned h ?_, whole.awaited.perform h, turned.1, turned.2⟩
  rintro j rfl
  exact ok

theorem whole_of_reaches (h : Reaches (Steadfast name) (empty epoch) c) : c.Whole := by
  refine h.invariant ?_ fun b a d whole ok hp => whole.perform ok hp
  constructor <;> simp [empty, Awaited, Safe, Intact, Lossless, events]

/-! ### Payloads -/

/-- How many claims of `x` at hand came with no payload. -/
def bare (x : String) (c : Cluster) : Nat :=
  (c.load (paired x List.isEmpty)).uncalled + (c.load (paired x List.isEmpty)).calling

/-- How many deliveries of `x` are to come or at hand. -/
def present (name x : String) (c : Cluster) : Nat := (c.pending name).count x + c.holds.count x

end Cluster

theorem lastPayload_cases {p : Text.Bytes} {tasks : List Task} {before : Option Text.Bytes}
    (h : lastPayload x before tasks = some p) :
    before = some p ∨ p ≠ [] ∧ x ∈ tasks.map Task.id := by
  induction tasks generalizing before with
  | nil => exact .inl h
  | cons t rest ih =>
      rw [lastPayload, List.filter_cons] at h
      split at h
      · next given =>
          rw [List.foldl_cons] at h
          rcases ih h with same | ⟨some, later⟩
          · split at same
            · next named =>
                cases same
                exact .inr ⟨by simpa [Task.hasPayload] using given, by simp [named]⟩
            · exact .inl same
          · exact .inr ⟨some, List.mem_cons_of_mem _ later⟩
      · exact (ih h).imp_right (And.imp_right (List.mem_cons_of_mem t.id))

/-- A payload that is stored was stored before, or it came with a push and is not empty. -/
theorem payloadAfter_cases {p : Text.Bytes} {before : Option Text.Bytes}
    (h : payloadAfter x before es = some p) :
    before = some p ∨ p ≠ [] ∧ 0 < tally Event.pushedIds es x := by
  induction es generalizing p with
  | nil => exact .inl h
  | cons e rest ih =>
      have earlier (h : payloadAfter x before rest = some p) :
          before = some p ∨ p ≠ [] ∧ 0 < tally Event.pushedIds (e :: rest) x := by
        rw [tally_cons]
        exact (ih h).imp_right fun ⟨filled, pushed⟩ => ⟨filled, Nat.add_pos_right _ pushed⟩
      rw [payloadAfter] at h
      cases e with
      | pushed tasks =>
          rcases lastPayload_cases h with same | ⟨some, named⟩
          · exact earlier same
          · rw [tally_cons]
            exact .inr ⟨some, Nat.add_pos_left (List.count_pos_iff.mpr named) _⟩
      | settled claim =>
          simp only [Event.payloadAfter] at h
          split at h
          · cases h
          · exact earlier h
      | _ => exact earlier h

theorem Run.bare_le (r : Run) (x : String) :
    r.uncalled.countP (paired x List.isEmpty) + r.calling.countP (paired x List.isEmpty) ≤
      r.holds.count x := by
  have hand : r.fetcher.loaded?.toList.countP (paired x List.isEmpty) ≤ r.inHand.count x := by
    rw [inHand]
    cases r.fetcher <;>
      simp [Fetcher.loaded?, Fetcher.held?, List.countP_cons, List.count_cons, paired] <;>
      split <;> simp_all
  have line : r.channel.buffer.countP (paired x List.isEmpty) ≤
      (r.channel.buffer.map Claim.id).count x := by
    rw [List.count, List.countP_map]
    exact List.countP_mono_left fun claim _ bare => by simp_all [paired]
  have work : (r.workers.flatMap (·.ready?.toList)).countP (paired x List.isEmpty) +
      r.calling.countP (paired x List.isEmpty) ≤ (r.working.map Claim.id).count x := by
    rw [calling, working]
    induction r.workers with
    | nil => simp
    | cons w rest ih =>
        have one : w.ready?.toList.countP (paired x List.isEmpty) +
            w.calling?.toList.countP (paired x List.isEmpty) ≤
              (w.held?.toList.map Claim.id).count x := by
          cases w <;>
            simp [Worker.ready?, Worker.calling?, Worker.held?, List.countP_cons, List.count_cons,
              paired] <;>
            split <;> simp_all
        simp only [List.flatMap_cons, List.countP_append, List.map_append, List.count_append]
        omega
  simp only [uncalled, holds, List.countP_append, List.count_append]
  omega

namespace Cluster

theorem bare_le (c : Cluster) (x : String) : c.bare x ≤ c.holds.count x := by
  have runs (rs : List Run) : (rs.flatMap Run.uncalled).countP (paired x List.isEmpty) +
      (rs.flatMap Run.calling).countP (paired x List.isEmpty) ≤
        (rs.flatMap Run.holds).count x := by
    induction rs with
    | nil => simp
    | cons r rest ih =>
        have one := r.bare_le x
        simp only [List.flatMap_cons, List.countP_append, List.count_append]
        omega
  have left : c.left.countP (paired x List.isEmpty) ≤ (c.left.map Claim.id).count x := by
    rw [List.count, List.countP_map]
    exact List.countP_mono_left fun claim _ bare => by simp_all [paired]
  have all := runs c.runs
  simp only [bare, load, uncalled, calling, holds, List.countP_append, List.count_append]
  omega

/-- The payload that is stored for `x` is not empty, and some delivery of `x` is there that has
not found the hash empty. -/
def Backed (name x : String) (c : Cluster) : Prop :=
  ∀ p, c.payload? name x = some p → p ≠ [] ∧ c.bare x < c.present name x

/-- A lookup finds the payload that is stored. -/
theorem unbare_loads {p : Text.Bytes} (trace : Trace (.ofName name) es c d) (single : Single es)
    (stored : c.payload? name x = some p) (some : p ≠ []) :
    amount (paired x List.isEmpty) Event.loadedClaims es = 0 := by
  have reads : ReadsActs Event.loadedClaims := by simp
  rcases single.cases with passive | ⟨e, rest, rfl, passive⟩
  · rw [amount, reads.flatMap passive, List.countP_nil]
  · rw [amount_append, amount, reads.flatMap passive, List.countP_nil, Nat.zero_add]
    refine amount_eq_zero.mpr fun e' he claim hc => ?_
    obtain rfl := List.mem_singleton.mp he
    cases e' with
    | loaded claim' =>
        obtain rfl := List.mem_singleton.mp hc
        obtain ⟨before, after, first, effect, -⟩ := trace.leads.at_event
        cases first
        by_cases same : claim.id = x
        · rw [payload?, ← same] at stored
          simp [paired, effect.1, stored, some]
        · simp [paired, same]
    | _ => cases hc

/-- While the payload stays, only claims that came with none are settled. -/
theorem settled_of_stored (trace : Trace (.ofName name) es c d) (single : Single es)
    (stored : (d.payload? name x).isSome = true) :
    tally Event.settledIds es x = amount (paired x List.isEmpty) Event.settledClaims es := by
  rcases Nat.eq_zero_or_pos (tally Event.settledIds es x) with none | settled
  · have total := pairs_settled (x := x) List.isEmpty es
    omega
  · obtain ⟨claim, rest, rfl, same, passive⟩ := settled_of_single single settled
    have reads : ReadsActs Event.settledClaims := by simp
    have bare : claim.payload = [] := Classical.byContradiction fun some => by
      rw [payload_after trace, payloadAfter_append,
        payloadAfter_of_other (ReadsActs.tally (by simp) passive x)
          (ReadsActs.tally (by simp) passive x), payloadAfter, Event.payloadAfter,
        if_pos ⟨same.symm, some⟩] at stored
      cases stored
    rw [amount_append, amount, reads.flatMap passive, tally_append,
      ReadsActs.tally (by simp) passive x]
    simp [paired, same, bare]

/-- What comes to an end without loss is settled. -/
theorem present_after (trace : Trace (.ofName name) es c d)
    (unqueued : tally Event.unqueuedIds es x = 0) (unreleased : tally Event.unreleasedIds es x = 0)
    (unsettled : tally Event.unsettledIds es x = 0) (undiscarded : tally Event.discardedIds es x = 0)
    (calm : tally Event.panickedIds es x = 0) :
    d.present name x + tally Event.settledIds es x =
      c.present name x + tally Event.pushedIds es x + tally Event.recoveredIds es x := by
  have backlog := trace.leads.backlog x
  obtain ⟨-, hand, line, work⟩ := trace.flow x
  have ended := tally_ended es x
  have before := c.count_holds_eq x
  have after := d.count_holds_eq x
  simp only [present, pending]
  omega

theorem Backed.next (backed : c.Backed name x) (trace : Trace (.ofName name) es c d)
    (single : Single es)
    (moved : d.present name x + tally Event.settledIds es x =
      c.present name x + tally Event.pushedIds es x + tally Event.recoveredIds es x) :
    d.Backed name x := by
  intro p stored
  have settled := settled_of_stored (x := x) trace single (by rw [stored]; rfl)
  have carried : d.bare x + tally Event.settledIds es x ≤
      c.bare x + amount (paired x List.isEmpty) Event.loadedClaims es := by
    obtain ⟨calls, ends⟩ := trace.carry (paired x List.isEmpty)
    simp only [bare]
    omega
  rw [payload_after trace] at stored
  rcases payloadAfter_cases stored with before | ⟨some, pushed⟩
  · obtain ⟨some, less⟩ := backed p before
    have loads := unbare_loads trace single before some
    exact ⟨some, by omega⟩
  · -- An act that pushes looks nothing up, and the new delivery has not been looked up.
    have loads : tally Event.loadedIds es x = 0 := by
      rcases single.reads with still | ⟨e, -, reads⟩
      · exact still _ (by simp) x
      · rw [reads _ (by simp)] at pushed ⊢
        cases e <;> first | rfl | cases pushed
    have total := pairs_loaded (x := x) List.isEmpty es
    have held := c.bare_le x
    have waiting : c.holds.count x ≤ c.present name x := Nat.le_add_left _ _
    exact ⟨some, by omega⟩

/-! ### What is left in the store -/

end Cluster

/-- Nothing that was popped could not be put back, no settlement failed, and no worker panicked. -/
def Spotless (es : List Event) : Prop :=
  ∀ e ∈ es, e.unqueuedIds = [] ∧ e.unreleasedIds = [] ∧ e.unsettledIds = [] ∧ e.panickedIds = []

instance (es : List Event) : Decidable (Spotless es) :=
  inferInstanceAs (Decidable (∀ e ∈ es, _ ∧ _))

theorem Spotless.tallies (clean : Spotless es) (x : String) :
    tally Event.unqueuedIds es x = 0 ∧ tally Event.unreleasedIds es x = 0 ∧
      tally Event.unsettledIds es x = 0 ∧ tally Event.panickedIds es x = 0 := by
  have none {f : Event → List String} (hf : ∀ e ∈ es, f e = []) : tally f es x = 0 :=
    tally_eq_zero.mpr fun e he => hf e he ▸ List.not_mem_nil
  exact ⟨none fun e he => (clean e he).1, none fun e he => (clean e he).2.1,
    none fun e he => (clean e he).2.2.1, none fun e he => (clean e he).2.2.2⟩

namespace Cluster

theorem backed_of_reaches (h : Reaches (Steadfast name) (empty epoch) c)
    (clean : Spotless c.events) (x : String) : c.Backed name x := by
  induction h with
  | refl =>
      intro p stored
      cases stored
  | @perform b c a hr ok hp ih =>
      have intact := (whole_of_reaches (.perform hr ok hp)).intact.discarded x
      obtain ⟨es, trace, single⟩ := hr.next (fun _ _ => Steadfast.onQueue) hp
      rw [trace.events] at clean intact
      rw [tally_append] at intact
      obtain ⟨unqueued, unreleased, unsettled, calm⟩ :=
        Spotless.tallies (fun e he => clean e (List.mem_append_left _ he)) x
      exact (ih fun e he => clean e (List.mem_append_right _ he)).next trace single
        (present_after trace unqueued unreleased unsettled (by omega) calm)

/-- As long as nothing is given up and nothing lost, each claim is that of a task at hand and each
payload that of a delivery to come or at hand. So a queue that is drained leaves neither. -/
theorem no_residue (h : Reaches (Steadfast name) (empty epoch) c) (clean : Spotless c.events) :
    (∀ x, (c.claim? name x).isSome = true → x ∈ c.outstanding.map Claim.id) ∧
      (∀ x, (c.payload? name x).isSome = true → x ∈ c.pending name ∨ x ∈ c.holds) ∧
      (c.pending name = [] → c.holds = [] →
        c.memory.zcard (Keys.ofName name).processing = 0 ∧
          c.memory.hashLength (Keys.ofName name).payloads = 0) := by
  have claims (x : String) (claimed : (c.claim? name x).isSome = true) :
      x ∈ c.outstanding.map Claim.id := by
    have left := outstanding_of_claim h (fun _ _ => Steadfast.onQueue) (named_empty name epoch)
      (by rfl) claimed
    have tallies := clean.tallies x
    have intact := (whole_of_reaches h).intact.discarded x
    exact List.count_pos_iff.mp (by omega)
  have payloads (x : String) (stored : (c.payload? name x).isSome = true) :
      x ∈ c.pending name ∨ x ∈ c.holds := by
    obtain ⟨p, stored⟩ := Option.isSome_iff_exists.mp stored
    have here := (backed_of_reaches h clean x p stored).2
    rw [present] at here
    rw [← List.count_pos_iff, ← List.count_pos_iff]
    omega
  refine ⟨claims, payloads, fun drained free => ⟨?_, ?_⟩⟩
  · refine Nat.le_zero.mp (Table.size_le_length (l := []) fun x claimed => ?_)
    have held := List.count_pos_iff.mpr (claims x claimed)
    have none := c.count_holds_eq x
    rw [count_outstanding] at held
    rw [free, List.count_nil] at none
    omega
  · refine Nat.le_zero.mp (Table.size_le_length (l := []) fun x stored => ?_)
    simpa [drained, free] using payloads x stored

/-- Two deliveries of one identifier share a payload and a claim, and both are settled. -/
def sharedDelivery : List Act := List.flatten [
  [.build "q" { workers := 2 }, .newToken,
    .invoke 0 (.push [{ id := "x", payload := [1] }, { id := "x" }]), .step (.call 0),
    .invoke 0 (.start ⟨[0]⟩), .step (.call 1)],
  List.replicate 15 (.step (.fetcher 0)),
  List.replicate 4 (.step (.worker 0 0)),
  List.replicate 4 (.step (.worker 0 1)),
  [.executorReturns 0 0 .succeeded, .step (.worker 0 0), .executorReturns 0 1 (.failed "no"),
    .step (.worker 0 1)]]

def sharedSettled : Cluster := ((empty 0).run sharedDelivery).get (by decide +kernel)

theorem run_sharedDelivery : (empty 0).run sharedDelivery = some sharedSettled :=
  (Option.some_get _).symm

theorem no_residue_sharedSettled :
    tally Event.settledIds sharedSettled.events "x" = 2 ∧
      sharedSettled.memory.zcard (Keys.ofName "q").processing = 0 ∧
      sharedSettled.memory.hashLength (Keys.ofName "q").payloads = 0 := by
  have reached : Reaches (Steadfast "q") (empty 0) sharedSettled :=
    .of_run (by simp [sharedDelivery, Steadfast]) run_sharedDelivery
  have clean : Spotless sharedSettled.events := by decide +kernel
  exact ⟨by decide +kernel,
    (no_residue reached clean).2.2 (by decide +kernel) (by decide +kernel)⟩

end Cluster

end ReliableQueue.Queue
