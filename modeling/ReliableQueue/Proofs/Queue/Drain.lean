import ReliableQueue.Proofs.Queue.Claims
import ReliableQueue.Proofs.Queue.Shutdown
import ReliableQueue.Proofs.Queue.StartStop

/-!
What a stop leaves behind. Once it has returned, nothing is going any more, and every task that
was popped and not handed to a worker is back in the backlog, but for those that the store
refused to take back. A claim that is left is one of a task that a worker had.
-/

namespace ReliableQueue.Queue

open Store (Contents)

variable {k : Keys} {name x : String} {i : Nat} {a : Act} {b c d : Cluster} {epoch : Nat}
  {m : Store.Memory}

/-- The call is a stop, under way or to come. -/
def Stage.isStop : Stage → Bool
  | entering .stop | joining .. | draining _ | releasing .. => true
  | _ => false

/-- The call has returned, and not with an error. -/
def Stage.isOk : Stage → Bool
  | finished _ (.ok _) => true
  | _ => false

theorem Stage.isLive_of_isStop {s : Stage} (h : s.isStop = true) : s.isLive = true := by
  cases s <;> first | rfl | cases h

theorem Stage.isLive_of_isOk {s : Stage} (h : s.isOk = true) : s.isLive = false := by
  cases s <;> first | rfl | cases h

theorem Run.Spent.sending {r : Run} (h : r.Spent) : r.sending = [] := by
  obtain ⟨-, claimed, -, -⟩ :=
    Fetcher.hand_of_free (Fetcher.held?_of_not_live ((Run.spent_iff r).mp h).1)
  rw [Run.sending, claimed, h.2]
  rfl

namespace Cluster

/-- A cluster without handles on a store that may be in use. -/
def onStore (epoch : Nat) (m : Store.Memory) : Cluster := { epoch, memory := m }

theorem named_onStore (name : String) (epoch : Nat) (m : Store.Memory) :
    (onStore epoch m).Named name := by
  simp [Named, onStore]

theorem SoleClaimer.onQueue (ok : SoleClaimer name i c a) : OnQueue name c a := by
  cases a with
  | build n options => exact ok
  | _ => trivial

theorem sole_of_reaches (h : Reaches (SoleClaimer name i) (onStore epoch m) c) : Sole i c := by
  refine h.invariant ⟨.resting ?_, ?_, ?_⟩ fun b a d sole ok hp => sole.perform ok hp
  · constructor <;> simp [onStore, Intact, Lossless, events]
  · simp [Apart, onStore]
  · simp [Asks, onStore]

/-! ### Stops that return -/

/-- Call `n` is a stop of handle `i` that has not returned. -/
def StopWaits (i n : Nat) (c : Cluster) : Prop :=
  (c.calls[n]?).any fun call => call.handle = i && call.stage.isStop

/-- Call `n` has returned, and not with an error. -/
def Returned (n : Nat) (c : Cluster) : Prop := (c.calls[n]?).any (·.stage.isOk)

instance (i n : Nat) (c : Cluster) : Decidable (c.StopWaits i n) :=
  inferInstanceAs (Decidable (_ = true))

instance (n : Nat) (c : Cluster) : Decidable (c.Returned n) :=
  inferInstanceAs (Decidable (_ = true))

theorem StopWaits.call {n : Nat} (h : c.StopWaits i n) :
    ∃ s, c.calls[n]? = some ⟨i, s⟩ ∧ s.isStop = true := by
  obtain ⟨call, hc, stop⟩ := Option.any_eq_true _ _ |>.mp h
  simp only [Bool.and_eq_true, decide_eq_true_eq] at stop
  obtain ⟨rfl, stop⟩ := stop
  exact ⟨call.stage, hc, stop⟩

theorem Returned.isOk {n : Nat} {call : Call} (h : c.Returned n) (hc : c.calls[n]? = some call) :
    call.stage.isOk = true := by
  rw [Returned, hc] at h
  exact h

/-- A stop returns by a step of its own. -/
theorem StopWaits.returns {n : Nat} (waits : c.StopWaits i n) (h : c.perform a = some d)
    (returned : d.Returned n) : c.stepCall n = some d := by
  obtain ⟨s, hc, stop⟩ := waits.call
  obtain ⟨hn, -⟩ := List.getElem?_eq_some_iff.mp hc
  have same (hd : d.calls[n]? = some ⟨i, s⟩) : False := by
    have live := Stage.isLive_of_isStop stop
    rw [Stage.isLive_of_isOk (returned.isOk hd)] at live
    cases live
  have dropped (hd : d.calls = c.calls.set n ⟨i, .dropped⟩) : False := by
    cases returned.isOk (show d.calls[n]? = some ⟨i, .dropped⟩ by
      rw [hd, List.getElem?_set_self hn])
  rcases (calls_of_perform h).kept hc with kept | rfl | rfl
  · exact (same kept).elim
  · exact h
  · cases h
    rcases c.abandon_cases n with eq | ⟨call, hc', ⟨-, eq⟩ | ⟨m, -, eq⟩⟩
    · exact (same (by rw [eq, hc])).elim
    · exact (dropped (by rw [eq, calls_setCall hc])).elim
    · refine (dropped ?_).elim
      rw [eq, calls_record, calls_letGo]
      exact calls_setCall hc _

theorem resting_of_returned {n : Nat} (course : Course i c) (waits : c.StopWaits i n)
    (h : c.perform a = some d) (returned : d.Returned n) :
    Resting i d ∧ (d.handles[i]?).isSome = true := by
  obtain ⟨call, hd, hc, hh, step⟩ := stepCall_cases (waits.returns h returned)
  obtain ⟨s, hs, stop⟩ := waits.call
  obtain rfl := Option.some.inj (hc.symm.trans hs)
  obtain ⟨hn, -⟩ := List.getElem?_eq_some_iff.mp hc
  -- A call that goes on has not returned.
  have goes {s : Stage} (calls : d.calls = c.calls.set n ⟨i, s⟩) (on : s.isLive = true) :
      False := by
    have now : d.calls[n]? = some ⟨i, s⟩ := by rw [calls, List.getElem?_set_self hn]
    rw [Stage.isLive_of_isOk (returned.isOk now)] at on
    cases on
  cases step with
  | entered request entering entry =>
      subst entering
      cases entry with
      | answered memory result contents eq idle =>
          subst eq
          have asked : request = .stop := by cases request <;> first | rfl | cases stop
          obtain ⟨lock, runtime, -⟩ := idle asked
          have steady : Steady c ({ c with memory }.setCall n (.finished c.now result)) :=
            steady_call [] hc rfl rfl (by rfl) rfl rfl
              (calls_setCall_of rfl hc _) rfl lossless_nil
          have rest := course.rest (not_gone_of_call hc rfl rfl) hh lock (.inr runtime)
          exact ⟨resting_steady steady rest, by simp [setCall, hh]⟩
      | taken run r asked lock runtime at_run eq =>
          subst eq
          exact (goes (calls_setCall_of rfl hc _) rfl).elim
      | pushed _ _ asked | launched _ asked | recovering _ asked =>
          subst asked
          cases stop
  | recovered maxAge recovery o memory es under step eq =>
      subst under
      cases stop
  | joined m loop r next panicked under run after eq ended all =>
      subst eq
      exact (goes (calls_setCall_of rfl hc next) (by rcases after with rfl | ⟨rfl, -⟩ <;> rfl)).elim
  | drained m r under run eq =>
      subst eq
      exact (goes (calls_setCall_of rfl hc _) rfl).elim
  | released m claim rest under eq =>
      subst eq
      exact (goes (calls_setCall_of rfl hc _) rfl).elim
  | ended m under eq =>
      subst eq under
      obtain ⟨-, h, r, under⟩ := course.stop (m := m) hc rfl
      obtain rfl := Option.some.inj (hh.symm.trans under.handle)
      obtain ⟨hi, -⟩ := List.getElem?_eq_some_iff.mp hh
      have calls := calls_ended (i := m) hc { hd with running := false, lock := none }
        (.finished c.now (.ok .done))
      exact ⟨resting_end under (by rfl) rfl (by simp [setHandle, setCall]) calls
        ⟨[.queueStopped], by simp [Lossless], rfl⟩, by simp [setHandle, setCall, hi]⟩

/-! ### Where tasks are when nothing is going -/

theorem stock_of_resting (rest : Resting i c) (x : String) : c.stock x = ⟨0, 0, 0, 0⟩ := by
  have empty (r : Run) (hr : r ∈ c.runs) :
      r.unloaded = [] ∧ r.unclaimed = [] ∧ r.sending = [] ∧ r.working = [] := by
    obtain ⟨n, hn⟩ := List.getElem?_of_mem hr
    have spent := rest.spent n r hn
    have dead := ((Run.spent_iff r).mp spent).1
    obtain ⟨unclaimed, -, -, unloaded⟩ :=
      Fetcher.hand_of_free (Fetcher.held?_of_not_live dead)
    exact ⟨by simp [Run.unloaded, unloaded], by simp [Run.unclaimed, unclaimed], spent.sending,
      spent.working⟩
  have left : c.left = [] := List.flatMap_eq_nil_iff.mpr fun call hc => by
    obtain ⟨n, hn⟩ := List.getElem?_of_mem hc
    exact Stage.left_of_stopping? (rest.free n call hn)
  have unloaded : c.unloaded = [] := List.flatMap_eq_nil_iff.mpr fun r hr => (empty r hr).1
  have unclaimed : c.unclaimed = [] := List.flatMap_eq_nil_iff.mpr fun r hr => (empty r hr).2.1
  have working : c.working = [] := List.flatMap_eq_nil_iff.mpr fun r hr => (empty r hr).2.2.2
  have sending : c.sending = [] := by
    rw [Cluster.sending, left, List.append_nil]
    exact List.flatMap_eq_nil_iff.mpr fun r hr => (empty r hr).2.2.1
  simp [stock, unloaded, unclaimed, sending, working]

end Cluster

/-! ### Claims that are left -/

/-- The latest claim of `x` is of a task that was handed to a worker, and whatever a worker had of
`x` since then was not settled: the settlement failed, or the worker panicked. -/
def HandedOut (x : String) (es : List Event) : Prop :=
  ∃ later claim earlier, es = later ++ .claimed claim :: earlier ∧ claim.id = x ∧
    tally Event.claimedIds later x = 0 ∧ tally Event.settledIds later x = 0 ∧
    0 < tally Event.receivedIds later x ∧
    tally Event.receivedIds later x ≤
      tally Event.unsettledIds later x + tally Event.panickedIds later x

theorem Single.claimed {es : List Event} (h : Single es) (now : 0 < tally Event.claimedIds es x) :
    ∃ rest claim, es = rest ++ [.claimed claim] ∧ claim.id = x ∧
      ∀ e ∈ rest, e.isPassive = true := by
  obtain ⟨e, rest, rfl, named, passive⟩ := h.of_tally (by simp) now
  cases e with
  | claimed claim => exact ⟨rest, claim, rfl, (List.mem_singleton.mp named).symm, passive⟩
  | _ => cases named

namespace Cluster

/-- Where the claim of `x` was set that stands. -/
theorem last_claim {ok : Cluster → Act → Prop} (h : Reaches ok c d)
    (one : ∀ c a, ok c a → OnQueue name c a) (named : c.Named name)
    (free : c.claim? name x = none) (claimed : (d.claim? name x).isSome = true) :
    ∃ b later rest claim earlier, Trace (.ofName name) later b d ∧
      b.events = rest ++ .claimed claim :: earlier ∧ claim.id = x ∧
      (∀ e ∈ rest, e.isPassive = true) ∧
      0 < (b.sending.map Claim.id).count x + tally Event.discardedIds rest x ∧
      tally Event.claimedIds later x = 0 ∧ tally Event.unclaimedIds later x = 0 := by
  induction h with
  | refl =>
      rw [free] at claimed
      cases claimed
  | @perform b d a hr ok hp ih =>
      have named' := named.of_reaches hr one
      obtain ⟨es, trace, single⟩ := Trace.of_change (change_of_perform named' hp)
      by_cases now : 0 < tally Event.claimedIds es x
      · obtain ⟨rest, claim, rfl, rfl, passive⟩ := single.claimed now
        refine ⟨d, [], rest, claim, b.events, .refl _ d, by simp [trace.events], rfl, passive,
          ?_, rfl, rfl⟩
        have line := (trace.flow claim.id).line
        have none {f : Event → List String} (hf : ReadsActs f) (other : f (.claimed claim) = []) :
            tally f (rest ++ [.claimed claim]) claim.id = 0 := by
          rw [tally_append, hf.tally passive, tally_cons, other]
          rfl
        have lost : tally Event.discardedIds (rest ++ [.claimed claim]) claim.id =
            tally Event.discardedIds rest claim.id := by
          rw [tally_append]
          rfl
        rw [none (f := Event.receivedIds) (by simp) rfl,
          none (f := Event.releasedIds) (by simp) rfl,
          none (f := Event.unreleasedIds) (by simp) rfl, lost] at line
        simp only [stock] at line
        omega
      · obtain ⟨kept, stood⟩ := ((claim_after trace single x).mp claimed).resolve_left now
        obtain ⟨m, later, rest, claim, earlier, since, before, same, passive, sending, set,
          unset⟩ := ih stood
        refine ⟨m, es ++ later, rest, claim, earlier, trace.append since, before, same, passive,
          sending, ?_, ?_⟩ <;> rw [tally_append] <;> omega

theorem Intact.discarded (intact : c.Intact) (x : String) :
    tally Event.discardedIds c.events x = 0 := by
  refine tally_eq_zero.mpr fun e he hx => ?_
  cases e with
  | discarded id => exact intact id he
  | _ => cases hx

/-- Where nothing is going and no release of `x` failed, a claim of `x` that is left was of a task
that was handed out. -/
theorem handedOut_of_resting {ok : Cluster → Act → Prop} (h : Reaches ok c d)
    (one : ∀ c a, ok c a → OnQueue name c a) (named : c.Named name) (rest : Resting i d)
    (free : c.claim? name x = none) (unreleased : tally Event.unreleasedIds d.events x = 0)
    (claimed : (d.claim? name x).isSome = true) : HandedOut x d.events := by
  obtain ⟨b, later, lost, claim, earlier, since, before, same, passive, sending, set, unset⟩ :=
    last_claim h one named free claimed
  have events : d.events = (later ++ lost) ++ .claimed claim :: earlier := by
    rw [since.events, before, List.append_assoc]
  have discarded := rest.intact.discarded x
  obtain ⟨-, -, line, work⟩ := since.flow x
  have removed := tally_unclaimed later x
  have ended := tally_ended later x
  simp only [events, tally_append] at unreleased discarded
  rw [stock_of_resting rest x] at line work
  simp only [stock] at line work
  refine ⟨later ++ lost, claim, earlier, events, same, ?_, ?_, ?_, ?_⟩
  all_goals
    simp only [tally_append, ReadsActs.tally (f := Event.claimedIds) (by simp) passive x,
      ReadsActs.tally (f := Event.settledIds) (by simp) passive x,
      ReadsActs.tally (f := Event.receivedIds) (by simp) passive x]
    omega

/-! ### What a stop leaves behind -/

/-- Nothing is going in `c`, which has come from a store `m`, and what was popped and not handed
to a worker is back in the backlog or could not be put back. -/
structure Drained (name : String) (i : Nat) (m : Store.Memory) (c : Cluster) : Prop where
  /-- The handle does not run. -/
  idle : ∃ h, c.handles[i]? = some h ∧ h.running = false
  /-- All loops have ended, and the channels are empty. -/
  spent : ∀ (n : Nat) (r : Run), c.runs[n]? = some r → r.Spent
  /-- No task was lost with a channel or a stop. -/
  intact : c.Intact
  /-- A task that was popped was claimed or went back, but for failures. -/
  popped : ∀ x, tally Event.poppedIds c.events x =
    tally Event.claimedIds c.events x + tally Event.requeuedIds c.events x +
      tally Event.unqueuedIds c.events x
  /-- A task that was claimed was handed to a worker or released, but for failures. -/
  claimed : ∀ x, tally Event.claimedIds c.events x =
    tally Event.receivedIds c.events x + tally Event.releasedIds c.events x +
      tally Event.unreleasedIds c.events x
  /-- All that was ever in the backlog is there or was handed to a worker, but for failures. -/
  pending : ∀ x, (c.pending name).count x + tally Event.receivedIds c.events x +
      tally Event.unqueuedIds c.events x + tally Event.unreleasedIds c.events x =
    (m.contents.list (Keys.ofName name).pending).count x + tally Event.pushedIds c.events x +
      tally Event.recoveredIds c.events x
  /-- A release put its task back and removed the claim at once. -/
  released : ∀ x later earlier, c.events = later ++ .released x :: earlier →
    ∃ before after : Contents, Leads (.ofName name) m.contents earlier before ∧
      Leads (.ofName name) after later c.memory.contents ∧
      after.list (Keys.ofName name).pending = x :: before.list (Keys.ofName name).pending ∧
      after.score? (Keys.ofName name).processing x = none
  /-- A release that failed did neither. -/
  unreleased : ∀ x cause later earlier, c.events = later ++ .releaseFailed x cause :: earlier →
    ∃ same : Contents, Leads (.ofName name) m.contents earlier same ∧
      Leads (.ofName name) same later c.memory.contents
  /-- Where no claim was at first and no release failed, a claim that is left is of a task that a
  worker had and did not settle. -/
  left : ∀ x, m.contents.score? (Keys.ofName name).processing x = none →
    tally Event.unreleasedIds c.events x = 0 → (c.claim? name x).isSome = true →
    HandedOut x c.events

theorem drained_of_resting (h : Reaches (SoleClaimer name i) (onStore epoch m) c)
    (rest : Resting i c) (handle : (c.handles[i]?).isSome = true) : c.Drained name i m := by
  have one (b : Cluster) (a : Act) (ok : SoleClaimer name i b a) : OnQueue name b a := ok.onQueue
  have named := named_onStore name epoch m
  obtain ⟨es, trace⟩ := h.trace one named
  obtain rfl : es = c.events := (trace.events.trans (List.append_nil es)).symm
  have flow (x : String) := trace.flow x
  have none (x : String) : (onStore epoch m).stock x = ⟨0, 0, 0, 0⟩ := rfl
  simp only [stock_of_resting rest, none] at flow
  have popped (x : String) := (flow x).hand
  have claimed (x : String) := (flow x).line
  simp only [rest.intact.discarded, Nat.add_zero, Nat.zero_add] at popped claimed
  refine {
    idle := ?_, spent := rest.spent, intact := rest.intact, popped, claimed
    pending := fun x => ?_, released := fun x later earlier split => ?_
    unreleased := fun x cause later earlier split => ?_
    left := fun x free unreleased => handedOut_of_resting h one named rest free unreleased }
  · obtain ⟨hd, hh⟩ := Option.isSome_iff_exists.mp handle
    exact ⟨hd, hh, (rest.handle hd hh).running⟩
  · have backlog := trace.leads.backlog x
    have := popped x
    have := claimed x
    rw [Cluster.pending]
    show _ = (m.contents.list _).count x + _ + _
    change _ = (m.contents.list _).count x + _ + _ + _ + _ at backlog
    omega
  · have leads := trace.leads
    rw [split] at leads
    obtain ⟨before, after, early, effect, late⟩ := leads.at_event
    refine ⟨before, after, early, late, ?_, ?_⟩
    · rw [show after = _ from effect, pending_release]
    · rw [show after = _ from effect, score?_release, if_pos rfl]
  · have leads := trace.leads
    rw [split] at leads
    obtain ⟨before, after, early, effect, late⟩ := leads.at_event
    obtain rfl : after = before := effect
    exact ⟨after, early, late⟩

/-- Once a run is cancelled, only a loop that had looked before passes a task on, and only one. A
stop that has returned leaves nothing going, now or later, and what was popped and not handed to a
worker in the backlog. -/
theorem stop_drains (h : Reaches (SoleClaimer name i) (onStore epoch m) c) :
    (∀ n ts d, c.Cancelled n → Moments c ts d → Shut n c ts) ∧
      ∀ n a d, c.StopWaits i n → SoleClaimer name i c a → c.perform a = some d → d.Returned n →
        d.Drained name i m ∧
          ∀ n e, n < d.runs.length → Reaches (SoleClaimer name i) d e → e.Still n := by
  have one (b : Cluster) (a : Act) (ok : SoleClaimer name i b a) : OnQueue name b a := ok.onQueue
  have named := (named_onStore name epoch m).of_reaches h one
  refine ⟨fun n ts d cancelled later => cancelled.shut later, ?_⟩
  intro n a d waits ok hp returned
  obtain ⟨rest, handle⟩ := resting_of_returned (sole_of_reaches h).course waits hp returned
  refine ⟨drained_of_resting (.perform h ok hp) rest handle, fun j e hj later => ?_⟩
  have run := List.getElem?_eq_getElem hj
  obtain ⟨r, hr, on⟩ := RunsGoOn.of_reaches later one (named.perform ok.onQueue hp) j _ run
  exact still_of_spent hr (on.spent (rest.spent j _ run))

/-- A task is sent to a worker that does not take it, and the queue is stopped. -/
def stoppedDelivery : List Act := List.flatten [
  [.build "q" { workers := 1 }, .newToken, .invoke 0 (.push [{ id := "x" }]), .step (.call 0),
    .invoke 0 (.start ⟨[0]⟩), .step (.call 1)],
  List.replicate 8 (.step (.fetcher 0)),
  [.invoke 0 .stop, .step (.call 2)],
  List.replicate 2 (.step (.fetcher 0)),
  List.replicate 3 (.step (.worker 0 0)),
  List.replicate 4 (.step (.call 2))]

def stoppingOne : Cluster := ((onStore 0 {}).run stoppedDelivery).get (by decide +kernel)

def stoppedOne : Cluster := (stoppingOne.perform (.step (.call 2))).get (by decide +kernel)

theorem run_stoppedDelivery : (onStore 0 {}).run stoppedDelivery = some stoppingOne :=
  (Option.some_get _).symm

/-- A task is in the channel and another one in the hand of the fetcher. Both loops have looked
when the queue is stopped. -/
def lateStop : List Act := List.flatten [
  [.build "q" { workers := 1 }, .newToken, .invoke 0 (.push [{ id := "x" }, { id := "y" }]),
    .step (.call 0), .invoke 0 (.start ⟨[0]⟩), .step (.call 1)],
  List.replicate 14 (.step (.fetcher 0)),
  List.replicate 2 (.step (.worker 0 0)),
  [.invoke 0 .stop, .step (.call 2)]]

def lateStopped : Cluster := ((onStore 0 {}).run lateStop).get (by decide +kernel)

def lastPasses : List Act := [.step (.worker 0 0), .step (.fetcher 0)]

def lastPassed : Cluster := (lateStopped.run lastPasses).get (by decide +kernel)

theorem reaches_lateStopped : Reaches (SoleClaimer "q" 0) (onStore 0 {}) lateStopped :=
  .of_run (by simp [lateStop, SoleClaimer]) (Option.some_get _).symm

theorem cancelled_lateStopped : lateStopped.Cancelled 0 := by
  refine ⟨(lateStopped.runs[0]?).get (by decide +kernel), (Option.some_get _).symm, ?_⟩
  decide +kernel

theorem moments_lastPassed :
    Moments lateStopped (momentsOf lateStopped [] lastPasses) lastPassed :=
  .of_run .refl (Option.some_get _).symm

theorem stop_drains_stoppedOne :
    (stoppedOne.Drained "q" 0 {} ∧ stoppedOne.Still 0 ∧ stoppedOne.pending "q" = ["x"] ∧
      stoppedOne.claim? "q" "x" = none ∧ tally Event.releasedIds stoppedOne.events "x" = 1) ∧
    Shut 0 lateStopped (momentsOf lateStopped [] lastPasses) := by
  have reached : Reaches (SoleClaimer "q" 0) (onStore 0 {}) stoppingOne :=
    .of_run (by simp [stoppedDelivery, SoleClaimer]) run_stoppedDelivery
  have waits : stoppingOne.StopWaits 0 2 := by decide +kernel
  have returned : stoppedOne.Returned 2 := by decide +kernel
  obtain ⟨drained, still⟩ := (stop_drains reached).2 2 (.step (.call 2)) stoppedOne waits trivial
    (Option.some_get _).symm returned
  refine ⟨⟨drained, still 0 _ (by decide +kernel) .refl, ?_⟩, ?_⟩
  · decide +kernel
  · exact (stop_drains reaches_lateStopped).1 0 _ _ cancelled_lateStopped moments_lastPassed

/-- Two tasks with one identifier are claimed. The first one is settled while the second one is in
the channel and the queue is being stopped. -/
def twinStop : List Act := List.flatten [
  [.build "q" { workers := 1 }, .newToken, .invoke 0 (.push [{ id := "x" }, { id := "x" }]),
    .step (.call 0), .invoke 0 (.start ⟨[0]⟩), .step (.call 1)],
  List.replicate 15 (.step (.fetcher 0)),
  List.replicate 4 (.step (.worker 0 0)),
  [.executorReturns 0 0 .succeeded, .invoke 0 .stop, .step (.call 2)],
  List.replicate 3 (.step (.worker 0 0)),
  List.replicate 2 (.step (.fetcher 0)),
  List.replicate 3 (.step (.call 2))]

def twinStopping : Cluster := ((onStore 0 {}).run twinStop).get (by decide +kernel)

def twinReleased : Cluster := (twinStopping.perform (.step (.call 2))).get (by decide +kernel)

/-- After the cancellation a worker may receive a task and the fetcher may send one, and a task that
was claimed may have lost its claim to the settlement of a twin by the time of its release. -/
theorem not_shut_nor_claimed :
    (¬∀ c n ts d j, Reaches (SoleClaimer "q" 0) (onStore 0 {}) c → Cancelled n c →
      Moments c ts d → ts.flatMap (Moment.received n j) = []) ∧
    (¬∀ c n ts d, Reaches (SoleClaimer "q" 0) (onStore 0 {}) c → Cancelled n c →
      Moments c ts d → ts.flatMap (Moment.sent n) = []) ∧
    ¬∀ c a d x, Reaches (SoleClaimer "q" 0) (onStore 0 {}) c → SoleClaimer "q" 0 c a →
      c.perform a = some d → d.events = .released x :: c.events →
      tally Event.claimedIds c.events x = tally Event.poppedIds c.events x →
      (c.claim? "q" x).isSome = true := by
  refine ⟨fun silent => ?_, fun silent => ?_, fun claimed => ?_⟩
  · have none := silent lateStopped 0 _ _ 0 reaches_lateStopped cancelled_lateStopped
      moments_lastPassed
    revert none
    decide +kernel
  · have none := silent lateStopped 0 _ _ reaches_lateStopped cancelled_lateStopped
      moments_lastPassed
    revert none
    decide +kernel
  · have twins : Reaches (SoleClaimer "q" 0) (onStore 0 {}) twinStopping :=
      .of_run (by simp [twinStop, SoleClaimer]) (Option.some_get _).symm
    have stands := claimed twinStopping (.step (.call 2)) twinReleased "x" twins trivial
      (Option.some_get _).symm (by decide +kernel) (by decide +kernel)
    revert stands
    decide +kernel

end Cluster

end ReliableQueue.Queue
