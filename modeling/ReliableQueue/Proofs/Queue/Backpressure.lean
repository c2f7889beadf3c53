import ReliableQueue.Proofs.Queue.Outstanding
import ReliableQueue.Proofs.Queue.Losses

/-!
Backpressure. A handle never holds more tasks than its workers, its channel and its fetcher have
room for, however its runs are started, stopped and given up: but for one, all of them are over.
So no more tasks than that are claimed at a time where no other handle claims any.
-/

namespace ReliableQueue.Queue

variable {name : String} {i : Nat} {a : Act} {b c d : Cluster} {epoch : Nat} {m : Store.Memory}
  {ok : Cluster → Act → Prop}

namespace Run

theorem working_length (r : Run) : r.working.length ≤ r.workers.length :=
  length_flatMap_le fun _ _ => Option.length_toList_le

end Run

namespace Cluster

/-! ### The share of a handle -/

theorem length_holds (c : Cluster) : c.holds.length =
    c.inHand.length + c.buffered.length + c.working.length + c.left.length := by
  have runs : (c.runs.flatMap Run.holds).length =
      c.inHand.length + c.buffered.length + c.working.length := by
    rw [inHand, buffered, working]
    induction c.runs with
    | nil => rfl
    | cons r rest ih =>
        simp only [List.flatMap_cons, List.length_append, Run.holds, List.length_map] at ih ⊢
        omega
  rw [holds, List.length_append, List.length_map, runs]

/-- What a stop has taken out of a channel had room there. -/
theorem left_of_reaches (hr : Reaches ok (onStore epoch m) c) {n : Nat} {call : Call}
    (hc : c.calls[n]? = some call) : call.stage.left = [] ∨
      ∃ h, c.handles[call.handle]? = some h ∧ call.stage.left.length ≤ h.options.bufferSize := by
  induction hr generalizing n call with
  | refl => cases hc
  | @perform b d a hr allowed hp ih =>
      have kept {old : Call} (at_call : b.calls[n]? = some old) (own : old.handle = call.handle)
          (short : call.stage.left.length ≤ old.stage.left.length) : call.stage.left = [] ∨
            ∃ h, d.handles[call.handle]? = some h ∧
              call.stage.left.length ≤ h.options.bufferSize := by
        rcases ih at_call with empty | ⟨h, hh, room⟩
        · rw [empty] at short
          exact .inl (List.length_eq_zero_iff.mp (Nat.le_zero.mp short))
        · obtain ⟨h', hh', same, -⟩ := handle_of_perform hp hh
          exact .inr ⟨h', own ▸ hh', same ▸ Nat.le_trans short room⟩
      cases stops : call.stage.stopping? with
      | none => exact .inl (Stage.left_of_stopping? stops)
      | some k =>
          cases under_of_perform hp hc stops with
          | same old => exact kept old rfl (Nat.le_refl _)
          | taken r run runs stage => exact .inl (by rw [stage]; rfl)
          | went old at_call own before runs ends left =>
              rcases left with short | ⟨r, run, taken⟩
              · exact kept at_call own short
              · -- The run is one of the same handle, and its channel was of the right size.
                have standing := anyhow_of_reaches hr old.handle
                obtain ⟨_, r', under⟩ := standing.stopping_of at_call rfl before
                obtain rfl := Option.some.inj (run.symm.trans under.run)
                obtain ⟨h, hh, fits⟩ := fitted_of_reaches hr k r run
                obtain ⟨h', hh', same, -⟩ := handle_of_perform hp hh
                refine .inr ⟨h', ?_, ?_⟩
                · rw [← own, ← under.own]
                  exact hh'
                · rw [taken, List.length_reverse, same]
                  exact fits.buffer

/-- While a stop of a handle has tasks to release, all runs of the handle are over, and no other
call on it has any. -/
theorem spent_of_left (hr : Reaches ok (onStore epoch m) c) {n : Nat} {call : Call}
    (at_call : c.calls[n]? = some call) (own : call.handle = i) (full : call.stage.left ≠ []) :
    (∀ r ∈ c.runs, r.handle = i → r.Spent) ∧ (c.share i).left = call.stage.left := by
  have standing := anyhow_of_reaches hr i
  obtain ⟨k, stops⟩ : ∃ k, call.stage.stopping? = some k :=
    Option.ne_none_iff_exists'.mp fun idle => full (Stage.left_of_stopping? idle)
  obtain ⟨_, r, under⟩ := standing.stopping_of at_call own stops
  constructor
  · obtain ⟨r', run, ends⟩ := awaited_of_reaches hr n k call at_call stops
    have ended : r'.Spent := by
      cases hs : call.stage <;> rw [hs] at full ends <;>
        first | exact ends.2 | exact (full rfl).elim
    intro q hq own
    obtain ⟨j, hj⟩ := List.getElem?_of_mem hq
    rcases Decidable.em (j = k) with rfl | apart
    · obtain rfl := Option.some.inj (run.symm.trans hj)
      exact ended
    · exact under.spent j q apart hj own
  · rw [Cluster.left, share, flatMap_filter, flatMap_of_only at_call fun j old hj hc => ?_]
    · simp [own]
    · split
      · next own =>
          exact Stage.left_of_stopping?
            (under.free j old (by simpa using hj) hc (of_decide_eq_true own))
      · rfl

/-- The channel and the stop of a handle have no more than the channel has room for. -/
theorem line_of_reaches (hr : Reaches ok (onStore epoch m) c) {h : Handle}
    (handle : c.handles[i]? = some h) :
    (c.share i).buffered.length + (c.share i).left.length ≤ h.options.bufferSize := by
  have standing := anyhow_of_reaches hr i
  have line {b : Nat} (most : ∀ r ∈ c.runs, r.handle = i → r.channel.buffer.length ≤ b) :
      (c.share i).buffered.length ≤ b :=
    length_share_le standing (fun r spent => spent.2) most
  rcases Classical.em (∃ call ∈ c.calls, call.handle = i ∧ call.stage.left ≠ []) with
    ⟨call, hc, own, full⟩ | free
  · obtain ⟨n, at_call⟩ := List.getElem?_of_mem hc
    obtain ⟨spent, left⟩ := spent_of_left hr at_call own full
    obtain ⟨h', hh', room⟩ := (left_of_reaches hr at_call).resolve_left full
    obtain rfl := Option.some.inj (handle.symm.trans (own ▸ hh'))
    have empty := line (b := 0) fun q hq own => by simp [(spent q hq own).2]
    rw [left]
    omega
  · have left : (c.share i).left = [] := List.flatMap_eq_nil_iff.mpr fun call hc => by
      obtain ⟨hc, own⟩ := mem_share hc
      exact Classical.byContradiction fun full => free ⟨call, hc, own, full⟩
    rw [left]
    refine line fun r hq own => ?_
    obtain ⟨n, run⟩ := List.getElem?_of_mem hq
    obtain ⟨h', hh', fits⟩ := fitted_of_reaches hr n r run
    obtain rfl := Option.some.inj (handle.symm.trans (own ▸ hh'))
    exact fits.buffer

/-- What a handle with options `o` has is bounded by what it has room for; `c` is its share. -/
structure Bounded (o : Options) (c : Cluster) : Prop where
  executing : c.executing.length ≤ o.workers
  buffered : c.buffered.length ≤ o.bufferSize
  inHand : c.inHand.length ≤ 1
  line : c.buffered.length + c.left.length ≤ o.bufferSize
  working : c.working.length ≤ o.workers
  holds : c.holds.length ≤ o.workers + o.bufferSize + 1

theorem bounded_of_reaches (hr : Reaches ok (onStore epoch m) c) {h : Handle}
    (handle : c.handles[i]? = some h) : (c.share i).Bounded h.options := by
  have standing := anyhow_of_reaches hr i
  have size {r : Run} (hq : r ∈ c.runs) (own : r.handle = i) :
      r.workers.length ≤ h.options.workers := by
    obtain ⟨n, run⟩ := List.getElem?_of_mem hq
    obtain ⟨h', hh', fits⟩ := fitted_of_reaches hr n r run
    obtain rfl := Option.some.inj (handle.symm.trans (own ▸ hh'))
    exact Nat.le_of_eq fits.workers
  have line := line_of_reaches hr handle
  have inHand : (c.share i).inHand.length ≤ 1 :=
    length_share_le standing (fun r spent => spent.inHand) fun r _ _ => Option.length_toList_le
  have working : (c.share i).working.length ≤ h.options.workers :=
    length_share_le standing (fun r spent => spent.working) fun r hq own =>
      Nat.le_trans r.working_length (size hq own)
  refine ⟨?_, Nat.le_trans (Nat.le_add_right _ _) line, inHand, line, working, ?_⟩
  · refine length_share_le standing (fun r spent => ?_) fun r hq own =>
      Nat.le_trans (length_flatMap_le fun w _ => ?_) (size hq own)
    · refine List.flatMap_eq_nil_iff.mpr fun w hw => ?_
      obtain ⟨j, hj⟩ := List.getElem?_of_mem hw
      have dead := ((Run.spent_iff r).mp spent).2.1 j w hj
      cases w <;> first | rfl | cases dead
    · cases w <;> simp
  · rw [length_holds]
    omega

/-! ### Claims -/

/-- No release and no settlement failed, and no worker panicked. -/
def Unbroken (es : List Event) : Prop :=
  ∀ e ∈ es, e.unreleasedIds = [] ∧ e.unsettledIds = [] ∧ e.panickedIds = []

instance (es : List Event) : Decidable (Unbroken es) :=
  inferInstanceAs (Decidable (∀ e ∈ es, _ ∧ _))

theorem length_outstanding_le (c : Cluster) : c.outstanding.length ≤ c.holds.length := by
  have runs : (c.runs.flatMap Run.sending).length + (c.runs.flatMap Run.working).length ≤
      (c.runs.flatMap Run.holds).length := by
    induction c.runs with
    | nil => exact Nat.le_refl 0
    | cons r rest ih =>
        have hand : r.fetcher.claimed?.toList.length ≤ r.inHand.length := by
          rw [Run.inHand]
          cases r.fetcher <;> simp [Fetcher.claimed?, Fetcher.held?]
        simp only [List.flatMap_cons, List.length_append, Run.holds, Run.sending,
          List.length_map] at ih ⊢
        omega
  simp only [outstanding, sending, working, holds, List.length_append, List.length_map]
  omega

theorem mem_outstanding_share (idle : OthersIdle i c) {claim : Claim}
    (held : claim ∈ c.outstanding) : claim ∈ (c.share i).outstanding := by
  have own {f : Run → List Claim} (none : ∀ r : Run, r.Unclaimed → f r = [])
      (h : claim ∈ c.runs.flatMap f) : claim ∈ (c.share i).runs.flatMap f := by
    obtain ⟨r, hr, hc⟩ := List.mem_flatMap.mp h
    have handle : r.handle = i := Classical.byContradiction fun foreign => by
      rw [none r (idle.runs r hr foreign)] at hc
      cases hc
    exact List.mem_flatMap.mpr ⟨r, by simp [share, hr, handle], hc⟩
  simp only [outstanding, sending, List.mem_append] at held ⊢
  rcases held with (held | held) | held
  · exact .inl (.inl (own (fun _ none => none.sending) held))
  · obtain ⟨call, hc, left⟩ := List.mem_flatMap.mp held
    have handle : call.handle = i := Classical.byContradiction fun foreign => by
      rw [idle.calls call hc foreign] at left
      cases left
    exact .inl (.inr (List.mem_flatMap.mpr ⟨call, by simp [share, hc, handle], left⟩))
  · exact .inr (own (fun _ none => none.working) held)

/-- Once its last channel is gone, a handle has at most what its fetcher has claimed. -/
theorem length_outstanding_hollow (standing : Standing True i c) (deaf : Deaf i c)
    (hollow : ∀ r ∈ c.runs, r.handle = i → r.Hollow) : (c.share i).outstanding.length ≤ 1 := by
  have sending : ((c.share i).runs.flatMap Run.sending).length ≤ 1 :=
    length_share_le standing (fun r spent => spent.sending) fun r hr own => by
      rw [Run.sending, (hollow r hr own).buffer, List.append_nil]
      exact Option.length_toList_le
  have working : (c.share i).working.length ≤ 0 :=
    length_share_le standing (fun r spent => spent.working) fun r hr own => by
      rw [Run.working_of_ended (hollow r hr own).1]
      exact Nat.le_refl 0
  have left : (c.share i).left = [] := List.flatMap_eq_nil_iff.mpr fun call hc => by
    obtain ⟨hc, own⟩ := mem_share hc
    obtain ⟨n, at_call⟩ := List.getElem?_of_mem hc
    refine Stage.left_of_stopping? (Classical.byContradiction fun stops => ?_)
    obtain ⟨k, stops⟩ := Option.ne_none_iff_exists'.mp stops
    have live := isLive_of_stopping? stops
    rw [deaf n call at_call own] at live
    cases live
  simp only [outstanding, Cluster.sending, left, List.length_append, List.length_nil]
  omega

/-- Where handle `i` alone claims, the claims are those of the tasks that it has and that it lost. -/
theorem zcard_le (hr : Reaches ok (onStore epoch m) c)
    (one : ∀ c a, ok c a → OnQueue name c a ∧ Patient i c a)
    (free : ∀ x, m.contents.score? (Keys.ofName name).processing x = none)
    (clean : Unbroken c.events) (sole : c.SoleClaims i) {h : Handle}
    (handle : c.handles[i]? = some h) :
    c.memory.zcard (Keys.ofName name).processing ≤
      h.options.workers + h.options.bufferSize + 1 := by
  obtain ⟨idle, lost⟩ := lost_of_reaches hr (fun c a allowed => (one c a allowed).2) sole
  have claims : c.memory.zcard (Keys.ofName name).processing ≤
      ((c.share i).outstanding.map Claim.id ++ c.losses).length := by
    refine Table.size_le_length fun x claimed => ?_
    have left := outstanding_of_claim hr (fun c a allowed => (one c a allowed).1)
      (named_onStore name epoch m) (free x) claimed
    have none {f : Event → List String} (hf : ∀ e ∈ c.events, f e = []) :
        tally f c.events x = 0 := tally_eq_zero.mpr fun e he => hf e he ▸ List.not_mem_nil
    rw [none fun e he => (clean e he).1, none fun e he => (clean e he).2.1,
      none fun e he => (clean e he).2.2] at left
    rw [List.mem_append]
    rcases Nat.eq_zero_or_pos ((c.outstanding.map Claim.id).count x) with gone | held
    · exact .inr (List.count_pos_iff.mp (by rw [losses, ← tally]; omega))
    · obtain ⟨claim, hc, rfl⟩ := List.mem_map.mp (List.count_pos_iff.mp held)
      exact .inl (List.mem_map_of_mem (mem_outstanding_share idle hc))
  have bounded := (bounded_of_reaches hr handle).holds
  have most := (c.share i).length_outstanding_le
  rw [List.length_append, List.length_map] at claims
  cases lost with
  | nothing none =>
      rw [none, List.length_nil] at claims
      omega
  | channel h' handle' given deaf within =>
      obtain rfl := Option.some.inj (handle.symm.trans handle')
      rcases within with none | ⟨few, hollow⟩
      · rw [none, List.length_nil] at claims
        omega
      · have last := length_outstanding_hollow (anyhow_of_reaches hr i) deaf hollow
        omega

/-- A handle has at most as many calls of its executor under way as it has workers, its channel
and a stop of it have no more tasks than the channel has room for, and all that it has is at most
one more than both, which is the one in the hand of its fetcher. If it alone claims, no stop of it
is given up and nothing breaks, the claims are no more than that either. -/
theorem backpressure (hr : Reaches ok (onStore epoch m) c) {h : Handle}
    (handle : c.handles[i]? = some h) :
    (c.share i).Bounded h.options ∧
      ((∀ c a, ok c a → OnQueue name c a ∧ Patient i c a) →
        (∀ x, m.contents.score? (Keys.ofName name).processing x = none) →
        Unbroken c.events → c.SoleClaims i →
        c.memory.zcard (Keys.ofName name).processing ≤
          h.options.workers + h.options.bufferSize + 1) :=
  ⟨bounded_of_reaches hr handle, fun one free clean sole => zcard_le hr one free clean sole handle⟩

/-- One task is at the executor, one in the channel, and one in the hand of the fetcher. -/
def fullDelivery : List Act := List.flatten [
  [.build "q" { workers := 1, bufferSize := 1 }, .newToken,
    .invoke 0 (.push [{ id := "x" }, { id := "y" }, { id := "z" }]), .step (.call 0),
    .invoke 0 (.start ⟨[0]⟩), .step (.call 1)],
  List.replicate 8 (.step (.fetcher 0)),
  List.replicate 4 (.step (.worker 0 0)),
  List.replicate 12 (.step (.fetcher 0))]

def fullDelivered : Cluster := ((onStore 0 {}).run fullDelivery).get (by decide +kernel)

theorem run_fullDelivery : (onStore 0 {}).run fullDelivery = some fullDelivered :=
  (Option.some_get _).symm

theorem backpressure_fullDelivered :
    (fullDelivered.share 0).Bounded { workers := 1, bufferSize := 1 } ∧
      (fullDelivered.share 0).holds = ["z", "y", "x"] ∧
      fullDelivered.memory.zcard (Keys.ofName "q").processing ≤ 3 ∧
      fullDelivered.memory.zcard (Keys.ofName "q").processing = 3 := by
  have reached : Reaches (fun c a => OnQueue "q" c a ∧ Patient 0 c a) (onStore 0 {})
      fullDelivered :=
    .of_run (by simp [fullDelivery, OnQueue, Patient]) run_fullDelivery
  have handle : fullDelivered.handles[0]? =
      some ⟨"q", { workers := 1, bufferSize := 1 }, true, some 0, none, true, false⟩ := by
    decide +kernel
  exact (backpressure reached handle).imp id fun claims => ⟨by decide +kernel,
    claims (fun _ _ allowed => allowed) (fun _ => rfl) (by decide +kernel) (by decide +kernel),
    by decide +kernel⟩

end Cluster

end ReliableQueue.Queue
