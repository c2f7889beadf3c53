import ReliableQueue.Proofs.Queue.Recoveries

/-!
The payloads of tasks. A push stores a payload, and the settlement of a task takes away the one
that was looked up for it. For a task that is pushed once, each lookup before its settlement
finds the payload that it was pushed with, whatever else happens.
-/

namespace ReliableQueue.Queue

open Store (Contents)
open Text (Bytes)

variable {k : Keys} {name x : String} {p : Bytes} {c d : Cluster}

/-! ### What is stored -/

/-- The payload of `x` that is stored after an event. -/
def Event.payloadAfter (x : String) (before : Option Bytes) : Event → Option Bytes
  | pushed tasks => lastPayload x before tasks
  | settled claim => if x = claim.id ∧ claim.payload ≠ [] then none else before
  | _ => before

/-- The payload of `x` that is stored after the events, latest first, if it is `before` before
them. -/
def payloadAfter (x : String) (before : Option Bytes) : List Event → Option Bytes
  | [] => before
  | e :: earlier => e.payloadAfter x (payloadAfter x before earlier)

theorem payloadAfter_append (x : String) (before : Option Bytes) (es earlier : List Event) :
    payloadAfter x before (es ++ earlier) = payloadAfter x (payloadAfter x before earlier) es := by
  induction es with
  | nil => rfl
  | cons e rest ih => simp only [List.cons_append, payloadAfter, ih]

theorem Effect.payload {before after : Contents} {e : Event} (h : Effect k before after e)
    (x : String) :
    after.field? k.payloads x = e.payloadAfter x (before.field? k.payloads x) := by
  cases e with
  | pushed tasks =>
      obtain ⟨some, rfl⟩ := h
      exact payload_push _ _ tasks some x
  | popped id =>
      obtain ⟨rest, -, rfl⟩ := h
      rfl
  | loaded claim =>
      obtain ⟨-, rfl⟩ := h
      rfl
  | claimed claim =>
      obtain ⟨stamp, rfl⟩ := h
      rfl
  | released id =>
      rw [show after = _ from h, field?_release]
      rfl
  | settled claim =>
      rw [show after = _ from h]
      exact payload_settle _ _ claim x
  | recovered id =>
      rw [show after = _ from h, field?_recovery]
      rfl
  | _ =>
      rw [show after = _ from h]
      rfl

theorem Leads.payload {first after : Contents} {es : List Event} (h : Leads k first es after)
    (x : String) :
    after.field? k.payloads x = payloadAfter x (first.field? k.payloads x) es := by
  induction h with
  | nil => rfl
  | cons _ effect ih => rw [effect.payload x, ih, payloadAfter]

theorem lastPayload_of_absent {tasks : List Task} (h : x ∉ tasks.map Task.id)
    (before : Option Bytes) : lastPayload x before tasks = before := by
  induction tasks generalizing before with
  | nil => rfl
  | cons t rest ih =>
      simp only [List.map_cons, List.mem_cons, not_or] at h
      rw [lastPayload, List.filter_cons]
      split
      · rw [List.foldl_cons, if_neg (Ne.symm h.1)]
        exact ih h.2 before
      · exact ih h.2 before

/-- A push that names `x` once stores its payload. -/
theorem lastPayload_of_once {tasks : List Task} (once : (tasks.map Task.id).count x = 1)
    (given : ⟨x, p⟩ ∈ tasks) (some : p ≠ []) (before : Option Bytes) :
    lastPayload x before tasks = .some p := by
  induction tasks generalizing before with
  | nil => cases given
  | cons t rest ih =>
      rw [List.map_cons, List.count_cons] at once
      by_cases ht : t.id = x
      · have none : x ∉ rest.map Task.id := by
          simp only [ht, beq_self_eq_true, if_true] at once
          exact List.count_eq_zero.mp (by omega)
        have first : t = ⟨x, p⟩ := by
          rcases List.mem_cons.mp given with h | h
          · exact h.symm
          · exact absurd (List.mem_map.mpr ⟨_, h, rfl⟩) none
        subst first
        rw [lastPayload, List.filter_cons, if_pos (by simpa [Task.hasPayload] using some),
          List.foldl_cons, if_pos rfl]
        exact lastPayload_of_absent none _
      · have later : ⟨x, p⟩ ∈ rest := by
          rcases List.mem_cons.mp given with h | h
          · exact absurd (by rw [← h]) ht
          · exact h
        simp only [beq_iff_eq, ht, if_false, Nat.add_zero] at once
        rw [lastPayload, List.filter_cons]
        split
        · rw [List.foldl_cons, if_neg ht]
          exact ih once later before
        · exact ih once later before

/-- Only a push or a settlement of `x` changes the payload of `x`. -/
theorem payloadAfter_of_other {es : List Event} (unpushed : tally Event.pushedIds es x = 0)
    (unsettled : tally Event.settledIds es x = 0) (before : Option Bytes) :
    payloadAfter x before es = before := by
  induction es with
  | nil => rfl
  | cons e rest ih =>
      rw [tally_cons] at unpushed unsettled
      rw [payloadAfter, ih (by omega) (by omega)]
      cases e with
      | pushed tasks =>
          have absent := List.count_eq_zero.mp (Nat.add_eq_zero_iff.mp unpushed).1
          exact lastPayload_of_absent absent before
      | settled claim =>
          have apart : x ≠ claim.id := fun same => by simp [same] at unsettled
          exact if_neg fun both => apart both.1
      | _ => rfl

theorem payloadAfter_none {es : List Event} (unpushed : tally Event.pushedIds es x = 0) :
    payloadAfter x none es = none := by
  induction es with
  | nil => rfl
  | cons e rest ih =>
      rw [tally_cons] at unpushed
      rw [payloadAfter, ih (by omega)]
      cases e with
      | pushed tasks =>
          have absent := List.count_eq_zero.mp (Nat.add_eq_zero_iff.mp unpushed).1
          exact lastPayload_of_absent absent none
      | settled claim => exact ite_self none
      | _ => rfl

/-- In a history, `x` is pushed once, with payload `p`. -/
structure PushedOnce (x : String) (p : Bytes) (es : List Event) : Prop where
  once : tally Event.pushedIds es x = 1
  given : ∃ tasks, .pushed tasks ∈ es ∧ ⟨x, p⟩ ∈ tasks

namespace PushedOnce

variable {es later earlier : List Event}

/-- The one push is in the part of a history that has a push. -/
theorem of_pushed (h : PushedOnce x p (later ++ earlier))
    (pushed : 0 < tally Event.pushedIds earlier x) :
    PushedOnce x p earlier ∧ tally Event.pushedIds later x = 0 := by
  obtain ⟨once, tasks, mem, given⟩ := h
  rw [tally_append] at once
  have none : tally Event.pushedIds later x = 0 := by omega
  refine ⟨⟨by omega, tasks, ?_, given⟩, none⟩
  refine (List.mem_append.mp mem).resolve_left fun hm => ?_
  exact tally_eq_zero.mp none _ hm (List.mem_map.mpr ⟨_, given, rfl⟩)

theorem append (h : PushedOnce x p earlier) (grown : es = later ++ earlier)
    (none : tally Event.pushedIds later x = 0) : PushedOnce x p es := by
  obtain ⟨once, tasks, mem, given⟩ := h
  subst grown
  exact ⟨by rw [tally_append, none, once], tasks, List.mem_append_right _ mem, given⟩

/-- The payload is stored until the task is settled. -/
theorem payloadAfter (h : PushedOnce x p es) (some : p ≠ [])
    (unsettled : tally Event.settledIds es x = 0) (before : Option Bytes) :
    payloadAfter x before es = .some p := by
  induction es with
  | nil => cases h.once
  | cons e rest ih =>
      rw [tally_cons] at unsettled
      rw [Queue.payloadAfter]
      by_cases pushed : 0 < tally Event.pushedIds rest x
      · obtain ⟨earlier, none⟩ := of_pushed (show PushedOnce x p ([e] ++ rest) from h) pushed
        rw [ih earlier (by omega)]
        exact payloadAfter_of_other (show tally Event.pushedIds [e] x = 0 from none)
          (by rw [tally_cons, tally_nil]; omega) _
      · obtain ⟨once, tasks, mem, given⟩ := h
        rcases List.mem_cons.mp mem with rfl | mem
        · rw [tally_cons] at once
          exact lastPayload_of_once (by simp only [Event.pushedIds] at once; omega) given some _
        · have : tally Event.pushedIds rest x = 0 := by omega
          exact absurd (List.mem_map.mpr ⟨_, given, rfl⟩) (tally_eq_zero.mp this _ mem)

end PushedOnce

namespace Cluster

/-- The payload stored for `x` on the queue stored under `name`. -/
def payload? (name x : String) (c : Cluster) : Option Bytes :=
  c.memory.contents.field? (Keys.ofName name).payloads x

theorem payload_after {es : List Event} (trace : Trace (.ofName name) es c d) (x : String) :
    d.payload? name x = payloadAfter x (c.payload? name x) es :=
  trace.leads.payload x

variable {epoch : Nat}

/-! ### What is looked up -/

/-- A payload is looked up only after its task was pushed. -/
theorem pushed_before_load (h : Reaches (OnQueue name) (empty epoch) c) {claim : Claim}
    {later earlier : List Event} (split : c.events = later ++ .loaded claim :: earlier) :
    0 < tally Event.pushedIds earlier claim.id := by
  induction h generalizing later with
  | refl => cases later <;> cases split
  | @perform b c a hr ok hp ih =>
      obtain ⟨es, events, loads⟩ :=
        loads_of_change (change_of_perform (named_of_reaches (fun _ _ ok => ok) hr) hp)
      rw [events] at split
      rcases List.append_eq_append_iff.mp split with ⟨rest, rfl, before⟩ | ⟨rest, rfl, after⟩
      · exact ih before
      · cases rest with
        | nil => exact @ih [] after.symm
        | cons e rest =>
            rw [List.cons_append, List.cons.injEq] at after
            obtain ⟨rfl, rfl⟩ := after
            obtain ⟨r, hr', loading⟩ := loads claim (by simp)
            have hand : claim.id ∈ b.unclaimed :=
              List.mem_flatMap.mpr ⟨r, hr', by simp [Run.unclaimed, loading, Fetcher.unclaimed?]⟩
            have here := List.count_pos_iff.mpr hand
            have before := accounts hr (fun _ _ ok => ok) claim.id
            rw [tally_append]
            refine Nat.add_pos_right _ (Nat.pos_of_ne_zero fun unpushed => ?_)
            have := (untouched hr unpushed).1
            omega

theorem payload_of_load (h : Reaches (OnQueue name) (empty epoch) c) {claim : Claim}
    {later earlier : List Event} (split : c.events = later ++ .loaded claim :: earlier) :
    claim.payload = (payloadAfter claim.id none earlier).getD [] := by
  have leads := (trace_of_reaches h fun _ _ ok => ok).leads
  rw [split] at leads
  obtain ⟨before, mid, early, effect, -⟩ := leads.at_event
  rw [effect.1, early.payload]
  rfl

/-- The claims of `x` with another payload than `p`. -/
def strange (x : String) (p : Bytes) (claim : Claim) : Bool :=
  claim.id = x && claim.payload ≠ p

/-- Until a task that is pushed once is settled, its lookups find its payload. -/
theorem no_strange_loads (h : Reaches (OnQueue name) (empty epoch) c)
    (pushed : PushedOnce x p c.events) (some : p ≠ []) {later earlier : List Event}
    (split : c.events = later ++ earlier) (unsettled : tally Event.settledIds earlier x = 0) :
    amount (strange x p) Event.loadedClaims earlier = 0 := by
  refine amount_eq_zero.mpr fun e he claim hc => ?_
  cases e with
  | loaded claim' =>
      obtain rfl := List.mem_singleton.mp hc
      obtain ⟨newer, older, rfl⟩ := List.append_of_mem he
      rw [← List.append_assoc] at split
      by_cases same : claim.id = x
      · have pushed_before := pushed_before_load h split
        rw [same] at pushed_before
        have apart : c.events = (later ++ newer ++ [.loaded claim]) ++ older := by simp [split]
        rw [apart] at pushed
        simp only [tally_append, tally_cons] at unsettled
        rw [strange, payload_of_load h split, same,
          (pushed.of_pushed pushed_before).1.payloadAfter some (by omega)]
        simp
      · simp [strange, same]
  | _ => cases hc

/-! ### What is settled -/

theorem settled_of_single {es : List Event} (single : Single es)
    (settled : 0 < tally Event.settledIds es x) :
    ∃ claim rest, es = rest ++ [.settled claim] ∧ claim.id = x ∧
      ∀ e ∈ rest, e.isPassive = true := by
  obtain ⟨e, rest, rfl, named, passive⟩ := single.of_tally (by simp) settled
  cases e with
  | settled claim => exact ⟨claim, rest, rfl, (List.mem_singleton.mp named).symm, passive⟩
  | _ => cases named

/-- An act that settles a task removes its claim, and neither pushes nor claims it. -/
theorem removed_of_single {es : List Event} (single : Single es)
    (settled : 0 < tally Event.settledIds es x) :
    tally Event.pushedIds es x = 0 ∧ tally Event.claimedIds es x = 0 ∧
      0 < tally Event.unclaimedIds es x := by
  rcases single.reads with still | ⟨e, -, reads⟩
  · rw [still _ (by simp)] at settled
    cases settled
  · have apart : e.settledIds = [] ∨
        e.pushedIds = [] ∧ e.claimedIds = [] ∧ e.unclaimedIds = e.settledIds := by
      cases e <;> simp
    rw [reads Event.settledIds (by simp)] at settled
    rw [reads Event.pushedIds (by simp), reads Event.claimedIds (by simp),
      reads Event.unclaimedIds (by simp)]
    rcases apart with none | ⟨pushed, claimed, unclaimed⟩
    · rw [none] at settled
      cases settled
    · rw [pushed, claimed, unclaimed]
      exact ⟨rfl, rfl, settled⟩

/-- The first settlement of a task that was pushed once is that of a claim with its payload,
and takes it away. -/
theorem payload_of_settlement {es : List Event} (h : Reaches (OnQueue name) (empty epoch) d)
    (trace : Trace (.ofName name) es c d) (single : Single es) (pushed : PushedOnce x p d.events)
    (some : p ≠ []) (unsettled : tally Event.settledIds c.events x = 0)
    (settled : 0 < tally Event.settledIds es x) : d.payload? name x = none := by
  obtain ⟨claim, rest, rfl, same, passive⟩ := settled_of_single single settled
  have loads : amount (strange x p) Event.loadedClaims d.events = 0 := by
    have earlier := no_strange_loads h pushed some trace.events unsettled
    have reads : ReadsActs Event.loadedClaims := by simp
    rw [trace.events, amount_append, amount_append, amount, reads.flatMap passive]
    simpa using earlier
  obtain ⟨calls, ends⟩ := (trace_of_reaches h fun _ _ ok => ok).carry (strange x p)
  have none : amount (strange x p) Event.settledClaims d.events = 0 := by
    have first : (empty epoch).load (strange x p) = ⟨0, 0⟩ := rfl
    simp only [first] at calls ends
    omega
  have plain := amount_eq_zero.mp none (.settled claim) (by simp [trace.events]) claim (by simp)
  have payload : claim.payload = p := by simpa [strange, same] using plain
  rw [payload_after trace, payloadAfter_append,
    payloadAfter_of_other (ReadsActs.tally (by simp) passive x)
      (ReadsActs.tally (by simp) passive x)]
  exact if_pos ⟨same.symm, by rwa [payload]⟩

theorem payload_of_settled (h : Reaches (OnQueue name) (empty epoch) c)
    (pushed : PushedOnce x p c.events) (some : p ≠ [])
    (settled : 0 < tally Event.settledIds c.events x) : c.payload? name x = none := by
  induction h with
  | refl => cases settled
  | @perform b c a hr ok hp ih =>
      obtain ⟨es, trace, single⟩ := hr.next (fun _ _ ok => ok) hp
      by_cases before : 0 < tally Event.settledIds b.events x
      · have pushed_before : 0 < tally Event.pushedIds b.events x := by
          refine Nat.pos_of_ne_zero fun unpushed => ?_
          have popped := (untouched hr unpushed).1
          have totals := accounts hr (fun _ _ ok => ok) x
          have ended := settled_le_ended b.events x
          omega
        rw [trace.events] at pushed
        obtain ⟨earlier, none⟩ := pushed.of_pushed pushed_before
        rw [payload_after trace, ih earlier before, payloadAfter_none none]
      · rw [trace.events, tally_append] at settled
        exact payload_of_settlement (.perform hr ok hp) trace single pushed some (by omega)
          (by omega)

/-- The payload of a task that is pushed once is stored until the task is settled. The act that
settles it removes the payload and the claim. Executors get this payload for each lookup before
the settlement: calls with another one, and claims on the way to a call, all come from lookups
after it. -/
theorem payload_kept (h : Reaches (OnQueue name) (empty epoch) c)
    (pushed : PushedOnce x p c.events) (some : p ≠ []) :
    (tally Event.settledIds c.events x = 0 → c.payload? name x = .some p) ∧
      (0 < tally Event.settledIds c.events x → c.payload? name x = none) ∧
      (∀ a d es, OnQueue name c a → c.perform a = .some d → d.events = es ++ c.events →
        0 < tally Event.settledIds es x →
          d.payload? name x = none ∧ d.claim? name x = none) ∧
      ∀ later earlier, c.events = later ++ earlier → tally Event.settledIds earlier x = 0 →
        amount (strange x p) Event.calledClaims c.events + (c.load (strange x p)).uncalled ≤
          amount (strange x p) Event.loadedClaims later := by
  have trace := trace_of_reaches h fun _ _ ok => ok
  refine ⟨fun unsettled => ?_, payload_of_settled h pushed some, ?_, ?_⟩
  · rw [payload_after trace]
    exact pushed.payloadAfter some unsettled _
  · intro a d es ok hp grown settled
    obtain ⟨es', trace', single⟩ := h.next (fun _ _ ok => ok) hp
    obtain rfl := List.append_cancel_right (grown.symm.trans trace'.events)
    obtain ⟨none, unclaimed, removed⟩ := removed_of_single single settled
    have still : PushedOnce x p d.events := pushed.append grown none
    have ended : 0 < tally Event.settledIds d.events x := by
      rw [grown, tally_append]
      omega
    refine ⟨payload_of_settled (.perform h ok hp) still some ended, ?_⟩
    rw [← Option.not_isSome_iff_eq_none, claim_after trace' single x]
    omega
  · intro later earlier split unsettled
    have none := no_strange_loads h pushed some split unsettled
    have calls := (trace.carry (strange x p)).calls
    have first : (empty epoch).load (strange x p) = ⟨0, 0⟩ := rfl
    simp only [first, split, amount_append, none] at calls ⊢
    omega

/-- A task with a payload is pushed and called, its call succeeds, and it is settled. -/
def settledDelivery : List Act := List.flatten [
  [.build "q" {}, .newToken, .invoke 0 (.push [{ id := "x", payload := [1] }]), .step (.call 0),
    .invoke 0 (.start ⟨[0]⟩), .step (.call 1)],
  List.replicate 8 (.step (.fetcher 0)),
  List.replicate 4 (.step (.worker 0 0)),
  [.executorReturns 0 0 .succeeded, .step (.worker 0 0)]]

def settledOne : Cluster := ((empty 0).run settledDelivery).get (by decide +kernel)

theorem run_settledDelivery : (empty 0).run settledDelivery = .some settledOne :=
  (Option.some_get _).symm

theorem payload_kept_settledOne :
    PushedOnce "x" [1] settledOne.events ∧ settledOne.payload? "q" "x" = none ∧
      amount (fun claim => claim.id = "x") Event.calledClaims settledOne.events = 1 ∧
      amount (strange "x" [1]) Event.calledClaims settledOne.events = 0 := by
  have reached : Reaches (OnQueue "q") (empty 0) settledOne :=
    .of_run (by simp [settledDelivery, OnQueue]) run_settledDelivery
  have pushed : PushedOnce "x" [1] settledOne.events :=
    ⟨by decide +kernel, [⟨"x", [1]⟩], by decide +kernel, by simp⟩
  have kept := payload_kept reached pushed (by simp)
  refine ⟨pushed, kept.2.1 (by decide +kernel), by decide +kernel, ?_⟩
  -- The latest event is the settlement.
  have calls := kept.2.2.2 (settledOne.events.take 1) (settledOne.events.drop 1)
    (List.take_append_drop _ _).symm (by decide +kernel)
  have loads : amount (strange "x" [1]) Event.loadedClaims (settledOne.events.take 1) = 0 := by
    decide +kernel
  omega

end Cluster

end ReliableQueue.Queue
