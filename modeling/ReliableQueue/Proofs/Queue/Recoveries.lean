import ReliableQueue.Proofs.Queue.Claims

/-!
What recoveries can hand back. A recovery seeks only tasks that it found among the claims, so
a task that was never claimed is never handed back. Together with the flow of tasks this says
that nothing happens to a task before it is pushed.
-/

namespace ReliableQueue.Queue

variable {k : Keys} {name x : String} {a : Act} {c d : Cluster}

/-- How a recovery that is under way after an act comes from the cluster before it. -/
inductive Recovery.Succeeds (k : Keys) (c : Cluster) : Recovery → Prop where
  | same {r : Recovery} (under : r ∈ c.recoveries) : Succeeds k c r
  | begun : Succeeds k c .ranging
  | stepped {r r' : Recovery} {maxAge : Span} {second : Nat} {m : Store.Memory} {es : List Event}
      (under : r ∈ c.recoveries) (step : r.step k maxAge second c.memory = (.going r', m, es)) :
      Succeeds k c r'

/-- A recovery goes on with tasks that it sought before or has found claimed. -/
theorem Recovery.left_of_step {maxAge : Span} {second : Nat} {m m' : Store.Memory}
    {r r' : Recovery} {es : List Event} (h : r.step k maxAge second m = (.going r', m', es))
    (hx : x ∈ r'.left) : x ∈ r.left ∨ (m.contents.score? k.processing x).isSome = true := by
  cases r with
  | ranging =>
      simp only [step] at h
      split at h
      · cases h
      · next hz =>
          cases h
          rw [left, (Store.Memory.zrangebyscore_ok hz).1] at hx
          exact .inr (Store.Contents.score?_of_mem_range hx)
  | restoring tasks count =>
      cases tasks with
      | nil => cases h
      | cons id rest =>
          simp only [step] at h
          split at h <;> cases h
          all_goals exact .inl (List.mem_cons_of_mem _ hx)

/-- A sweeper begins a recovery or goes on with the one that it has under way. -/
theorem Sweeper.recovery_of_step {s : Sweeper} {epoch : Nat} {now : Instant} {heeds : Bool}
    {m m' : Store.Memory} {stage : Stage} {es : List Event} {r : Recovery}
    (h : s.step k epoch now heeds m = some (stage, m', es)) (hr : stage.recovery? = some r) :
    r = .ranging ∨ ∃ r₀ m₀ es₀, s.stage.recovery? = some r₀ ∧
      r₀.step k s.config.maxAge (Clock.wallSecond epoch now) m = (.going r, m₀, es₀) := by
  unfold step at h
  split at h
  · cases h
    cases hr
  · repeat' split at h
    all_goals cases h
    all_goals cases hr
    all_goals exact .inl rfl
  · next r₀ next hs =>
      split at h
      · next step =>
          cases h
          cases hr
          exact .inr ⟨r₀, _, _, by rw [hs]; rfl, step⟩
      all_goals
        cases h
        cases hr
  · cases h
    cases hr
  all_goals cases h

theorem recoveredIds_of_quiet {es : List Event} (h : Quiet es) : ∀ e ∈ es, e.recoveredIds = [] := by
  intro e he
  have quiet := h e he
  cases e <;> first | rfl | cases quiet

theorem Fetcher.Move.recoveredIds {sh : Shared} {f : Fetcher} {m : Moved Fetcher}
    (h : Fetcher.Move k sh f m) : ∀ e ∈ m.events, e.recoveredIds = [] := by
  cases h with
  | quiet held contents channel events => exact recoveredIds_of_quiet events
  | requeued id notes had free contents channel events quiet
  | requeueFailed id cause notes had free fault contents channel events quiet =>
      rw [events]
      exact List.forall_mem_cons.mpr ⟨rfl, recoveredIds_of_quiet quiet⟩
  | _ => simp_all

theorem Worker.Move.recoveredIds {sh : Shared} {w : Worker} {m : Moved Worker}
    (h : Worker.Move k sh w m) : ∀ e ∈ m.events, e.recoveredIds = [] := by
  cases h with
  | quiet held calling contents channel events => exact recoveredIds_of_quiet events
  | _ => simp_all

namespace Cluster

/-- The tasks that the recoveries under way are going to hand back. -/
def sought (c : Cluster) : List String := c.recoveries.flatMap Recovery.left

theorem recoveries_same (calls : d.calls = c.calls) (sweepers : d.sweepers = c.sweepers)
    {r : Recovery} (h : r ∈ d.recoveries) : Recovery.Succeeds k c r :=
  .same (by rwa [recoveries, ← calls, ← sweepers])

/-- Where one call goes on to another stage, only a recovery in that stage is new. -/
theorem recoveries_stage {n : Nat} {call : Call} {s : Stage} (hc : c.calls[n]? = some call)
    (new : ∀ r, s.recovery? = some r → Recovery.Succeeds k c r)
    (calls : d.calls = (c.setCall n s).calls) (sweepers : d.sweepers = c.sweepers)
    {r : Recovery} (h : r ∈ d.recoveries) : Recovery.Succeeds k c r := by
  rw [recoveries, calls, calls_setCall hc, sweepers] at h
  rcases List.mem_append.mp h with h | h
  · obtain ⟨one, hm, hr⟩ := List.mem_filterMap.mp h
    rcases List.mem_or_eq_of_mem_set hm with hm | rfl
    · exact .same (List.mem_append_left _ (List.mem_filterMap.mpr ⟨one, hm, hr⟩))
    · exact new r hr
  · exact .same (List.mem_append_right _ h)

theorem recoveries_entry {n : Nat} {call : Call} {h : Handle} {request : Request}
    (hc : c.calls[n]? = some call) (entry : Entry c d n call.handle h request) {r : Recovery}
    (hr : r ∈ d.recoveries) : Recovery.Succeeds k c r := by
  cases entry with
  | answered memory result contents eq | pushed tasks some asked memory contents eq
  | launched parent asked lock running eq =>
      subst eq
      exact recoveries_stage (s := .finished c.now _) hc (by rintro r ⟨⟩) rfl rfl hr
  | taken run r asked lock runtime at_run eq =>
      subst eq
      exact recoveries_stage (s := .joining run 0) hc (by rintro r ⟨⟩) rfl rfl hr
  | recovering maxAge asked accepted eq =>
      subst eq
      refine recoveries_stage (s := .recovering maxAge .ranging) hc ?_ rfl rfl hr
      rintro r ⟨⟩
      exact .begun

theorem recoveries_call {n : Nat} (named : c.Named name) (h : c.stepCall n = some d)
    {r : Recovery} (hr : r ∈ d.recoveries) : Recovery.Succeeds (.ofName name) c r := by
  obtain ⟨call, hd, hc, hh, step⟩ := stepCall_cases h
  cases step with
  | entered request stage entry => exact recoveries_entry hc entry hr
  | joined i loop run next panicked stage at_run after eq =>
      subst eq
      refine recoveries_stage (s := next) hc ?_ rfl rfl hr
      rcases after with rfl | ⟨rfl, -⟩ <;> rintro r ⟨⟩
  | drained i run stage at_run eq =>
      subst eq
      exact recoveries_stage (s := .releasing i _) hc (by rintro r ⟨⟩) rfl rfl hr
  | released i claim rest stage eq =>
      subst eq
      exact recoveries_stage (s := .releasing i rest) hc (by rintro r ⟨⟩) rfl rfl hr
  | ended i stage eq =>
      subst eq
      refine recoveries_stage (s := .finished c.now (.ok .done)) hc (by rintro r ⟨⟩) ?_ ?_ hr
      · exact (calls_ended hc _ _).trans (calls_setCall hc _).symm
      · exact sweepers_letGo c i
  | recovered maxAge recovery o memory es stage step eq =>
      subst eq
      refine recoveries_stage (s := afterRecovery c.now maxAge o) hc ?_ rfl rfl hr
      intro r hr
      rw [named.keys hh] at step
      match o with
      | .going next =>
          cases hr
          refine .stepped (List.mem_append_left _ ?_) step
          exact List.mem_filterMap.mpr ⟨call, List.mem_of_getElem? hc, by rw [stage]; rfl⟩
      | .done (.ok _) | .done (.error _) => cases hr

theorem recoveries_sweeper {n : Nat} {heeds : Bool} (named : c.Named name)
    (h : c.stepSweeper n heeds = some d)
    {r : Recovery} (hr : r ∈ d.recoveries) : Recovery.Succeeds (.ofName name) c r := by
  obtain ⟨s, hd, stage, memory, es, hs, hh, -, hm, rfl⟩ := stepSweeper_cases h
  rw [named.keys hh] at hm
  rcases List.mem_append.mp hr with hr | hr
  · exact .same (List.mem_append_left _ hr)
  obtain ⟨one, hone, hr⟩ := List.mem_filterMap.mp hr
  rcases List.mem_or_eq_of_mem_set hone with hone | rfl
  · exact .same (List.mem_append_right _ (List.mem_filterMap.mpr ⟨one, hone, hr⟩))
  · rcases Sweeper.recovery_of_step hm hr with rfl | ⟨r₀, m₀, es₀, before, step⟩
    · exact .begun
    · refine .stepped (List.mem_append_right _ ?_) step
      exact List.mem_filterMap.mpr ⟨s, List.mem_of_getElem? hs, before⟩

theorem recoveries_step {p : Process} (named : c.Named name) (h : c.step p = some d)
    {r : Recovery} (hr : r ∈ d.recoveries) : Recovery.Succeeds (.ofName name) c r := by
  cases p with
  | fetcher run =>
      obtain ⟨_, _, _, -, -, -, rfl⟩ := stepFetcher_cases h
      exact recoveries_same rfl rfl hr
  | worker run index =>
      obtain ⟨_, _, _, _, -, -, -, -, rfl⟩ := stepWorker_cases h
      exact recoveries_same rfl rfl hr
  | call index => exact recoveries_call named h hr
  | sweeper index => exact recoveries_sweeper named h hr
  | disposal handle =>
      obtain ⟨_, -, -, ⟨-, rfl⟩ | ⟨run, _, -, -, rfl⟩⟩ := stepDisposal_cases h
      · exact recoveries_same rfl rfl hr
      · exact recoveries_same (by rw [calls_letGo]; rfl) (by rw [sweepers_letGo]; rfl) hr

/-- No recovery comes from nowhere. -/
theorem recoveries_perform (named : c.Named name) (h : c.perform a = some d) {r : Recovery}
    (hr : r ∈ d.recoveries) : Recovery.Succeeds (.ofName name) c r := by
  cases a with
  | step p => exact recoveries_step named h hr
  | executorReturns i j result =>
      obtain ⟨_, _, _, _, -, -, -, -, rfl⟩ := executorReturns_cases h
      exact recoveries_same rfl rfl hr
  | invoke i request =>
      obtain ⟨-, rfl⟩ := invoke_of_perform h
      refine .same ?_
      simpa [recoveries, Cluster.invoke, Stage.recovery?] using hr
  | abandon n =>
      cases h
      rcases c.abandon_cases n with he | ⟨call, hc, ⟨-, he⟩ | ⟨i, -, he⟩⟩ <;> rw [he] at hr
      · exact .same hr
      · exact recoveries_stage (s := .dropped) hc (by rintro r ⟨⟩) rfl rfl hr
      · refine recoveries_stage (s := .dropped) hc (by rintro r ⟨⟩) ?_ ?_ hr
        · rw [calls_record, calls_letGo]
        · exact sweepers_letGo _ i
  | build n options =>
      obtain rfl := build_of_perform h
      exact recoveries_same rfl rfl hr
  | sweep i t config =>
      rcases sweep_of_perform h with rfl | rfl
      · exact .same hr
      · refine .same ?_
        simpa [recoveries, Sweeper.Stage.recovery?] using hr
  | drop i | newToken | cancel t | failNext point count | elapse t =>
      cases h
      exact recoveries_same rfl rfl hr

/-- What is sought after an act was sought or claimed before it. -/
theorem sought_perform (named : c.Named name) (h : c.perform a = some d) (hx : x ∈ d.sought) :
    x ∈ c.sought ∨ (c.claim? name x).isSome = true := by
  obtain ⟨r, hr, left⟩ := List.mem_flatMap.mp hx
  cases recoveries_perform named h hr with
  | same under => exact .inl (List.mem_flatMap.mpr ⟨r, under, left⟩)
  | begun => cases left
  | @stepped r₀ _ _ _ _ _ under step =>
      rcases Recovery.left_of_step step left with old | found
      · exact .inl (List.mem_flatMap.mpr ⟨r₀, under, old⟩)
      · exact .inr found

/-- Either nothing is handed back, or one task that was sought and nothing else happens. -/
theorem recovered_cases (change : Change (.ofName name) a c d) :
    (∃ es, d.events = es ++ c.events ∧ ∀ e ∈ es, e.recoveredIds = []) ∨
      ∃ x, d.events = .recovered x :: c.events ∧ x ∈ c.sought ∧
        d.pending name = c.pending name ++ [x] ∧ d.claim? name x = none := by
  have discards {es : List Event} (h : ∀ e ∈ es, ∃ id, e = .discarded id) :
      ∀ e ∈ es, e.recoveredIds = [] := by
    intro e he
    obtain ⟨id, rfl⟩ := h e he
    rfl
  cases change with
  | recovered id cause contents runs left events sought =>
      refine .inr ⟨id, events, List.mem_flatMap.mpr sought, ?_, ?_⟩
      · rw [pending, contents, pending_recovery, pending]
      · rw [claim?, contents, score?_recovery, if_pos rfl]
  | quiet contents runs left events =>
      obtain ⟨es, hq, he⟩ := events
      exact .inl ⟨es, he, recoveredIds_of_quiet hq⟩
  | pushed tasks some contents runs left events =>
      exact .inl ⟨[.pushed tasks], events, by simp⟩
  | fetched i r m run live move contents runs left events =>
      refine .inl ⟨_, events, List.forall_mem_append.mpr ⟨?_, ?_⟩⟩
      · exact discards fun e he => Run.mem_reap (List.mem_reverse.mp he)
      · exact fun e he => move.recoveredIds e (List.mem_reverse.mp he)
  | worked i j r w m run worker move panic contents runs left events =>
      refine .inl ⟨_, events, List.forall_mem_append.mpr ⟨?_, ?_⟩⟩
      · exact discards fun e he => Run.mem_reap (List.mem_reverse.mp he)
      · exact fun e he => move.recoveredIds e (List.mem_reverse.mp he)
  | launched r hand buffer working calling contents runs left events =>
      obtain ⟨es, hq, he⟩ := events
      exact .inl ⟨es, he, recoveredIds_of_quiet hq⟩
  | drained n i r call run stage draining contents runs calls events =>
      exact .inl ⟨[], events, by simp⟩
  | released n i claim rest call stage releasing contents runs calls events =>
      exact .inl ⟨[.released claim.id], events, by simp⟩
  | releaseFailed n i claim rest cause call stage releasing fault contents runs calls events =>
      exact .inl ⟨[.releaseFailed claim.id cause], events, by simp⟩
  | letGo i cause contents runs left events =>
      obtain ⟨es, hq, he⟩ := events
      obtain ⟨es', grown, lost⟩ := c.events_letGo_eq i
      exact .inl ⟨es ++ es', by rw [he, grown, List.append_assoc],
        List.forall_mem_append.mpr ⟨recoveredIds_of_quiet hq, discards lost⟩⟩
  | forfeited n i call act stage stopping contents runs calls events =>
      obtain ⟨es', grown, lost⟩ := c.events_letGo_eq i
      exact .inl ⟨_ ++ es', by rw [events, grown, List.append_assoc],
        List.forall_mem_append.mpr ⟨by simp, discards lost⟩⟩

theorem unrecovered {es : List Event} (change : Change (.ofName name) a c d)
    (trace : Trace (.ofName name) es c d) (unsought : x ∉ c.sought) :
    tally Event.recoveredIds es x = 0 := by
  rcases recovered_cases change with ⟨es', he, none⟩ | ⟨y, he, sought, -⟩
  · rw [List.append_cancel_right (trace.events.symm.trans he)]
    exact tally_eq_zero.mpr fun e hm => by rw [none e hm]; exact List.not_mem_nil
  · have one : es = [.recovered y] := List.append_cancel_right (trace.events.symm.trans he)
    have apart : y ≠ x := fun same => unsought (same ▸ sought)
    simp [one, apart]

/-- Nothing happens to a task before it is pushed. -/
theorem untouched {epoch : Nat} (h : Reaches (OnQueue name) (empty epoch) c)
    (unpushed : tally Event.pushedIds c.events x = 0) :
    tally Event.poppedIds c.events x = 0 ∧ tally Event.recoveredIds c.events x = 0 ∧
      x ∉ c.sought := by
  induction h with
  | refl => exact ⟨rfl, rfl, by simp [sought, recoveries, empty]⟩
  | @perform b c a hr ok hp ih =>
      have named := named_of_reaches (fun _ _ ok => ok) hr
      obtain ⟨es, trace, single⟩ := hr.next (fun _ _ ok => ok) hp
      have now := accounts (.perform hr ok hp) (fun _ _ ok => ok) x
      have before := accounts hr (fun _ _ ok => ok) x
      simp only [trace.events, tally_append] at unpushed now ⊢
      obtain ⟨popped, recovered, unsought⟩ := ih (by omega)
      have unclaimed : ¬(b.claim? name x).isSome = true := fun claimed => by
        rw [claimed_of_reaches hr x] at claimed
        have := claimed_of_stands claimed
        omega
      have none : tally Event.recoveredIds es x = 0 :=
        unrecovered (change_of_perform named hp) trace unsought
      refine ⟨?_, by omega, fun hx => (sought_perform named hp hx).elim unsought unclaimed⟩
      -- Nothing went back to the backlog, so there was nothing to pop.
      rcases single.reads with still | ⟨e, -, reads⟩
      · rw [still _ (by simp)]
        omega
      · have apart : e.poppedIds = [] ∨ e.requeuedIds = [] ∧ e.releasedIds = [] := by
          cases e <;> simp
        rw [reads Event.poppedIds (by simp), reads Event.requeuedIds (by simp),
          reads Event.releasedIds (by simp)] at now
        rw [reads Event.poppedIds (by simp)]
        rcases apart with hp | ⟨hq, hr⟩
        · rw [hp, popped]
          rfl
        · rw [hq, hr] at now
          simp only [List.count_nil] at now
          omega

end Cluster

end ReliableQueue.Queue
