import ReliableQueue.Proofs.Queue.Acts
import ReliableQueue.Proofs.Queue.Batches

/-!
What an act can do to the tasks of a cluster whose handles are all for one queue: to the
backlog, to what the fetchers, channels, stops and workers hold, and to the claims. Every
act is one of a few kinds of change. Properties of where tasks are follow from the kinds.
-/

namespace ReliableQueue.Queue

/-- Why the receiving end of the channel of run `i` is let go. -/
inductive Forsaken (c : Cluster) (i : Nat) : Prop where
  | stopped (n : Nat) (call : Call) (stage : c.calls[n]? = some call)
      (releasing : call.stage = .releasing i [])
  | disposed (j : Nat) (h : Handle) (handle : c.handles[j]? = some h) (given : h.owned = false)

/-- The kinds of change. `a` is the act; only the panic of an executor asks for it. -/
inductive Change (k : Keys) (a : Act) (c d : Cluster) : Prop where
  | quiet (contents : d.memory.contents = c.memory.contents) (runs : d.runs = c.runs)
      (left : d.left = c.left) (events : ∃ es, Quiet es ∧ d.events = es ++ c.events)
  | pushed (tasks : List Task) (some : tasks ≠ [])
      (contents : d.memory.contents = c.memory.contents.applyAll (pushBatch k tasks).commands)
      (runs : d.runs = c.runs) (left : d.left = c.left)
      (events : d.events = .pushed tasks :: c.events)
  | fetched (i : Nat) (r : Run) (m : Moved Fetcher) (run : c.runs[i]? = some r)
      (live : r.fetcher.isLive = true)
      (move : Fetcher.Move k (c.shared r) r.fetcher m)
      (contents : d.memory.contents = m.shared.memory.contents)
      (runs : d.runs = c.runs.set i
        ({ r with fetcher := m.loop, channel := m.shared.channel }.reap).1)
      (left : d.left = c.left)
      (events : d.events =
        ({ r with fetcher := m.loop, channel := m.shared.channel }.reap).2.reverse
          ++ m.events.reverse ++ c.events)
  | worked (i j : Nat) (r : Run) (w : Worker) (m : Moved Worker) (run : c.runs[i]? = some r)
      (worker : r.workers[j]? = some w) (move : Worker.Move k (c.shared r) w m)
      (panic : m.loop = .panicked → w.calling?.isSome → ∃ i j, a = .executorReturns i j .panicked)
      (contents : d.memory.contents = m.shared.memory.contents)
      (runs : d.runs = c.runs.set i
        ({ r with workers := r.workers.set j m.loop, channel := m.shared.channel }.reap).1)
      (left : d.left = c.left)
      (events : d.events =
        ({ r with workers := r.workers.set j m.loop, channel := m.shared.channel }.reap).2.reverse
          ++ m.events.reverse ++ c.events)
      (live : w.isLive = true)
  | launched (r : Run) (hand : r.inHand = []) (buffer : r.channel.buffer = [])
      (working : r.working = []) (calling : r.calling = [])
      (contents : d.memory.contents = c.memory.contents) (runs : d.runs = c.runs ++ [r])
      (left : d.left = c.left) (events : ∃ es, Quiet es ∧ d.events = es ++ c.events)
  | drained (n i : Nat) (r : Run) (call : Call) (run : c.runs[i]? = some r)
      (stage : c.calls[n]? = some call) (draining : call.stage = .draining i)
      (contents : d.memory.contents = c.memory.contents)
      (runs : d.runs = c.runs.set i { r with channel := r.channel.discard })
      (calls : d.calls =
        c.calls.set n ⟨call.handle, .releasing i r.channel.buffer.reverse⟩)
      (events : d.events = c.events)
  | released (n i : Nat) (claim : Claim) (rest : List Claim) (call : Call)
      (stage : c.calls[n]? = some call) (releasing : call.stage = .releasing i (claim :: rest))
      (contents : d.memory.contents =
        c.memory.contents.applyAll (releaseBatch k claim.id).commands)
      (runs : d.runs = c.runs) (calls : d.calls = c.calls.set n ⟨call.handle, .releasing i rest⟩)
      (events : d.events = .released claim.id :: c.events)
  | releaseFailed (n i : Nat) (claim : Claim) (rest : List Claim) (cause : Store.Error)
      (call : Call) (stage : c.calls[n]? = some call)
      (releasing : call.stage = .releasing i (claim :: rest)) (fault : c.memory.faults .exec ≠ 0)
      (contents : d.memory.contents = c.memory.contents)
      (runs : d.runs = c.runs) (calls : d.calls = c.calls.set n ⟨call.handle, .releasing i rest⟩)
      (events : d.events = .releaseFailed claim.id cause :: c.events)
  | letGo (i : Nat) (cause : Forsaken c i) (contents : d.memory.contents = c.memory.contents)
      (runs : d.runs = (c.letGo i).runs) (left : d.left = c.left)
      (events : ∃ es, Quiet es ∧ d.events = es ++ (c.letGo i).events)
  | forfeited (n i : Nat) (call : Call) (act : a = .abandon n) (stage : c.calls[n]? = some call)
      (stopping : call.stage.stopping? = some i)
      (contents : d.memory.contents = c.memory.contents) (runs : d.runs = (c.letGo i).runs)
      (calls : d.calls = c.calls.set n ⟨call.handle, .dropped⟩)
      (events : d.events =
        (call.stage.left.map (Event.discarded ·.id)).reverse ++ (c.letGo i).events)
  | recovered (id : String)
      (cause : (∃ call ∈ c.calls, call.stage.recovery?.isSome) ∨ c.sweepers ≠ [])
      (contents : d.memory.contents = c.memory.contents.applyAll (recoveryBatch k id).commands)
      (runs : d.runs = c.runs) (left : d.left = c.left)
      (events : d.events = .recovered id :: c.events)
      (sought : ∃ r ∈ c.recoveries, id ∈ r.left)

/-- Histories only grow. -/
theorem Change.events_grow {k : Keys} {a : Act} {c d : Cluster} (h : Change k a c d) :
    ∃ es, d.events = es ++ c.events := by
  cases h with
  | quiet _ _ _ events | launched _ _ _ _ _ _ _ _ events =>
      obtain ⟨es, -, he⟩ := events
      exact ⟨es, he⟩
  | pushed tasks _ _ _ _ events => exact ⟨[.pushed tasks], events⟩
  | fetched _ _ _ _ _ _ _ _ _ events
  | worked _ _ _ _ _ _ _ _ _ _ _ _ events => exact ⟨_, events⟩
  | drained _ _ _ _ _ _ _ _ _ _ events => exact ⟨[], events⟩
  | released _ _ claim _ _ _ _ _ _ _ events => exact ⟨[.released claim.id], events⟩
  | releaseFailed _ _ claim _ cause _ _ _ _ _ _ _ events =>
      exact ⟨[.releaseFailed claim.id cause], events⟩
  | letGo i _ _ _ _ events =>
      obtain ⟨es, -, he⟩ := events
      obtain ⟨es', he', -⟩ := c.events_letGo_eq i
      exact ⟨es ++ es', by rw [he, he', List.append_assoc]⟩
  | forfeited _ i _ _ _ _ _ _ _ events =>
      obtain ⟨es', he', -⟩ := c.events_letGo_eq i
      exact ⟨_ ++ es', by rw [events, he', List.append_assoc]⟩
  | recovered id _ _ _ _ events => exact ⟨[.recovered id], events⟩

/-- A step of a recovery moves no task, or takes back one claim. -/
theorem Recovery.step_cases {k : Keys} {maxAge : Span} {second : Nat} {m m' : Store.Memory}
    {r : Recovery} {o : Outcome} {es : List Event} (h : r.step k maxAge second m = (o, m', es)) :
    (m'.contents = m.contents ∧ Quiet es) ∨
      ∃ id ∈ r.left, m'.contents = m.contents.applyAll (recoveryBatch k id).commands ∧
        es = [.recovered id] ∧ ∃ r', o = .going r' := by
  cases r with
  | ranging =>
      simp only [step] at h
      split at h
      · next hz =>
          cases h
          exact .inl ⟨(Store.Memory.zrangebyscore_error hz).2, quiet_nil⟩
      · next hz =>
          cases h
          exact .inl ⟨by rw [(Store.Memory.zrangebyscore_ok hz).2], quiet_nil⟩
  | restoring left count =>
      cases left with
      | nil =>
          cases h
          exact .inl ⟨rfl, by split <;> simp [Event.movesTask]⟩
      | cons id rest =>
          simp only [step] at h
          split at h
          · next he =>
              cases h
              exact .inr ⟨id, List.mem_cons_self, Store.Memory.exec_ok he, rfl, _, rfl⟩
          · next he =>
              cases h
              exact .inl ⟨(Store.Memory.exec_error he).2, by simp [Event.movesTask]⟩

/-- A sweeper does nothing to tasks but through the recovery that it has under way. -/
theorem Sweeper.step_cases {s : Sweeper} {k : Keys} {epoch : Nat} {now : Instant}
    {heeds : Bool} {m m' : Store.Memory} {stage : Stage} {es : List Event}
    (h : s.step k epoch now heeds m = some (stage, m', es)) :
    (m' = m ∧ Quiet es) ∨
      ∃ (r : Recovery) (o : Recovery.Outcome) (es' extra : List Event),
        s.stage.recovery? = some r ∧
        r.step k s.config.maxAge (Clock.wallSecond epoch now) m = (o, m', es') ∧
        es = es' ++ extra ∧ Quiet extra ∧ ∀ r', o = .going r' → extra = [] := by
  unfold step at h
  split at h
  · cases h
    exact .inl ⟨rfl, by simp [Event.movesTask]⟩
  · repeat' split at h
    all_goals cases h
    all_goals exact .inl ⟨rfl, quiet_nil⟩
  · next r next hs =>
      have under : s.stage.recovery? = some r := by rw [hs]; rfl
      split at h
      · next hr =>
          cases h
          exact .inr ⟨r, _, _, [], under, hr, (List.append_nil _).symm, quiet_nil, fun _ _ => rfl⟩
      · next hr =>
          cases h
          refine .inr ⟨r, _, _, _, under, hr, rfl, ?_, by rintro _ ⟨⟩⟩
          split <;> simp [Event.movesTask]
      · next hr =>
          cases h
          exact .inr ⟨r, _, _, _, under, hr, rfl, by simp [Event.movesTask], by rintro _ ⟨⟩⟩
  · cases h
    exact .inl ⟨rfl, by simp [Event.movesTask]⟩
  all_goals cases h

namespace Cluster

variable {name : String} {c d : Cluster} {a : Act}

theorem change_fetcher {i : Nat} (hn : c.Named name) (h : c.stepFetcher i = some d) :
    Change (.ofName name) a c d := by
  obtain ⟨r, hd, m, hr, hh, hm, rfl⟩ := stepFetcher_cases h
  have move := Fetcher.move_of_step (k := .ofName name) (hn.keys hh) hm
  exact .fetched i r m hr (Fetcher.isLive_of_step hm) move rfl rfl rfl (events_settle _ _ _ _ _)

theorem change_worker {i j : Nat} (hn : c.Named name) (h : c.stepWorker i j = some d) :
    Change (.ofName name) a c d := by
  obtain ⟨r, hd, w, m, hr, hh, hw, hm, rfl⟩ := stepWorker_cases h
  have move := Worker.move_of_step (k := .ofName name) (hn.keys hh) hm
  refine .worked i j r w m hr hw move ?_ rfl rfl rfl (events_settle _ _ _ _ _)
    (Worker.isLive_of_step hm)
  intro hp hc
  cases w <;> simp only [Worker.calling?, Option.isSome_none, Bool.false_eq_true] at hc
  all_goals
    simp only [Worker.step, Worker.finish] at hm
    split at hm <;> cases hm <;> cases hp

theorem change_returns {i j : Nat} {result : CallResult}
    (h : c.executorReturns i j result = some d) :
    Change (.ofName name) (.executorReturns i j result) c d := by
  obtain ⟨r, hd, w, m, hr, hh, hw, hm, rfl⟩ := executorReturns_cases h
  have move := Worker.move_of_returns (k := .ofName name) hm
  refine .worked i j r w m hr hw move ?_ rfl rfl rfl (events_settle _ _ _ _ _)
    (Worker.isLive_of_returns hm)
  intro hp _
  refine ⟨i, j, ?_⟩
  cases w <;> try cases hm
  cases result <;> cases hm <;> first | rfl | cases hp

/-- A call goes from one stage to another and nothing else happens to tasks. -/
theorem change_stage {n : Nat} {call : Call} {s : Stage} (hc : c.calls[n]? = some call)
    (old : call.stage.left = []) (new : s.left = [])
    (contents : d.memory.contents = c.memory.contents) (runs : d.runs = c.runs)
    (calls : d.calls = (c.setCall n s).calls)
    (events : ∃ es, Quiet es ∧ d.events = es ++ c.events) :
    Change (.ofName name) a c d :=
  .quiet contents runs (left_set hc (new.trans old.symm) (calls.trans (calls_setCall hc s))) events

theorem change_entry {n : Nat} {h : Handle} {call : Call} {i : Nat} {request : Request}
    (hk : h.keys = .ofName name) (hc : c.calls[n]? = some call) (old : call.stage.left = [])
    (entry : Entry c d n i h request) : Change (.ofName name) a c d := by
  cases entry with
  | answered memory result contents eq =>
      subst eq
      exact change_stage hc old rfl contents rfl rfl ⟨[], quiet_nil, rfl⟩
  | pushed tasks some asked memory contents eq =>
      subst eq
      rw [hk] at contents
      exact .pushed tasks some contents rfl
        (left_set (s := .finished c.now (.ok .done)) hc old.symm (calls_setCall hc _)) rfl
  | launched parent asked lock running eq =>
      subst eq
      refine .launched _ rfl rfl ?_ ?_ rfl rfl
        (left_set (s := .finished c.now (.ok .done)) hc old.symm (calls_setCall hc _))
        ⟨[.queueStarted h.options.workers h.options.bufferSize], by simp [Event.movesTask], rfl⟩
      all_goals simp [Run.working, Run.calling, Worker.held?, Worker.calling?]
  | taken run r asked lock runtime at_run eq =>
      subst eq
      exact change_stage hc old rfl rfl rfl rfl ⟨[], quiet_nil, rfl⟩
  | recovering maxAge asked accepted eq =>
      subst eq
      exact change_stage hc old rfl rfl rfl rfl ⟨[], quiet_nil, rfl⟩

theorem change_release {n i : Nat} {claim : Claim} {rest : List Claim} {call : Call}
    (hc : c.calls[n]? = some call) (hs : call.stage = .releasing i (claim :: rest)) :
    Change (.ofName name) a c
      (({ c with memory := (release (.ofName name) claim.id c.memory).2 }.setCall n
        (.releasing i rest)).record call.handle
          [(release (.ofName name) claim.id c.memory).1]) := by
  rcases release_cases (.ofName name) claim.id c.memory with ⟨he, hm⟩ | ⟨cause, he, hf, hm⟩
  · exact .released n i claim rest call hc hs hm rfl (calls_setCall hc _)
      (by rw [he, events_record]; rfl)
  · exact .releaseFailed n i claim rest cause call hc hs hf hm rfl (calls_setCall hc _)
      (by rw [he, events_record]; rfl)

theorem change_recovery {k : Keys} {maxAge : Span} {second : Nat} {r : Recovery}
    {o : Recovery.Outcome} {m : Store.Memory} {es extra : List Event}
    (h : r.step k maxAge second c.memory = (o, m, es)) (hx : Quiet extra)
    (going : ∀ r', o = .going r' → extra = [])
    (under : r ∈ c.recoveries) (memory : d.memory = m) (runs : d.runs = c.runs)
    (left : d.left = c.left)
    (events : d.events = (es ++ extra).reverse ++ c.events) : Change k a c d := by
  rcases Recovery.step_cases h with ⟨hc, hq⟩ | ⟨id, sought, hc, rfl, r', hr⟩
  · refine .quiet (by rw [memory, hc]) runs left ⟨_, ?_, events⟩
    intro e he
    rcases List.mem_append.mp (List.mem_reverse.mp he) with he | he
    · exact hq e he
    · exact hx e he
  · refine .recovered id ?_ (by rw [memory, hc]) runs left ?_ ⟨r, under, sought⟩
    · rcases List.mem_append.mp under with under | under
      · obtain ⟨call, hm, hr⟩ := List.mem_filterMap.mp under
        exact .inl ⟨call, hm, by rw [hr]; rfl⟩
      · obtain ⟨s, hm, -⟩ := List.mem_filterMap.mp under
        exact .inr (List.ne_nil_of_mem hm)
    · rw [events, going r' hr]
      rfl

theorem change_call {n : Nat} (hn : c.Named name) (h : c.stepCall n = some d) :
    Change (.ofName name) a c d := by
  obtain ⟨call, hd, hc, hh, step⟩ := stepCall_cases h
  have hk := hn.keys hh
  cases step with
  | entered request stage entry => exact change_entry hk hc (by rw [stage]; rfl) entry
  | joined i loop r next panicked stage run after eq =>
      subst eq
      have new : next.left = [] := by
        rcases after with rfl | ⟨rfl, -⟩ <;> rfl
      refine change_stage hc (by rw [stage]; rfl) new rfl rfl rfl ⟨_, ?_, events_record _ _ _⟩
      split <;> simp [Event.movesTask]
  | drained i r stage run eq =>
      subst eq
      exact .drained n i r call run hc stage rfl rfl (calls_setCall hc _) rfl
  | released i claim rest stage eq =>
      rw [hk] at eq
      exact eq ▸ change_release hc stage
  | ended i stage eq =>
      subst eq
      exact .letGo i (.stopped n call hc stage) (by simp) rfl
        (left_set (s := .finished c.now (.ok .done)) hc (by rw [stage]; rfl) (calls_ended hc _ _))
        ⟨[.queueStopped], by simp [Event.movesTask], events_record _ _ _⟩
  | recovered maxAge recovery o memory es stage step eq =>
      subst eq
      rw [hk] at step
      refine change_recovery step quiet_nil (fun _ _ => rfl) (List.mem_append_left _ ?_) rfl rfl
        (left_set hc ?_ (calls_setCall hc _)) ?_
      · exact List.mem_filterMap.mpr ⟨call, List.mem_of_getElem? hc, by rw [stage]; rfl⟩
      · rw [stage]
        rcases o with r | (e | count) <;> rfl
      · rw [List.append_nil]
        exact events_record _ _ _

theorem change_sweeper {n : Nat} {heeds : Bool} (hn : c.Named name)
    (h : c.stepSweeper n heeds = some d) :
    Change (.ofName name) a c d := by
  obtain ⟨s, hd, stage, memory, es, hs, hh, -, hm, rfl⟩ := stepSweeper_cases h
  rw [hn.keys hh] at hm
  rcases Sweeper.step_cases hm with ⟨rfl, hq⟩ | ⟨r, o, es', extra, under, hr, rfl, hx, hg⟩
  · exact .quiet rfl rfl rfl ⟨es.reverse, fun e he => hq e (List.mem_reverse.mp he),
      events_record _ _ _⟩
  · have mem : r ∈ c.sweepers.filterMap (·.stage.recovery?) :=
      List.mem_filterMap.mpr ⟨s, List.mem_of_getElem? hs, under⟩
    exact change_recovery hr hx hg (List.mem_append_right _ mem) rfl rfl rfl (events_record _ _ _)

theorem change_disposal {i : Nat} (h : c.stepDisposal i = some d) :
    Change (.ofName name) a c d := by
  obtain ⟨hd, hh, unused, ⟨-, rfl⟩ | ⟨run, r, -, -, rfl⟩⟩ := stepDisposal_cases h
  · exact .quiet rfl rfl rfl ⟨[], quiet_nil, rfl⟩
  · exact .letGo run (.disposed i hd hh unused.given) (by simp) (runs_letGo (c := c) (by rfl) _)
      (by simp [left]) ⟨[], quiet_nil, events_letGo (c := c) (by rfl) (by rfl) _⟩

theorem change_step {p : Process} (hn : c.Named name) (h : c.step p = some d) :
    Change (.ofName name) a c d := by
  cases p with
  | fetcher run => exact change_fetcher hn h
  | worker run index => exact change_worker hn h
  | call index => exact change_call hn h
  | sweeper index => exact change_sweeper hn h
  | disposal handle => exact change_disposal h

theorem change_abandon (n : Nat) : Change (.ofName name) (.abandon n) c (c.abandon n) := by
  rcases c.abandon_cases n with he | ⟨call, hc, ⟨free, he⟩ | ⟨i, stopping, he⟩⟩ <;> rw [he]
  · exact .quiet rfl rfl rfl ⟨[], quiet_nil, rfl⟩
  · exact change_stage (s := .dropped) hc (Stage.left_of_stopping? free) rfl rfl rfl rfl
      ⟨[], quiet_nil, rfl⟩
  · refine .forfeited n i call rfl hc stopping (by simp) (runs_letGo (c := c) (by rfl) i) ?_ ?_
    · rw [calls_record, calls_letGo]
      exact calls_setCall hc _
    · rw [events_record]
      exact congrArg _ (events_letGo (by rfl) (by rfl) i)

theorem change_of_perform (hn : c.Named name) (h : c.perform a = some d) :
    Change (.ofName name) a c d := by
  have quiet {e : Cluster} (contents : e.memory.contents = c.memory.contents)
      (runs : e.runs = c.runs) (left : e.left = c.left) (events : e.events = c.events) :
      Change (.ofName name) a c e :=
    .quiet contents runs left ⟨[], quiet_nil, events⟩
  cases a with
  | step p => exact change_step hn h
  | executorReturns i j result => exact change_returns h
  | build name options =>
      obtain rfl := build_of_perform h
      exact quiet rfl rfl rfl rfl
  | invoke i request =>
      obtain ⟨-, rfl⟩ := invoke_of_perform h
      exact quiet rfl rfl (by simp [left, Cluster.invoke, Stage.left]) rfl
  | abandon n =>
      cases h
      exact change_abandon n
  | sweep i t config =>
      rcases sweep_of_perform h with rfl | rfl
      all_goals exact quiet rfl rfl rfl rfl
  | drop i | newToken | cancel t | failNext point count | elapse t =>
      cases h
      exact quiet rfl rfl rfl rfl

/-! ### Whole runs -/

/-- What holds at first and is kept by every change holds of all runs on one queue. -/
@[elab_as_elim] theorem Reaches.invariant_of_change {ok : Cluster → Act → Prop} {epoch : Nat}
    {I : Cluster → Prop} (h : Reaches ok (empty epoch) c) (one : ∀ c a, ok c a → OnQueue name c a)
    (first : I (empty epoch))
    (step : ∀ c a d, I c → ok c a → Change (.ofName name) a c d → I d) : I c := by
  suffices hs : c.Named name ∧ I c from hs.2
  refine h.invariant (I := fun c => c.Named name ∧ I c) ⟨named_empty name epoch, first⟩ ?_
  rintro c a d ⟨hn, hi⟩ ok hp
  exact ⟨hn.perform (one c a ok) hp, step c a d hi ok (change_of_perform hn hp)⟩

theorem Reaches.events_grow {ok : Cluster → Act → Prop} (h : Reaches ok d c)
    (one : ∀ c a, ok c a → OnQueue name c a) (named : d.Named name) :
    ∃ es, c.events = es ++ d.events := by
  refine (h.invariant (I := fun c => c.Named name ∧ ∃ es, c.events = es ++ d.events)
    ⟨named, [], rfl⟩ ?_).2
  rintro b a c ⟨named, es, he⟩ ok hp
  obtain ⟨es', he'⟩ := (change_of_perform named hp).events_grow
  exact ⟨named.perform (one b a ok) hp, es' ++ es, by rw [he', he, List.append_assoc]⟩

end Cluster

end ReliableQueue.Queue
