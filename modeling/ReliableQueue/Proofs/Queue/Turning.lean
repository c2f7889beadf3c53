import ReliableQueue.Proofs.Queue.Course

/-!
What starts and what ends runs. An act is steady, or it is one of a few turns: a start that sets
a run going, the steps of a stop, and the two ways in which the channel of a run is left behind,
which are that the caller of a stop gives up and that a handle comes to its end. From the turns
follow the sizes of runs and what the stops under way have brought about.
-/

namespace ReliableQueue.Queue

variable {i : Nat} {a : Act} {c d : Cluster}

/-- A run as handle `i` with options `o` starts it. -/
structure Run.Fresh (r : Run) (i : Nat) (o : Options) : Prop where
  handle : r.handle = i
  kept : r.kept = true
  fits : r.Fits o

namespace Cluster

/-- The acts that start or end runs. -/
inductive Turning (a : Act) (c d : Cluster) : Prop where
  | launched (n : Nat) (call : Call) (h : Handle) (r : Run) (at_call : c.calls[n]? = some call)
      (asked : ∃ parent, call.stage = .entering (.start parent))
      (handle : c.handles[call.handle]? = some h) (lock : h.lock = none)
      (running : h.running = false) (fresh : r.Fresh call.handle h.options)
      (runs : d.runs = c.runs ++ [r])
      (handles : d.handles = c.handles.set call.handle
        { h with running := true, runtime := some c.runs.length })
      (calls : d.calls = c.calls.set n ⟨call.handle, .finished c.now (.ok .done)⟩)
      (events : ∃ es, Lossless es ∧ d.events = es ++ c.events) (act : a = .step (.call n))
  | taken (n m : Nat) (call : Call) (h : Handle) (r : Run) (at_call : c.calls[n]? = some call)
      (asked : call.stage = .entering .stop) (handle : c.handles[call.handle]? = some h)
      (lock : h.lock = none) (runtime : h.runtime = some m) (run : c.runs[m]? = some r)
      (runs : d.runs = c.runs)
      (handles : d.handles = c.handles.set call.handle
        { h with runtime := none, lock := some n })
      (calls : d.calls = c.calls.set n ⟨call.handle, .joining m 0⟩) (events : d.events = c.events)
  /-- A stop under way goes on. -/
  | went (n m : Nat) (call : Call) (next : Stage) (at_call : c.calls[n]? = some call)
      (stops : call.stage.stopping? = some m) (still : next.stopping? = some m)
      (runs : c.RunsKept d) (handles : d.handles = c.handles)
      (calls : d.calls = c.calls.set n ⟨call.handle, next⟩)
      (ends : ∀ r r', c.runs[m]? = some r → d.runs[m]? = some r' → call.stage.Ends m r →
        next.Ends m r')
      (left : next.left.length ≤ call.stage.left.length ∨
        ∃ r, c.runs[m]? = some r ∧ next.left = r.channel.buffer.reverse)
      (events : ∃ es, Lossless es ∧ d.events = es ++ c.events)
  | ended (n m : Nat) (call : Call) (h : Handle) (at_call : c.calls[n]? = some call)
      (stage : call.stage = .releasing m []) (handle : c.handles[call.handle]? = some h)
      (runs : d.runs = (c.letGo m).runs)
      (handles : d.handles = c.handles.set call.handle { h with running := false, lock := none })
      (calls : d.calls = c.calls.set n ⟨call.handle, .finished c.now (.ok .done)⟩)
      (events : ∃ es, Lossless es ∧ d.events = es ++ (c.letGo m).events)
      (act : a = .step (.call n))
  | forsaken (n m : Nat) (call : Call) (act : a = .abandon n) (at_call : c.calls[n]? = some call)
      (stops : call.stage.stopping? = some m) (runs : d.runs = (c.letGo m).runs)
      (handles : d.handles = c.handles.modify call.handle ({ · with lock := none }))
      (calls : d.calls = c.calls.set n ⟨call.handle, .dropped⟩)
  | disposed (j m : Nat) (h : Handle) (r : Run) (handle : c.handles[j]? = some h)
      (unused : c.Unused j h) (runtime : h.runtime = some m) (run : c.runs[m]? = some r)
      (runs : d.runs = (c.letGo m).runs)
      (handles : d.handles = c.handles.set j { h with disposed := true, runtime := none })
      (calls : d.calls = c.calls) (events : d.events = (c.letGo m).events)

theorem isLive_of_stopping? {s : Stage} {m : Nat} (stops : s.stopping? = some m) :
    s.isLive = true := by
  cases s <;> first | rfl | cases stops

/-- No call is under way on a handle that nothing uses. -/
theorem Unused.done {h : Handle} {n : Nat} {call : Call} (unused : c.Unused i h)
    (hc : c.calls[n]? = some call) (own : call.handle = i) : call.stage.isLive = false := by
  refine Bool.eq_false_iff.mpr fun live => ?_
  have used : c.isUsed i = true := by
    rw [isUsed, Bool.or_eq_true]
    exact .inl (List.any_eq_true.mpr ⟨call, List.mem_of_getElem? hc, by simp [own, live]⟩)
  rw [unused.idle] at used
  cases used

theorem steady_or_turning_entry {n : Nat} {call : Call} {h : Handle} {request : Request}
    (act : a = .step (.call n))
    (hc : c.calls[n]? = some call) (stage : call.stage = .entering request)
    (handle : c.handles[call.handle]? = some h) (entry : Entry c d n call.handle h request) :
    Steady c d ∨ Turning a c d := by
  have free : call.stage.stopping? = none := by rw [stage]; rfl
  have live : call.stage.isLive = true := by rw [stage]; rfl
  cases entry with
  | answered memory result contents eq =>
      subst eq
      exact .inl (steady_call [] hc free live (by rfl) rfl rfl (calls_setCall hc _) rfl
        lossless_nil)
  | pushed tasks some asked memory contents eq =>
      subst eq
      exact .inl (steady_call [.pushed tasks] hc free live (by rfl) rfl rfl (calls_setCall hc _)
        rfl (by simp [Lossless]))
  | recovering maxAge asked accepted eq =>
      subst eq
      exact .inl (steady_call [] hc free live (by rfl) rfl rfl (calls_setCall hc _) rfl
        lossless_nil)
  | launched parent asked lock running eq =>
      subst eq asked
      refine .inr (.launched n call h _ hc ⟨parent, stage⟩ handle lock running ?_ rfl ?_
        (calls_setCall_of rfl hc _)
        ⟨[.queueStarted h.options.workers h.options.bufferSize], by simp [Lossless], rfl⟩ act)
      · exact ⟨rfl, rfl, ⟨List.length_replicate, rfl, Nat.zero_le _⟩⟩
      · simp [launch, setHandle, setCall, record]
  | taken m r asked lock runtime at_run eq =>
      subst eq asked
      exact .inr (.taken n m call h r hc stage handle lock runtime at_run rfl rfl
        (calls_setCall_of rfl hc _) rfl)

theorem steady_or_turning_call {n : Nat} (act : a = .step (.call n)) (h : c.stepCall n = some d) :
    Steady c d ∨ Turning a c d := by
  obtain ⟨call, hd, hc, hh, step⟩ := stepCall_cases h
  cases step with
  | entered request stage entry => exact steady_or_turning_entry act hc stage hh entry
  | recovered maxAge recovery o memory es stage step eq =>
      subst eq
      have none : Lossless es.reverse := fun id lost =>
        lossless_of_recovery step id (List.mem_reverse.mp lost)
      have next : (afterRecovery c.now maxAge o).stopping? = Option.none := by
        rcases o with recovery | (e | count) <;> rfl
      exact .inl (steady_call es.reverse hc (by rw [stage]; rfl) (by rw [stage]; rfl) next rfl rfl
        (calls_setCall_of rfl hc _) (events_record _ _ _) none)
  | joined m loop r next panicked stage run after eq ended all =>
      subst eq
      refine .inr (.went n m call next hc (by rw [stage]; rfl) ?_ (runsKept_same rfl) rfl
        (calls_setCall hc next) (fun q q' hq hq' before => ?_) (.inl ?_)
        ⟨_, ?_, events_record _ _ _⟩)
      · rcases after with rfl | ⟨rfl, -⟩ <;> rfl
      · obtain rfl := Option.some.inj (run.symm.trans hq)
        obtain rfl := Option.some.inj (run.symm.trans hq')
        rw [stage] at before
        rcases after with rfl | ⟨rfl, dead⟩
        · refine ⟨rfl, fun k hk => ?_⟩
          rcases Nat.lt_succ_iff_lt_or_eq.mp hk with hk | rfl
          · exact before.2 k hk
          · exact ended
        · refine ⟨rfl, dead, fun k w hw => ?_⟩
          have short := List.getElem?_eq_none_iff.mp (all rfl)
          obtain ⟨hk, -⟩ := List.getElem?_eq_some_iff.mp hw
          exact before.2 k (Nat.lt_of_lt_of_le hk short) w hw
      · rcases after with rfl | ⟨rfl, -⟩ <;> exact Nat.zero_le _
      · cases panicked <;> simp [Lossless]
  | drained m r stage run eq =>
      subst eq
      refine .inr (.went n m call (.releasing m r.channel.buffer.reverse) hc (by rw [stage]; rfl)
        rfl (runsKept_set run rfl (Run.continues_discard r) id) rfl (calls_setCall_of rfl hc _)
        (fun q q' hq hq' before => ?_) (.inr ⟨r, run, rfl⟩) ⟨[], by simp [Lossless], rfl⟩)
      obtain rfl := Option.some.inj (run.symm.trans hq)
      obtain ⟨hm, -⟩ := List.getElem?_eq_some_iff.mp run
      have last : q' = { r with channel := r.channel.discard } := by
        simpa [setCall, setRun, hm, eq_comm] using hq'
      rw [stage] at before
      exact ⟨rfl, last ▸ (Run.spent_iff _).mpr ⟨before.2.1, before.2.2, rfl⟩⟩
  | released m claim rest stage eq =>
      subst eq
      refine .inr (.went n m call (.releasing m rest) hc (by rw [stage]; rfl) rfl
        (runsKept_same rfl) rfl (calls_setCall_of rfl hc _) (fun q q' hq hq' before => ?_)
        (.inl ?_) ⟨_, ?_, events_record _ _ _⟩)
      · obtain rfl := Option.some.inj (hq.symm.trans hq')
        rw [stage] at before
        exact before
      · rw [stage]
        exact Nat.le_succ _
      · rcases release_cases hd.keys claim.id c.memory with ⟨told, -⟩ | ⟨cause, told, -⟩ <;>
          simp [told, Lossless]
  | ended m stage eq =>
      subst eq
      refine .inr (.ended n m call hd hc stage hh rfl ?_ (calls_ended hc _ _)
        ⟨[.queueStopped], by simp [Lossless], rfl⟩ act)
      show _ = c.handles.set call.handle { hd with running := false, lock := none }
      simp [setHandle, setCall]

theorem steady_or_turning_abandon {n : Nat} (act : a = .abandon n) :
    Steady c (c.abandon n) ∨ Turning a c (c.abandon n) := by
  have same : Steady c c := steady_same rfl (handlesKept_same rfl) rfl rfl
  rcases c.abandon_cases n with eq | ⟨call, hc, ⟨free, eq⟩ | ⟨m, stops, eq⟩⟩
  · rw [eq]
    exact .inl same
  · rcases live_or_abandon hc with live | eq'
    · rw [eq]
      exact .inl (steady_call [] hc free live (by rfl) rfl rfl (calls_setCall hc _) rfl
        lossless_nil)
    · rw [eq']
      exact .inl same
  · rw [eq]
    refine .inr (.forsaken n m call act hc stops ?_ (handles_letGo _ m) ?_)
    · exact runs_letGo (c := c) (by rfl) m
    · rw [calls_record, calls_letGo]
      exact calls_setCall hc _

theorem steady_or_turning_disposal {j : Nat} (h : c.stepDisposal j = some d) :
    Steady c d ∨ Turning a c d := by
  obtain ⟨hd, hh, unused, ⟨-, rfl⟩ | ⟨m, r, runtime, run, rfl⟩⟩ := stepDisposal_cases h
  · have handles := handlesKept_set (d := c.setHandle j { hd with disposed := true }) hh rfl
      ⟨rfl, rfl, rfl, id, fun _ => rfl, rfl⟩
    exact .inl (steady_same rfl handles rfl rfl)
  · exact .inr (.disposed j m hd r hh unused runtime run (runs_letGo (c := c) (by rfl) m)
      (handles_letGo _ m) (calls_letGo _ m) (events_letGo (c := c) (by rfl) (by rfl) m))

/-- Every act either starts and stops nothing or is one of the turns. -/
theorem steady_or_turning (h : c.perform a = some d) : Steady c d ∨ Turning a c d := by
  cases a with
  | step p =>
      cases p with
      | fetcher run => exact .inl (steady_fetcher h)
      | worker run index => exact .inl (steady_worker h)
      | call index => exact steady_or_turning_call rfl h
      | sweeper index => exact .inl (steady_sweeper h)
      | disposal handle => exact steady_or_turning_disposal h
  | executorReturns run worker result => exact .inl (steady_returns h)
  | build n options =>
      obtain rfl := build_of_perform h
      exact .inl (steady_same rfl (handlesKept_new ⟨rfl, rfl, rfl⟩ rfl) rfl rfl)
  | invoke j request =>
      obtain ⟨owned, rfl⟩ := invoke_of_perform h
      exact .inl (steady_invoke owned)
  | abandon n =>
      cases h
      exact steady_or_turning_abandon rfl
  | drop j =>
      cases h
      exact .inl (steady_same rfl (handlesKept_drop c j) rfl rfl)
  | sweep j t config =>
      rcases sweep_of_perform h with rfl | rfl
      all_goals exact .inl (steady_same rfl (handlesKept_same rfl) rfl rfl)
  | newToken | cancel t | failNext point count | elapse t =>
      cases h
      exact .inl (steady_same rfl (handlesKept_same rfl) rfl rfl)

/-! ### Runs and their sizes -/

theorem Turning.goesOn (turn : Turning a c d) : c.RunsGoOn d := by
  cases turn with
  | launched n call h r at_call asked handle lock running fresh runs =>
      exact runsGoOn_concat runs
  | taken _ _ _ _ _ _ _ _ _ _ _ runs => exact runsGoOn_same runs
  | went _ _ _ _ _ _ _ runs => exact runs.on
  | ended _ m _ _ _ _ _ runs | forsaken _ m _ _ _ _ runs | disposed _ m _ _ _ _ _ _ runs =>
      intro k q hq
      rw [runs]
      exact c.runsGoOn_letGo m k q hq

/-- A run goes on from what it was, or it is the new one. -/
theorem Turning.run (turn : Turning a c d) {n : Nat} {r : Run} (hr : d.runs[n]? = some r) :
    (∃ q, c.runs[n]? = some q ∧ q.Continues r) ∨
      d.runs = c.runs ++ [r] ∧ ∃ j h, c.handles[j]? = some h ∧ r.Fresh j h.options := by
  have kept (length : d.runs.length = c.runs.length) :
      (∃ q, c.runs[n]? = some q ∧ q.Continues r) ∨
        d.runs = c.runs ++ [r] ∧ ∃ j h, c.handles[j]? = some h ∧ r.Fresh j h.options :=
    .inl (turn.goesOn.back length hr)
  cases turn with
  | launched k call h q at_call asked handle lock running fresh runs =>
      have hr' := hr
      rw [runs] at hr'
      rcases getElem?_concat_cases hr' with ⟨-, rfl⟩ | hr'
      · exact .inr ⟨runs, call.handle, h, handle, fresh⟩
      · exact .inl ⟨r, hr', .refl r⟩
  | taken _ _ _ _ _ _ _ _ _ _ _ runs => exact kept (by rw [runs])
  | went _ _ _ _ _ _ _ runs => exact kept runs.length
  | ended _ m _ _ _ _ _ runs | forsaken _ m _ _ _ _ runs | disposed _ m _ _ _ _ _ _ runs =>
      exact kept (by rw [runs, length_letGo])

theorem Turning.handle (turn : Turning a c d) {j : Nat} {h : Handle}
    (hh : c.handles[j]? = some h) :
    ∃ h', d.handles[j]? = some h' ∧ h'.options = h.options ∧ h'.owned = h.owned := by
  have set {k : Nat} {q q' : Handle} (at_k : c.handles[k]? = some q)
      (handles : d.handles = c.handles.set k q') (options : q'.options = q.options)
      (owned : q'.owned = q.owned) :
      ∃ h', d.handles[j]? = some h' ∧ h'.options = h.options ∧ h'.owned = h.owned := by
    rw [handles]
    rcases Decidable.em (k = j) with rfl | apart
    · obtain rfl := Option.some.inj (at_k.symm.trans hh)
      obtain ⟨hk, -⟩ := List.getElem?_eq_some_iff.mp at_k
      exact ⟨q', List.getElem?_set_self hk, options, owned⟩
    · exact ⟨h, by rw [List.getElem?_set_ne apart, hh], rfl, rfl⟩
  cases turn with
  | launched _ _ _ _ _ _ handle _ _ _ _ handles | taken _ _ _ _ _ _ _ handle _ _ _ _ handles
  | ended _ _ _ _ _ _ handle _ handles | disposed _ _ _ _ handle _ _ _ _ handles =>
      exact set handle handles rfl rfl
  | went _ _ _ _ _ _ _ _ handles => exact ⟨h, by rw [handles, hh], rfl, rfl⟩
  | forsaken _ _ call _ _ _ _ handles =>
      rw [handles, List.getElem?_modify, hh]
      exact ⟨_, rfl, by split <;> exact ⟨rfl, rfl⟩⟩

theorem goesOn_of_perform (h : c.perform a = some d) : c.RunsGoOn d := by
  rcases steady_or_turning h with steady | turn
  · exact steady.runs.on
  · exact turn.goesOn

/-- Every run is of the size that its handle asks for. -/
def Fitted (c : Cluster) : Prop :=
  ∀ (n : Nat) (r : Run), c.runs[n]? = some r →
    ∃ h, c.handles[r.handle]? = some h ∧ r.Fits h.options

/-- A handle keeps its options, and a handle that was given up stays so. -/
theorem handle_of_perform (hp : c.perform a = some d) {j : Nat} {h : Handle}
    (hh : c.handles[j]? = some h) : ∃ h', d.handles[j]? = some h' ∧ h'.options = h.options ∧
      (h.owned = false → h'.owned = false) := by
  rcases steady_or_turning hp with steady | turn
  · obtain ⟨h', hh', alike⟩ := steady.handles.on j h hh
    exact ⟨h', hh', alike.options, alike.owned⟩
  · obtain ⟨h', hh', options, owned⟩ := turn.handle hh
    exact ⟨h', hh', options, owned.trans⟩

theorem Fitted.perform (fitted : c.Fitted) (hp : c.perform a = some d) : d.Fitted := by
  have old {n : Nat} {q r : Run} (hq : c.runs[n]? = some q) (on : q.Continues r) :
      ∃ h, d.handles[r.handle]? = some h ∧ r.Fits h.options := by
    obtain ⟨h, hh, fits⟩ := fitted n q hq
    obtain ⟨h', hh', same, -⟩ := handle_of_perform hp hh
    exact ⟨h', on.handle ▸ hh', same ▸ on.fits _ fits⟩
  intro n r hr
  rcases steady_or_turning hp with steady | turn
  · obtain ⟨q, hq, on⟩ := steady.runs.on.back steady.runs.length hr
    exact old hq on
  · rcases turn.run hr with ⟨q, hq, on⟩ | ⟨-, j, h, handle, fresh⟩
    · exact old hq on
    · obtain ⟨h', hh', same, -⟩ := handle_of_perform hp handle
      exact ⟨h', fresh.handle ▸ hh', same ▸ fresh.fits⟩

/-! ### Stops under way -/

/-- Where a stop comes from that is under way after an act and ends run `m`: it was there before,
or it has just taken the run, or it has gone on. -/
inductive Under (c d : Cluster) (n m : Nat) (call : Call) : Prop where
  | same (old : c.calls[n]? = some call)
  | taken (r : Run) (run : c.runs[m]? = some r) (runs : d.runs = c.runs)
      (stage : call.stage = .joining m 0)
  | went (old : Call) (at_call : c.calls[n]? = some old) (own : old.handle = call.handle)
      (stops : old.stage.stopping? = some m) (runs : c.RunsKept d)
      (ends : ∀ r r', c.runs[m]? = some r → d.runs[m]? = some r' → old.stage.Ends m r →
        call.stage.Ends m r')
      (left : call.stage.left.length ≤ old.stage.left.length ∨
        ∃ r, c.runs[m]? = some r ∧ call.stage.left = r.channel.buffer.reverse)

theorem under_of_perform (h : c.perform a = some d) {n m : Nat} {call : Call}
    (hc : d.calls[n]? = some call) (stops : call.stage.stopping? = some m) :
    Under c d n m call := by
  rcases steady_or_turning h with steady | turn
  · cases before : c.calls[n]? with
    | none =>
        rw [(steady.calls.new n call before hc).1] at stops
        cases stops
    | some old =>
        rcases steady.calls.on n old before with same | ⟨-, -, s, next, free⟩
        · exact .same (before.trans (same.symm.trans hc))
        · obtain rfl := Option.some.inj (hc.symm.trans next)
          rw [free] at stops
          cases stops
  · -- A turn sets one call at most.
    have set {k : Nat} {old : Call} {s : Stage} (calls : d.calls = c.calls.set k ⟨old.handle, s⟩)
        (new : n = k → call = ⟨old.handle, s⟩ → Under c d n m call) : Under c d n m call := by
      rw [calls] at hc
      rcases getElem?_set_cases hc with ⟨rfl, rfl⟩ | ⟨-, same⟩
      · exact new rfl rfl
      · exact .same same
    have idle {k : Nat} {old : Call} {s : Stage}
        (calls : d.calls = c.calls.set k ⟨old.handle, s⟩) (free : s.stopping? = none) :
        Under c d n m call := by
      refine set calls fun _ same => ?_
      subst same
      rw [free] at stops
      cases stops
    cases turn with
    | launched _ _ _ _ _ _ _ _ _ _ _ _ calls | ended _ _ _ _ _ _ _ _ _ calls
    | forsaken _ _ _ _ _ _ _ _ calls => exact idle calls rfl
    | disposed _ _ _ _ _ _ _ _ _ _ calls => exact .same (calls ▸ hc)
    | taken k m' call' h r at_call asked handle lock runtime run runs handles calls =>
        refine set calls fun _ same => ?_
        subst same
        cases stops
        exact .taken r run runs rfl
    | went k m' old next at_call stops' still runs handles calls ends left =>
        refine set calls fun at_k same => ?_
        subst at_k same
        obtain rfl := Option.some.inj (still.symm.trans stops)
        exact .went old at_call rfl stops' runs ends left

/-- Whatever the stops under way have waited for has ended. -/
def Awaited (c : Cluster) : Prop :=
  ∀ (n m : Nat) (call : Call), c.calls[n]? = some call → call.stage.stopping? = some m →
    ∃ r, c.runs[m]? = some r ∧ call.stage.Ends m r

theorem Awaited.perform (awaited : c.Awaited) (h : c.perform a = some d) : d.Awaited := by
  intro n m call hc stops
  cases under_of_perform h hc stops with
  | same old =>
      obtain ⟨r, hr, ends⟩ := awaited n m call old stops
      obtain ⟨r', hr', on⟩ := goesOn_of_perform h m r hr
      exact ⟨r', hr', ends.continues on⟩
  | taken r run runs stage =>
      rw [stage]
      exact ⟨r, runs ▸ run, rfl, fun _ none => absurd none (Nat.not_lt_zero _)⟩
  | went old at_call own before runs ends left =>
      obtain ⟨r, hr, ended⟩ := awaited n m old at_call before
      obtain ⟨r', hr', -⟩ := runs.on m r hr
      exact ⟨r', hr', ends r r' hr hr' ended⟩

end Cluster

end ReliableQueue.Queue
