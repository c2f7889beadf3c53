import ReliableQueue.Proofs.Queue.Endings

/-!
The course of a handle that alone starts runs, among others that only use the same store. Its
runs follow one another: at rest all of them are over; then one is going, until a stop takes it
and ends it, or until the handle comes to its end and leaves it behind. Only in the last case is
a channel given up with something in it.
-/

namespace ReliableQueue.Queue

/-- The call is a stop under way that ends run `i`, which is `r`. -/
def Stage.Ends (i : Nat) (r : Run) : Stage → Prop
  | joining j loop => j = i ∧ ∀ m < loop, r.Ended m
  | draining j => j = i ∧ r.fetcher.isLive = false ∧ ∀ m, r.Ended m
  | releasing j _ => j = i ∧ r.Spent
  | _ => False

theorem Stage.Ends.stopping? {i : Nat} {r : Run} {s : Stage} (h : s.Ends i r) :
    s.stopping? = some i := by
  cases s with
  | joining | draining | releasing => simp_all [Ends, Stage.stopping?]
  | _ => cases h

theorem Stage.Ends.continues {i : Nat} {r r' : Run} {s : Stage} (h : s.Ends i r)
    (on : r.Continues r') : s.Ends i r' := by
  cases s with
  | joining j loop => exact ⟨h.1, fun m hm => on.worker m (h.2 m hm)⟩
  | draining j => exact ⟨h.1, on.fetcher h.2.1, fun m => on.worker m (h.2.2 m)⟩
  | releasing j left => exact ⟨h.1, on.spent h.2⟩
  | _ => cases h

/-- What a handle keeps while nothing is started or stopped on it. -/
structure Handle.Alike (h h' : Handle) : Prop where
  lock : h'.lock = h.lock
  runtime : h'.runtime = h.runtime
  running : h'.running = h.running
  owned : h.owned = false → h'.owned = false
  disposed : h.disposed = true → h'.disposed = true
  options : h'.options = h.options

/-- Nothing was ever started on a handle, or it was stopped. -/
structure Handle.AtRest (h : Handle) : Prop where
  lock : h.lock = none
  runtime : h.runtime = none
  running : h.running = false

theorem Handle.Alike.refl (h : Handle) : h.Alike h := ⟨rfl, rfl, rfl, id, id, rfl⟩

theorem Handle.Alike.atRest {h h' : Handle} (alike : h.Alike h') (rest : h.AtRest) : h'.AtRest :=
  ⟨alike.lock.trans rest.lock, alike.runtime.trans rest.runtime,
    alike.running.trans rest.running⟩

/-- The events tell of no task that is lost with a channel or a stop. -/
def Lossless (es : List Event) : Prop := ∀ id, .discarded id ∉ es

theorem lossless_nil : Lossless [] := fun _ => List.not_mem_nil

theorem lossless_of_quiet {es : List Event} (quiet : Quiet es) : Lossless es := by
  intro id lost
  cases quiet _ lost

theorem lossless_of_recovery {k : Keys} {maxAge : Span} {second : Nat} {m m' : Store.Memory}
    {r : Recovery} {o : Recovery.Outcome} {es : List Event}
    (step : r.step k maxAge second m = (o, m', es)) : Lossless es := by
  intro id lost
  rcases Recovery.step_cases step with ⟨-, quiet⟩ | ⟨id', -, -, rfl, -⟩
  · exact lossless_of_quiet quiet id lost
  · cases List.mem_singleton.mp lost

theorem lossless_of_sweep {s : Sweeper} {k : Keys} {epoch : Nat} {now : Instant} {cancelled : Bool}
    {m m' : Store.Memory} {stage : Sweeper.Stage} {es : List Event}
    (swept : s.step k epoch now cancelled m = some (stage, m', es)) : Lossless es := by
  intro id lost
  rcases Sweeper.step_cases swept with ⟨-, quiet⟩ | ⟨r, o, es, extra, -, step, rfl, quiet, -⟩
  · exact lossless_of_quiet quiet id lost
  · rcases List.mem_append.mp lost with lost | lost
    · exact lossless_of_recovery step id lost
    · exact lossless_of_quiet quiet id lost

variable {k : Keys} {name : String} {i : Nat} {a : Act} {c d : Cluster}

namespace Cluster

/-- Acts on one queue that only handle `i` claims from: no other one is started. The caller of
a stop does not give up once the stop is under way. -/
def SoleClaimer (name : String) (i : Nat) : Cluster → Act → Prop
  | _, .build n _ => n = name
  | _, .invoke j (.start _) => j = i
  | c, .abandon n => ∀ call, c.calls[n]? = some call → call.stage.stopping? = none
  | _, _ => True

/-- Nothing was lost with a channel or a stop. -/
def Intact (c : Cluster) : Prop := Lossless c.events

/-- All runs but run `n`, which is `r`, are over. -/
structure Latest (c : Cluster) (n : Nat) (r : Run) : Prop where
  run : c.runs[n]? = some r
  spent : ∀ (m : Nat) (q : Run), m ≠ n → c.runs[m]? = some q → q.Spent

/-- No run is going. -/
structure Resting (i : Nat) (c : Cluster) : Prop where
  handle : ∀ h : Handle, c.handles[i]? = some h → h.AtRest
  spent : ∀ (n : Nat) (r : Run), c.runs[n]? = some r → r.Spent
  free : ∀ (n : Nat) (call : Call), c.calls[n]? = some call → call.stage.stopping? = none
  intact : c.Intact

/-- Run `n`, which is `r`, is going for handle `i`, which is `h`. -/
structure Going (i : Nat) (c : Cluster) (h : Handle) (n : Nat) (r : Run) : Prop
    extends Latest c n r where
  handle : c.handles[i]? = some h
  lock : h.lock = none
  running : h.running = true
  runtime : h.runtime = some n
  kept : r.kept = true
  free : ∀ (m : Nat) (call : Call), c.calls[m]? = some call → call.stage.stopping? = none
  intact : c.Intact

/-- A stop of handle `i`, call number `stop`, ends run `n`. -/
structure Ending (i : Nat) (c : Cluster) (h : Handle) (n : Nat) (r : Run) (stop : Nat)
    (s : Stage) : Prop extends Latest c n r where
  handle : c.handles[i]? = some h
  lock : h.lock = some stop
  runtime : h.runtime = none
  kept : r.kept = true
  call : c.calls[stop]? = some ⟨i, s⟩
  stage : s.Ends n r
  free : ∀ (m : Nat) (call : Call), m ≠ stop → c.calls[m]? = some call →
    call.stage.stopping? = none
  intact : c.Intact

/-- Handle `i` has come to its end. -/
structure Gone (i : Nat) (c : Cluster) (h : Handle) : Prop where
  handle : c.handles[i]? = some h
  given : h.owned = false
  disposed : h.disposed = true
  done : ∀ (m : Nat) (call : Call), c.calls[m]? = some call → call.handle = i →
    call.stage.isLive = false
  free : ∀ (m : Nat) (call : Call), c.calls[m]? = some call → call.stage.stopping? = none

/-- Where handle `i` stands. -/
inductive Course (i : Nat) (c : Cluster) : Prop where
  | resting (rest : Resting i c)
  | going (h : Handle) (n : Nat) (r : Run) (going : Going i c h n r)
  | stopping (h : Handle) (n : Nat) (r : Run) (stop : Nat) (s : Stage)
      (under : Ending i c h n r stop s)
  | gone (h : Handle) (gone : Gone i c h)

/-- On all handles but handle `i`, nothing was started. -/
def Apart (i : Nat) (c : Cluster) : Prop :=
  ∀ (j : Nat) (h : Handle), j ≠ i → c.handles[j]? = some h → h.runtime = none

/-- Handle `i` alone starts runs. -/
structure Sole (i : Nat) (c : Cluster) : Prop where
  course : Course i c
  apart : Apart i c
  asks : c.Asks fun j request => ∀ parent, request = .start parent → j = i

/-! ### Acts that start and stop nothing -/

/-- Every run goes on, and its channel is kept if it was. -/
structure RunsKept (c d : Cluster) : Prop where
  length : d.runs.length = c.runs.length
  on : c.RunsGoOn d
  kept : ∀ (n : Nat) (r r' : Run), c.runs[n]? = some r → d.runs[n]? = some r' →
    r.kept = true → r'.kept = true

structure HandlesKept (c d : Cluster) : Prop where
  on : ∀ (j : Nat) (h : Handle), c.handles[j]? = some h →
    ∃ h', d.handles[j]? = some h' ∧ h.Alike h'
  new : ∀ (j : Nat) (h : Handle), c.handles[j]? = none → d.handles[j]? = some h → h.AtRest

/-- Calls that are no stop under way may go on, and the owner of a handle may make new ones. -/
structure CallsKept (c d : Cluster) : Prop where
  on : ∀ (n : Nat) (call : Call), c.calls[n]? = some call → d.calls[n]? = some call ∨
    call.stage.stopping? = none ∧ call.stage.isLive = true ∧
      ∃ s : Stage, d.calls[n]? = some ⟨call.handle, s⟩ ∧ s.stopping? = none
  new : ∀ (n : Nat) (call : Call), c.calls[n]? = none → d.calls[n]? = some call →
    call.stage.stopping? = none ∧ c.isOwned call.handle = true

/-- The channels that are given up are those of runs that are over. -/
def Safe (c : Cluster) : Prop :=
  ∀ (n : Nat) (r : Run), c.runs[n]? = some r → r.kept = true ∨ r.Spent

/-- Nothing is started or stopped. -/
structure Steady (c d : Cluster) : Prop where
  runs : c.RunsKept d
  handles : c.HandlesKept d
  calls : c.CallsKept d
  intact : c.Safe → c.Intact → d.Intact

theorem RunsKept.spent (h : c.RunsKept d) {n : Nat} {r' : Run} (hr : d.runs[n]? = some r')
    (spent : ∀ r, c.runs[n]? = some r → r.Spent) : r'.Spent := by
  obtain ⟨r, hr, on⟩ := h.on.back h.length hr
  exact on.spent (spent r hr)

theorem CallsKept.free (h : c.CallsKept d) {n : Nat} {call : Call}
    (hc : d.calls[n]? = some call)
    (free : ∀ call, c.calls[n]? = some call → call.stage.stopping? = none) :
    call.stage.stopping? = none := by
  cases before : c.calls[n]? with
  | none => exact (h.new n call before hc).1
  | some old =>
      rcases h.on n old before with same | ⟨-, -, s, next, new⟩
      · obtain rfl := Option.some.inj (hc.symm.trans same)
        exact free call before
      · obtain rfl := Option.some.inj (hc.symm.trans next)
        exact new

theorem HandlesKept.apart (h : c.HandlesKept d) (apart : Apart i c) : Apart i d := by
  intro j h' hj hh
  cases before : c.handles[j]? with
  | none => exact (h.new j h' before hh).runtime
  | some old =>
      obtain ⟨h'', hh'', alike⟩ := h.on j old before
      obtain rfl := Option.some.inj (hh.symm.trans hh'')
      exact alike.runtime.trans (apart j old hj before)

theorem resting_steady (steady : Steady c d) (h : Resting i c) : Resting i d where
  handle h' hh := by
    cases before : c.handles[i]? with
    | none => exact steady.handles.new i h' before hh
    | some old =>
        obtain ⟨h'', hh'', alike⟩ := steady.handles.on i old before
        obtain rfl := Option.some.inj (hh.symm.trans hh'')
        exact alike.atRest (h.handle old before)
  spent n _ hr := steady.runs.spent hr (h.spent n)
  free n _ hc := steady.calls.free hc (h.free n)
  intact := steady.intact (fun n r hr => .inr (h.spent n r hr)) h.intact

theorem Latest.safe {n : Nat} {r : Run} (latest : Latest c n r) (kept : r.kept = true) :
    c.Safe := by
  intro m q hq
  rcases Decidable.em (m = n) with rfl | apart
  · obtain rfl := Option.some.inj (latest.run.symm.trans hq)
    exact .inl kept
  · exact .inr (latest.spent m q apart hq)

theorem Latest.set {n : Nat} {r r' : Run} (latest : Latest c n r)
    (runs : d.runs = c.runs.set n r') : Latest d n r' where
  run := by
    obtain ⟨hn, -⟩ := List.getElem?_eq_some_iff.mp latest.run
    rw [runs, List.getElem?_set_self hn]
  spent m q hm hq := by
    rw [runs, List.getElem?_set_ne (Ne.symm hm)] at hq
    exact latest.spent m q hm hq

theorem RunsKept.latest (h : c.RunsKept d) {n : Nat} {r : Run} (latest : Latest c n r) :
    ∃ r', Latest d n r' ∧ r.Continues r' ∧ (r.kept = true → r'.kept = true) := by
  obtain ⟨r', run, on⟩ := h.on n r latest.run
  exact ⟨r', ⟨run, fun m q hm hq => h.spent hq (latest.spent m · hm)⟩, on,
    h.kept n r r' latest.run run⟩

/-- The course of a handle goes on as it was where nothing is started or stopped. -/
theorem course_steady (steady : Steady c d) (course : Course i c) : Course i d := by
  cases course with
  | resting rest => exact .resting (resting_steady steady rest)
  | going h n r going =>
      obtain ⟨h', handle, alike⟩ := steady.handles.on i h going.handle
      obtain ⟨r', latest, -, kept⟩ := steady.runs.latest going.toLatest
      exact .going h' n r' {
        latest with
        handle
        lock := alike.lock.trans going.lock
        running := alike.running.trans going.running
        runtime := alike.runtime.trans going.runtime
        kept := kept going.kept
        free := fun m call hc => steady.calls.free hc (going.free m)
        intact := steady.intact (going.safe going.kept) going.intact }
  | stopping h n r stop s under =>
      obtain ⟨h', handle, alike⟩ := steady.handles.on i h under.handle
      obtain ⟨r', latest, on, kept⟩ := steady.runs.latest under.toLatest
      have call : d.calls[stop]? = some ⟨i, s⟩ := by
        rcases steady.calls.on stop _ under.call with same | ⟨free, -⟩
        · exact same
        · rw [under.stage.stopping?] at free
          cases free
      exact .stopping h' n r' stop s {
        latest with
        handle, call
        lock := alike.lock.trans under.lock
        runtime := alike.runtime.trans under.runtime
        kept := kept under.kept
        stage := under.stage.continues on
        free := fun m call hm hc => steady.calls.free hc (under.free m · hm)
        intact := steady.intact (under.safe under.kept) under.intact }
  | gone h gone =>
      obtain ⟨h', handle, alike⟩ := steady.handles.on i h gone.handle
      refine .gone h' ⟨handle, alike.owned gone.given, alike.disposed gone.disposed,
        fun m call hc own => ?_, fun m call hc => steady.calls.free hc (gone.free m)⟩
      cases before : c.calls[m]? with
      | none =>
          have owner := (steady.calls.new m call before hc).2
          rw [isOwned, own, gone.handle, Option.any_some, gone.given] at owner
          cases owner
      | some old =>
          rcases steady.calls.on m old before with same | ⟨-, live, s, next, -⟩
          · obtain rfl := Option.some.inj (hc.symm.trans same)
            exact gone.done m call before own
          · obtain rfl := Option.some.inj (hc.symm.trans next)
            rw [gone.done m old before own] at live
            cases live

/-! ### Steps of loops -/

theorem Intact.grows {es : List Event} (intact : c.Intact) (events : d.events = es ++ c.events)
    (none : Lossless es) : d.Intact := by
  intro id hm
  rw [events] at hm
  rcases List.mem_append.mp hm with hm | hm
  · exact none id hm
  · exact intact id hm

theorem Intact.same (intact : c.Intact) (events : d.events = c.events) : d.Intact :=
  show Lossless d.events from events ▸ intact

theorem runsKept_same (runs : d.runs = c.runs) : c.RunsKept d where
  length := by rw [runs]
  on := runsGoOn_same runs
  kept n r r' hr hr' := by
    rw [runs, hr] at hr'
    cases hr'
    exact id

theorem runsKept_set {n : Nat} {r r' : Run} (hr : c.runs[n]? = some r)
    (runs : d.runs = c.runs.set n r') (on : r.Continues r')
    (kept : r.kept = true → r'.kept = true) : c.RunsKept d where
  length := by rw [runs, List.length_set]
  on := runsGoOn_set hr runs on
  kept m q q' hq hq' := by
    rw [runs] at hq'
    rcases getElem?_set_cases hq' with ⟨rfl, rfl⟩ | ⟨-, same⟩
    · obtain rfl := Option.some.inj (hr.symm.trans hq)
      exact kept
    · obtain rfl := Option.some.inj (hq.symm.trans same)
      exact id

theorem handlesKept_same (handles : d.handles = c.handles) : c.HandlesKept d where
  on j h hh := ⟨h, by rw [handles, hh], .refl h⟩
  new j h none hh := by
    rw [handles, none] at hh
    cases hh

theorem callsKept_same (calls : d.calls = c.calls) : c.CallsKept d where
  on n call hc := .inl (by rw [calls, hc])
  new n call none hc := by
    rw [calls, none] at hc
    cases hc

/-- A run goes on and loses nothing if its channel is kept. -/
theorem steady_run {n : Nat} {r : Run} {sh : Shared} {es : List Event} {q : Run}
    (hr : c.runs[n]? = some r) (on : r.Continues { q with channel := sh.channel })
    (kept : q.kept = r.kept) (busy : ¬r.Spent) (none : Lossless es) :
    Steady c (c.settle n q sh es) where
  runs := runsKept_set hr (runs_settle c n q sh es) (on.trans (Run.continues_reap _)) fun h => by
    rw [Run.reap_kept]
    exact kept.trans h
  handles := handlesKept_same rfl
  calls := callsKept_same rfl
  intact safe intact := by
    have stays : q.kept = true := kept.trans ((safe n r hr).resolve_right busy)
    obtain ⟨-, lost⟩ := Run.reap_same (r := { q with channel := sh.channel }) (.inl stays)
    have events := events_settle c n q sh es
    rw [lost, List.reverse_nil, List.nil_append] at events
    exact intact.grows events fun id hm => none id (List.mem_reverse.mp hm)

end Cluster

theorem Fetcher.Move.lossless {sh : Shared} {f : Fetcher} {m : Moved Fetcher}
    (h : Fetcher.Move k sh f m) : Lossless m.events := by
  intro id lost
  cases h with
  | quiet held contents channel events => exact lossless_of_quiet events id lost
  | requeued id notes had free contents channel events quiet
  | requeueFailed id cause notes had free fault contents channel events quiet =>
      rw [events] at lost
      cases lost with
      | tail _ hm => cases quiet _ hm
  | _ => simp_all

theorem Worker.Move.lossless {sh : Shared} {w : Worker} {m : Moved Worker}
    (h : Worker.Move k sh w m) : Lossless m.events := by
  intro id lost
  cases h with
  | quiet held calling contents channel events => cases events _ lost
  | _ => simp_all

namespace Cluster

theorem steady_fetcher {n : Nat} (h : c.stepFetcher n = some d) : Steady c d := by
  obtain ⟨r, hd, m, hr, -, hm, rfl⟩ := stepFetcher_cases h
  have live := Fetcher.isLive_of_step hm
  have busy (spent : r.Spent) : False := by
    rw [Run.spent_iff, live] at spent
    cases spent.1
  exact steady_run (q := { r with fetcher := m.loop }) hr
    (Run.continues_fetched rfl live (Fetcher.move_of_step rfl hm)) rfl busy
    (Fetcher.Move.lossless (Fetcher.move_of_step rfl hm))

theorem steady_worked {n j : Nat} {r : Run} {sh : Shared} {w : Worker} {m : Moved Worker}
    (hr : c.runs[n]? = some r) (channel : sh.channel = r.channel) (hw : r.workers[j]? = some w)
    (live : w.isLive = true) (move : Worker.Move k sh w m) :
    Steady c (c.settle n { r with workers := r.workers.set j m.loop } m.shared m.events) := by
  have busy (spent : r.Spent) : False := by
    rw [Run.spent_iff] at spent
    rw [spent.2.1 j w hw] at live
    cases live
  exact steady_run hr (Run.continues_worked channel hw live move) rfl busy
    (Worker.Move.lossless move)

theorem steady_worker {n j : Nat} (h : c.stepWorker n j = some d) : Steady c d := by
  obtain ⟨r, hd, w, m, hr, -, hw, hm, rfl⟩ := stepWorker_cases h
  exact steady_worked hr rfl hw (Worker.isLive_of_step hm) (Worker.move_of_step rfl hm)

theorem steady_returns {n j : Nat} {result : CallResult}
    (h : c.executorReturns n j result = some d) : Steady c d := by
  obtain ⟨r, hd, w, m, hr, -, hw, hm, rfl⟩ := executorReturns_cases h
  exact steady_worked hr rfl hw (Worker.isLive_of_returns hm)
    (Worker.move_of_returns (k := hd.keys) hm)

/-! ### Calls -/

/-- A call that is no stop under way goes on, and nothing else happens to handles and runs. -/
theorem steady_call {n : Nat} {call : Call} {s : Stage} (es : List Event)
    (hc : c.calls[n]? = some call) (free : call.stage.stopping? = none)
    (live : call.stage.isLive = true) (next : s.stopping? = none)
    (runs : d.runs = c.runs) (handles : d.handles = c.handles)
    (calls : d.calls = c.calls.set n ⟨call.handle, s⟩) (events : d.events = es ++ c.events)
    (none : Lossless es) : Steady c d where
  runs := runsKept_same runs
  handles := handlesKept_same handles
  intact _ intact := intact.grows events none
  calls := {
    on := fun m old hm => by
      rw [calls]
      rcases Decidable.em (n = m) with rfl | apart
      · obtain rfl := Option.some.inj (hc.symm.trans hm)
        obtain ⟨hn, -⟩ := List.getElem?_eq_some_iff.mp hc
        exact .inr ⟨free, live, s, List.getElem?_set_self hn, next⟩
      · exact .inl (by rw [List.getElem?_set_ne apart, hm])
    new := fun m call' old hm => by
      have short := List.getElem?_eq_none_iff.mp old
      rw [calls, List.getElem?_eq_none (by rwa [List.length_set])] at hm
      cases hm }

/-! ### Acts from outside -/

theorem handlesKept_set {j : Nat} {h h' : Handle} (handle : c.handles[j]? = some h)
    (handles : d.handles = c.handles.set j h') (alike : h.Alike h') : c.HandlesKept d where
  on m q hq := by
    rw [handles]
    rcases Decidable.em (j = m) with rfl | apart
    · obtain rfl := Option.some.inj (handle.symm.trans hq)
      obtain ⟨hj, -⟩ := List.getElem?_eq_some_iff.mp handle
      exact ⟨h', List.getElem?_set_self hj, alike⟩
    · exact ⟨q, by rw [List.getElem?_set_ne apart, hq], .refl q⟩
  new m q none hq := by
    have short := List.getElem?_eq_none_iff.mp none
    rw [handles, List.getElem?_eq_none (by rwa [List.length_set])] at hq
    cases hq

theorem handlesKept_drop (c : Cluster) (j : Nat) : c.HandlesKept (c.drop j) := by
  cases handle : c.handles[j]? with
  | none => exact handlesKept_same (List.modify_eq_self (List.getElem?_eq_none_iff.mp handle))
  | some h =>
      exact handlesKept_set handle (modify_of_getElem? handle _) ⟨rfl, rfl, rfl, fun _ => rfl, id, rfl⟩

theorem handlesKept_new {h : Handle} (rest : h.AtRest) (handles : d.handles = c.handles ++ [h]) :
    c.HandlesKept d where
  on m q hq := ⟨q, handles ▸ getElem?_concat_of hq h, .refl q⟩
  new m q none hq := by
    rw [handles] at hq
    rcases getElem?_concat_cases hq with ⟨-, rfl⟩ | hq
    · exact rest
    · rw [none] at hq
      cases hq

/-- What happens to the store, to tokens and to handles that nothing is started on. -/
theorem steady_same (runs : d.runs = c.runs) (handles : c.HandlesKept d)
    (calls : d.calls = c.calls) (events : d.events = c.events) : Steady c d :=
  ⟨runsKept_same runs, handles, callsKept_same calls, fun _ intact => intact.same events⟩

theorem steady_sweeper {n : Nat} {heeds : Bool} (h : c.stepSweeper n heeds = some d) :
    Steady c d := by
  obtain ⟨s, hd, stage, memory, es, -, -, -, swept, rfl⟩ := stepSweeper_cases h
  refine ⟨runsKept_same rfl, handlesKept_same rfl, callsKept_same rfl, fun _ intact => ?_⟩
  refine intact.grows (events_record _ _ _) fun id lost => ?_
  exact lossless_of_sweep swept id (List.mem_reverse.mp lost)

theorem steady_invoke {j : Nat} {request : Request} (owned : c.isOwned j = true) :
    Steady c (c.invoke j request) where
  runs := runsKept_same rfl
  handles := handlesKept_same rfl
  intact _ intact := intact
  calls := {
    on := fun n call hc => .inl (getElem?_concat_of hc _)
    new := fun n call none hc => by
      rcases getElem?_concat_cases hc with ⟨-, rfl⟩ | hc
      · exact ⟨rfl, owned⟩
      · rw [none] at hc
        cases hc }

end Cluster

end ReliableQueue.Queue
