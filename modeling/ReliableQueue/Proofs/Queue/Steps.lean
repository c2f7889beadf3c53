import ReliableQueue.Proofs.Queue.Places

/-!
What the steps of a cluster do, said once for each process. What else is proved of a step
is proved from here.
-/

namespace ReliableQueue.Queue

/-- What a handle is when it is built. -/
theorem Handle.of_build {name : String} {options : Options} {h : Handle}
    (hb : Handle.build name true true options = .ok h) : h = { name, options } := by
  simp only [build, Bool.not_true, Bool.false_eq_true, if_false] at hb
  split at hb <;> cases hb
  rfl

namespace Cluster

variable {c d : Cluster}

/-! ### Loops -/

theorem stepFetcher_cases {i : Nat} (h : c.stepFetcher i = some d) :
    ∃ r hd m, c.runs[i]? = some r ∧ c.handles[r.handle]? = some hd ∧
      r.fetcher.step (c.setting hd r) (c.shared r) = some m ∧
      d = c.settle i { r with fetcher := m.loop } m.shared m.events := by
  simp only [stepFetcher, Option.bind_eq_bind, Option.bind_eq_some_iff, Option.pure_def,
    Option.some.injEq] at h
  obtain ⟨r, hr, hd, hh, m, hm, rfl⟩ := h
  exact ⟨r, hd, m, hr, hh, hm, rfl⟩

theorem stepWorker_cases {i j : Nat} (h : c.stepWorker i j = some d) :
    ∃ r hd w m, c.runs[i]? = some r ∧ c.handles[r.handle]? = some hd ∧
      r.workers[j]? = some w ∧
      w.step (c.setting hd r) (c.shared r) (!r.fetcher.isLive) = some m ∧
      d = c.settle i { r with workers := r.workers.set j m.loop } m.shared m.events := by
  simp only [stepWorker, Option.bind_eq_bind, Option.bind_eq_some_iff, Option.pure_def,
    Option.some.injEq] at h
  obtain ⟨r, hr, hd, hh, w, hw, m, hm, rfl⟩ := h
  exact ⟨r, hd, w, m, hr, hh, hw, hm, rfl⟩

theorem executorReturns_cases {i j : Nat} {result : CallResult}
    (h : c.executorReturns i j result = some d) :
    ∃ r hd w m, c.runs[i]? = some r ∧ c.handles[r.handle]? = some hd ∧
      r.workers[j]? = some w ∧ w.returns (c.setting hd r) (c.shared r) result = some m ∧
      d = c.settle i { r with workers := r.workers.set j m.loop } m.shared m.events := by
  simp only [executorReturns, Option.bind_eq_bind, Option.bind_eq_some_iff, Option.pure_def,
    Option.some.injEq] at h
  obtain ⟨r, hr, hd, hh, w, hw, m, hm, rfl⟩ := h
  exact ⟨r, hd, w, m, hr, hh, hw, hm, rfl⟩

/-! ### Calls -/

/-- What the first step of call `n`, made on handle `i`, does to `c`. -/
inductive Entry (c d : Cluster) (n i : Nat) (h : Handle) (request : Request) : Prop where
  | answered (memory : Store.Memory) (result : Except Error Reply)
      (contents : memory.contents = c.memory.contents)
      (eq : d = { c with memory }.setCall n (.finished c.now result))
      (idle : request = .stop → h.lock = none ∧ h.runtime = none ∧ result = .ok .done)
      (refused : ∀ parent, request = .start parent →
        h.running = true ∧ memory = c.memory ∧ result = .error .alreadyRunning)
  | pushed (tasks : List Task) (some : tasks ≠ []) (asked : request = .push tasks)
      (memory : Store.Memory)
      (contents : memory.contents =
        c.memory.contents.applyAll (pushBatch h.keys tasks).commands)
      (eq : d = ({ c with memory }.setCall n (.finished c.now (.ok .done))).record i
        [.pushed tasks])
  | launched (parent : Token) (asked : request = .start parent) (lock : h.lock = none)
      (running : h.running = false)
      (eq : d = (c.launch i h parent).setCall n (.finished c.now (.ok .done)))
  | taken (run : Nat) (r : Run) (asked : request = .stop) (lock : h.lock = none)
      (runtime : h.runtime = some run) (at_run : c.runs[run]? = some r)
      (eq : d = (({ c with tokens := c.tokens.cancel r.token } : Cluster).setHandle i
        { h with runtime := none, lock := some n }).setCall n (.joining run 0))
  | recovering (maxAge : Span) (asked : request = .recover maxAge)
      (accepted : checkMaxAge h.options maxAge = .ok ())
      (eq : d = c.setCall n (.recovering maxAge .ranging))

theorem enter_cases {n i : Nat} {h : Handle} {request : Request}
    (he : c.enter n i h request = some d) : Entry c d n i h request := by
  cases request with
  | push tasks =>
      cases tasks with
      | nil =>
          cases he
          exact .answered c.memory _ rfl rfl (by rintro ⟨⟩) (by rintro parent ⟨⟩)
      | cons t rest =>
          simp only [enter] at he
          split at he
          · next hx =>
              cases he
              exact .answered _ _ (Store.Memory.exec_error hx).2 rfl (by rintro ⟨⟩)
                (by rintro parent ⟨⟩)
          · next hx =>
              cases he
              exact .pushed (t :: rest) (by simp) rfl _ (Store.Memory.exec_ok hx) rfl
  | start parent =>
      simp only [enter] at he
      split at he
      · cases he
      · next lock =>
          split at he
          · next running =>
              cases he
              exact .answered c.memory _ rfl rfl (by rintro ⟨⟩) fun _ _ => ⟨running, rfl, rfl⟩
          · next running =>
              cases he
              exact .launched parent rfl (by simpa using lock) (by simpa using running) rfl
  | stop =>
      simp only [enter] at he
      split at he
      · cases he
      · next lock =>
          split at he
          · next runtime =>
              cases he
              exact .answered c.memory _ rfl rfl (fun _ => ⟨by simpa using lock, runtime, rfl⟩)
                (by rintro parent ⟨⟩)
          · next run runtime =>
              split at he
              · cases he
              · next r hr =>
                  cases he
                  exact .taken run r rfl (by simpa using lock) runtime hr rfl
  | queueLength | processingCount =>
      cases he
      exact .answered c.memory _ rfl rfl (by rintro ⟨⟩) (by rintro parent ⟨⟩)
  | recover maxAge =>
      simp only [enter] at he
      split at he
      · cases he
        exact .answered c.memory _ rfl rfl (by rintro ⟨⟩) (by rintro parent ⟨⟩)
      · next accepted =>
          cases he
          exact .recovering maxAge rfl accepted rfl

/-- What a call goes on to after a step of its recovery. -/
def afterRecovery (now : Instant) (maxAge : Span) : Recovery.Outcome → Stage
  | .going recovery => .recovering maxAge recovery
  | .done (.ok count) => .finished now (.ok (.count count))
  | .done (.error e) => .finished now (.error (.store e))

/-- What a step of call `n`, made on handle `h`, does to `c`. -/
inductive CallStep (c d : Cluster) (n : Nat) (call : Call) (h : Handle) : Prop where
  | entered (request : Request) (stage : call.stage = .entering request)
      (entry : Entry c d n call.handle h request)
  | joined (i loop : Nat) (r : Run) (next : Stage) (panicked : Bool)
      (stage : call.stage = .joining i loop) (run : c.runs[i]? = some r)
      (after : next = .joining i (loop + 1) ∨ next = .draining i ∧ r.fetcher.isLive = false)
      (eq : d = (c.setCall n next).record call.handle (if panicked then [.loopPanicked] else []))
      (ended : ∀ w, r.workers[loop]? = some w → w.isLive = false)
      (all : next = .draining i → r.workers[loop]? = none)
  | drained (i : Nat) (r : Run) (stage : call.stage = .draining i) (run : c.runs[i]? = some r)
      (eq : d = (c.setRun i { r with channel := r.channel.discard }).setCall n
        (.releasing i r.channel.buffer.reverse))
  | released (i : Nat) (claim : Claim) (rest : List Claim)
      (stage : call.stage = .releasing i (claim :: rest))
      (eq : d = ({ c with memory := (release h.keys claim.id c.memory).2 }.setCall n
        (.releasing i rest)).record call.handle [(release h.keys claim.id c.memory).1])
  | ended (i : Nat) (stage : call.stage = .releasing i [])
      (eq : d = (((c.letGo i).setHandle call.handle
        { h with running := false, lock := none }).setCall n
          (.finished c.now (.ok .done))).record call.handle [.queueStopped])
  | recovered (maxAge : Span) (recovery : Recovery) (o : Recovery.Outcome)
      (memory : Store.Memory) (es : List Event) (stage : call.stage = .recovering maxAge recovery)
      (step : recovery.step h.keys maxAge (Clock.wallSecond c.epoch c.now) c.memory =
        (o, memory, es))
      (eq : d = ({ c with memory }.setCall n (afterRecovery c.now maxAge o)).record
        call.handle es)

theorem joined_eq {n i : Nat} {live panicked : Bool} {next : Stage}
    (h : c.joined n i live panicked next = some d) :
    live = false ∧ d = (c.setCall n next).record i (if panicked then [.loopPanicked] else []) := by
  cases live with
  | true => cases h
  | false =>
      cases h
      exact ⟨rfl, rfl⟩

theorem stepCall_cases {n : Nat} (h : c.stepCall n = some d) :
    ∃ call hd, c.calls[n]? = some call ∧ c.handles[call.handle]? = some hd ∧
      CallStep c d n call hd := by
  simp only [stepCall, Option.bind_eq_bind, Option.bind_eq_some_iff, Option.pure_def] at h
  obtain ⟨call, hc, hd, hh, h⟩ := h
  refine ⟨call, hd, hc, hh, ?_⟩
  cases hs : call.stage with
  | entering request =>
      rw [hs] at h
      exact .entered request hs (enter_cases h)
  | joining i loop =>
      rw [hs] at h
      simp only [Option.bind_eq_some_iff] at h
      obtain ⟨r, hr, h⟩ := h
      split at h
      · next w hw =>
          obtain ⟨dead, rfl⟩ := joined_eq h
          refine .joined i loop r _ _ hs hr (.inl rfl) rfl (fun v hv => ?_) (by rintro ⟨⟩)
          obtain rfl := Option.some.inj (hw.symm.trans hv)
          exact dead
      · next none =>
          obtain ⟨dead, rfl⟩ := joined_eq h
          refine .joined i loop r _ _ hs hr (.inr ⟨rfl, dead⟩) rfl (fun v hv => ?_) fun _ => none
          rw [none] at hv
          cases hv
  | draining i =>
      rw [hs] at h
      simp only [Option.bind_eq_some_iff, Option.some.injEq] at h
      obtain ⟨r, hr, rfl⟩ := h
      exact .drained i r hs hr rfl
  | releasing i left =>
      rw [hs] at h
      cases left with
      | nil =>
          cases h
          exact .ended i hs rfl
      | cons claim rest =>
          cases h
          exact .released i claim rest hs rfl
  | recovering maxAge recovery =>
      rw [hs] at h
      cases h
      exact .recovered maxAge recovery _ _ _ hs rfl rfl
  | finished time result | dropped =>
      rw [hs] at h
      cases h

/-- The end of a stop changes no other call. -/
theorem calls_ended {n i : Nat} {call : Call} (hc : c.calls[n]? = some call) (h : Handle)
    (s : Stage) :
    (((c.letGo i).setHandle call.handle h).setCall n s).calls =
      c.calls.set n ⟨call.handle, s⟩ :=
  calls_setCall_of (by simp) hc s

/-! ### Sweepers and the ends of handles -/

theorem stepSweeper_cases {n : Nat} {heeds : Bool} (h : c.stepSweeper n heeds = some d) :
    ∃ s hd stage memory es, c.sweepers[n]? = some s ∧ c.handles[s.handle]? = some hd ∧
      (heeds && !c.tokens.isCancelled s.token) = false ∧
      s.step hd.keys c.epoch c.now heeds c.memory = some (stage, memory, es) ∧
      d = ({ c with memory, sweepers := c.sweepers.set n { s with stage } } : Cluster).record
        s.handle es := by
  simp only [stepSweeper, Option.bind_eq_bind, Option.bind_eq_some_iff, Option.pure_def] at h
  obtain ⟨s, hs, hd, hh, h⟩ := h
  split at h
  · cases h
  · next fair =>
      simp only [Option.bind_eq_some_iff, Option.some.injEq] at h
      obtain ⟨⟨stage, memory, es⟩, hm, rfl⟩ := h
      exact ⟨s, hd, stage, memory, es, hs, hh, Bool.eq_false_iff.mpr fair, hm, rfl⟩

/-- A handle that was given up, that nothing uses and that is still there. -/
structure Unused (c : Cluster) (i : Nat) (h : Handle) : Prop where
  given : h.owned = false
  there : h.disposed = false
  idle : c.isUsed i = false

theorem stepDisposal_cases {i : Nat} (h : c.stepDisposal i = some d) :
    ∃ hd, c.handles[i]? = some hd ∧ c.Unused i hd ∧
      ((hd.runtime = none ∧ d = c.setHandle i { hd with disposed := true }) ∨
        ∃ run r, hd.runtime = some run ∧ c.runs[run]? = some r ∧
          d = ({ c.setHandle i { hd with disposed := true, runtime := none } with
            tokens := c.tokens.cancel r.token } : Cluster).letGo run) := by
  simp only [stepDisposal, Option.bind_eq_bind, Option.bind_eq_some_iff, Option.pure_def] at h
  obtain ⟨hd, hh, h⟩ := h
  split at h
  · cases h
  · next free =>
      simp only [Bool.or_eq_true, not_or, Bool.not_eq_true] at free
      refine ⟨hd, hh, ⟨free.1.1, free.1.2, free.2⟩, ?_⟩
      split at h
      · next runtime =>
          cases h
          exact .inl ⟨runtime, rfl⟩
      · next run runtime =>
          simp only [Option.bind_eq_some_iff, Option.some.injEq] at h
          obtain ⟨r, hr, rfl⟩ := h
          exact .inr ⟨run, r, runtime, hr, rfl⟩

/-! ### Acts from outside -/

theorem invoke_of_perform {i : Nat} {request : Request}
    (h : c.perform (.invoke i request) = some d) :
    c.isOwned i = true ∧ d = c.invoke i request := by
  simp only [perform] at h
  split at h
  · next owned =>
      cases h
      exact ⟨owned, rfl⟩
  · cases h

theorem build_of_perform {name : String} {options : Options}
    (h : c.perform (.build name options) = some d) : d = c.addHandle { name, options } := by
  simp only [perform] at h
  split at h
  · cases h
  · next hb =>
      cases h
      rw [Handle.of_build hb]

/-- A sweeper is only set going with an age that its handle accepts. -/
theorem sweep_cases {i : Nat} {t : Token} {config : Sweeper.Config}
    (h : c.perform (.sweep i t config) = some d) : d = c ∨
      ∃ hd, c.handles[i]? = some hd ∧ checkMaxAge hd.options config.maxAge = .ok () ∧
        d = { c with sweepers := c.sweepers ++ [{ handle := i, token := t, config }] } := by
  simp only [perform, addSweeper] at h
  split at h
  · split at h
    · cases h
    · next hs =>
        cases h
        split at hs
        · cases hs
          exact .inl rfl
        · next hd handle =>
            split at hs
            · cases hs
            · next accepted =>
                cases hs
                exact .inr ⟨hd, handle, accepted, rfl⟩
  · cases h

theorem sweep_of_perform {i : Nat} {t : Token} {config : Sweeper.Config}
    (h : c.perform (.sweep i t config) = some d) :
    d = c ∨ d = { c with sweepers := c.sweepers ++ [{ handle := i, token := t, config }] } := by
  rcases sweep_cases h with same | ⟨hd, -, -, added⟩
  · exact .inl same
  · exact .inr added

end Cluster

end ReliableQueue.Queue
