import ReliableQueue.Proofs.Queue.Calls

/-!
Runs in which nothing goes wrong: the store does not fail, no run is cancelled, nothing is
recovered and no handle is given up. Tasks then only go forward. No task goes back to the
backlog, and none is lost on the way to a worker.
-/

namespace ReliableQueue.Queue

variable {name : String} {a : Act} {c d : Cluster}

/-- The event tells of no task that went back, was lost or failed to be settled. -/
def Event.isOrderly : Event → Bool
  | requeued _ | requeueFailed .. | released _ | releaseFailed .. | discarded _ | recovered _
  | settleFailed .. => false
  | _ => true

def Orderly (es : List Event) : Prop := ∀ e ∈ es, e.isOrderly = true

theorem Orderly.append {es es' : List Event} (h : Orderly es) (h' : Orderly es') :
    Orderly (es ++ es') :=
  List.forall_mem_append.mpr ⟨h, h'⟩

theorem Orderly.tally {es : List Event} (h : Orderly es) (x : String) :
    tally Event.requeuedIds es x = 0 ∧ tally Event.unqueuedIds es x = 0 ∧
      tally Event.releasedIds es x = 0 ∧ tally Event.unreleasedIds es x = 0 ∧
      tally Event.discardedIds es x = 0 ∧ tally Event.recoveredIds es x = 0 ∧
      tally Event.unsettledIds es x = 0 := by
  refine ⟨?_, ?_, ?_, ?_, ?_, ?_, ?_⟩
  all_goals
    refine tally_eq_zero.mpr fun e he => ?_
    have orderly := h e he
    cases e <;> first | exact List.not_mem_nil | cases orderly

/-- The fetcher does not put back what it has in hand. -/
def Fetcher.isForward : Fetcher → Bool
  | returning _ | undoing .. | releasing _ => false
  | _ => true

/-- Neither a stop nor a recovery is asked for. -/
def Request.isForward : Request → Bool
  | stop | recover _ => false
  | _ => true

/-! ### Loops -/

/-- A fetcher only goes forward where the store does not fail and the run is not cancelled. -/
theorem Fetcher.forward_of_step {s : Setting} {sh : Shared} {f : Fetcher} {m : Moved Fetcher}
    (h : f.step s sh = some m) (sound : sh.memory.Sound) (going : s.isCancelled sh = false)
    (opened : sh.channel.closed = false) (forward : f.isForward = true) :
    m.loop.isForward = true ∧ m.shared.channel.closed = false ∧ Orderly m.events := by
  cases f with
  | starting | stopping =>
      cases h
      exact ⟨rfl, opened, by simp [Orderly, Event.isOrderly]⟩
  | stopped | panicked => cases h
  | returning | undoing | releasing => cases forward
  | checking | popping | pausing =>
      simp only [step] at h
      repeat' split at h
      all_goals
        cases h
        try exact ⟨rfl, opened, by simp [Orderly, Event.isOrderly]⟩
  | holding | offering =>
      simp only [step, going] at h
      cases h
      exact ⟨rfl, opened, by simp [Orderly]⟩
  | loading id =>
      simp only [step] at h
      split at h
      · next hg => exact absurd (sound .hget) (Store.Memory.hget_error hg).1
      · cases h
        exact ⟨rfl, opened, by simp [Orderly, Event.isOrderly]⟩
  | stamping claim =>
      simp only [step] at h
      split at h
      · next hz => exact absurd (sound .zadd) (Store.Memory.zadd_error hz).1
      · cases h
        exact ⟨rfl, opened, by simp [Orderly, Event.isOrderly]⟩
  | sending claim =>
      simp only [step, opened, Bool.false_eq_true, if_false] at h
      split at h
      · cases h
        exact ⟨rfl, opened, by simp [Orderly, Event.isOrderly]⟩
      · cases h
        exact ⟨rfl, opened, by simp [Orderly]⟩

theorem Worker.orderly_outcome (options : Options) (call : Execution) (now : Instant)
    (o : Outcome) : Orderly [o.event options call now] := by
  cases o <;> simp [Orderly, Outcome.event, Event.isOrderly]

theorem Worker.forward_of_step {s : Setting} {sh : Shared} {gone : Bool} {w : Worker}
    {m : Moved Worker} (h : w.step s sh gone = some m) (sound : sh.memory.Sound)
    (opened : sh.channel.closed = false) :
    m.shared.channel.closed = false ∧ Orderly m.events := by
  cases w with
  | starting | stopping =>
      cases h
      exact ⟨opened, by simp [Orderly, Event.isOrderly]⟩
  | stopped | panicked => cases h
  | idle | receiving | beginning =>
      simp only [step] at h
      repeat' split at h
      all_goals
        cases h
        exact ⟨opened, by simp [Orderly, Event.isOrderly]⟩
  | executing call =>
      simp only [step] at h
      split at h
      · cases h
        exact ⟨opened, orderly_outcome _ _ _ _⟩
      · cases h
  | settling claim =>
      simp only [step] at h
      split at h
      · cases h
        exact ⟨opened, by simp [Orderly, Event.isOrderly]⟩
      · next hx => exact absurd (sound .exec) (Store.Memory.exec_error hx).1

theorem Worker.forward_of_returns {s : Setting} {sh : Shared} {result : CallResult} {w : Worker}
    {m : Moved Worker} (h : w.returns s sh result = some m) (opened : sh.channel.closed = false) :
    m.shared.channel.closed = false ∧ Orderly m.events := by
  cases w with
  | executing call =>
      cases result with
      | succeeded | failed e =>
          cases h
          exact ⟨opened, orderly_outcome _ _ _ _⟩
      | panicked =>
          cases h
          exact ⟨opened, by simp [Orderly, Event.isOrderly]⟩
  | _ => cases h

/-! ### Undisturbed runs -/

/-- The act is on the queue stored under `name`, and neither stops, gives up nor recovers
anything; an executor that returns has succeeded. -/
def Act.isForward (name : String) : Act → Bool
  | build n _ => n = name
  | invoke _ request => request.isForward
  | sweep .. | drop _ => false
  | executorReturns _ _ result => result = .succeeded
  | _ => true

namespace Cluster

/-- Acts on one queue whose store does not fail and whose runs are not cancelled. No handle is
stopped or given up, nothing is recovered, and executors succeed. -/
def Undisturbed (name : String) (c : Cluster) (a : Act) : Prop :=
  a.isForward name = true ∧ c.memory.Sound ∧
    ∀ r ∈ c.runs, c.tokens.isCancelled r.token = false

instance (name : String) (c : Cluster) (a : Act) : Decidable (Undisturbed name c a) :=
  inferInstanceAs (Decidable (_ ∧ _ ∧ _))

theorem Undisturbed.calm (ok : Undisturbed name c a) : Calm name c a := by
  refine ⟨?_, ?_⟩
  · cases a with
    | build n options => exact (of_decide_eq_true ok.1 : n = name)
    | _ => trivial
  · rintro i j rfl
    cases ok.1

/-- Tasks have only gone forward. -/
structure Forward (c : Cluster) : Prop where
  runs : ∀ r ∈ c.runs, r.kept = true ∧ r.channel.closed = false ∧ r.fetcher.isForward = true
  orderly : Orderly c.events

/-- Tasks have only gone forward, and nothing will stop them. -/
structure Smooth (c : Cluster) : Prop extends Forward c where
  tended : c.Tended
  asks : c.Asks fun _ request => request.isForward = true

theorem Smooth.free {n : Nat} {call : Call} (smooth : c.Smooth) (hc : c.calls[n]? = some call) :
    call.stage.stopping? = none := by
  have asks := smooth.asks call (List.mem_of_getElem? hc)
  cases hs : call.stage with
  | joining | draining | releasing => cases asks .stop (by rw [hs]; rfl)
  | _ => rfl

/-- A run goes on, and its channel stays. -/
theorem forward_settle {n : Nat} {r q : Run} {sh : Shared} {es : List Event} (smooth : c.Smooth)
    (hr : c.runs[n]? = some r) (kept : q.kept = r.kept) (opened : sh.channel.closed = false)
    (forward : q.fetcher.isForward = true) (orderly : Orderly es) :
    (c.settle n q sh es).Forward := by
  have stays : q.kept = true := kept.trans (smooth.runs r (List.mem_of_getElem? hr)).1
  have whole : { q with channel := sh.channel }.reap = ({ q with channel := sh.channel }, []) := by
    unfold Run.reap
    rw [if_neg (by simp [Run.isAbandoned, stays])]
  refine ⟨fun r' hr' => ?_, ?_⟩
  · rw [runs_settle, whole] at hr'
    rcases List.mem_or_eq_of_mem_set hr' with old | rfl
    · exact smooth.runs r' old
    · exact ⟨stays, opened, forward⟩
  · rw [events_settle, whole]
    refine Orderly.append (fun e he => ?_) smooth.orderly
    exact orderly e (by simpa using he)

theorem forward_call {n : Nat} (h : c.stepCall n = some d) (smooth : c.Smooth) : d.Forward := by
  obtain ⟨call, hd, hc, hh, step⟩ := stepCall_cases h
  have asks := smooth.asks call (List.mem_of_getElem? hc)
  cases step with
  | entered request stage entry =>
      have forward := asks request (by rw [stage]; rfl)
      cases entry with
      | answered memory result contents eq =>
          subst eq
          exact ⟨smooth.runs, smooth.orderly⟩
      | pushed tasks some asked memory contents eq =>
          subst eq
          refine ⟨smooth.runs, ?_⟩
          have pushed : Orderly [.pushed tasks] := by simp [Orderly, Event.isOrderly]
          exact pushed.append smooth.orderly
      | launched parent asked lock running eq =>
          subst eq
          have started : Orderly [.queueStarted hd.options.workers hd.options.bufferSize] := by
            simp [Orderly, Event.isOrderly]
          refine ⟨fun r hr => ?_, started.append smooth.orderly⟩
          rcases List.mem_append.mp hr with hr | hr
          · exact smooth.runs r hr
          · obtain rfl := List.mem_singleton.mp hr
            exact ⟨rfl, rfl, rfl⟩
      | taken run r asked | recovering maxAge asked =>
          subst asked
          cases forward
  | joined _ _ _ _ _ stage | drained _ _ stage | released _ _ _ stage | ended _ stage =>
      cases asks .stop (by rw [stage]; rfl)
  | recovered maxAge recovery o memory es stage =>
      cases asks (.recover maxAge) (by rw [stage]; rfl)

theorem forward_perform (ok : Undisturbed name c a) (h : c.perform a = some d)
    (smooth : c.Smooth) : d.Forward := by
  obtain ⟨allowed, sound, going⟩ := ok
  cases a with
  | step p =>
      cases p with
      | fetcher run =>
          obtain ⟨r, hd, m, hr, -, hm, rfl⟩ := stepFetcher_cases h
          have member := List.mem_of_getElem? hr
          obtain ⟨-, opened, forward⟩ := smooth.runs r member
          obtain ⟨forward, opened, orderly⟩ :=
            Fetcher.forward_of_step hm sound (going r member) opened forward
          exact forward_settle smooth hr rfl opened forward orderly
      | worker run index =>
          obtain ⟨r, hd, w, m, hr, -, -, hm, rfl⟩ := stepWorker_cases h
          obtain ⟨-, opened, forward⟩ := smooth.runs r (List.mem_of_getElem? hr)
          obtain ⟨opened, orderly⟩ := Worker.forward_of_step hm sound opened
          exact forward_settle smooth hr rfl opened forward orderly
      | call index => exact forward_call h smooth
      | sweeper index =>
          obtain ⟨s, hd, stage, memory, es, hs, -⟩ := stepSweeper_cases h
          rw [smooth.tended.sweepers] at hs
          cases hs
      | disposal handle => exact absurd h smooth.tended.no_disposal
  | executorReturns run worker result =>
      obtain ⟨r, hd, w, m, hr, -, -, hm, rfl⟩ := executorReturns_cases h
      obtain ⟨-, opened, forward⟩ := smooth.runs r (List.mem_of_getElem? hr)
      obtain ⟨opened, orderly⟩ := Worker.forward_of_returns hm opened
      exact forward_settle smooth hr rfl opened forward orderly
  | build n options =>
      obtain rfl := build_of_perform h
      exact ⟨smooth.runs, smooth.orderly⟩
  | invoke i request =>
      obtain ⟨-, rfl⟩ := invoke_of_perform h
      exact ⟨smooth.runs, smooth.orderly⟩
  | abandon n =>
      cases h
      rcases c.abandon_cases n with eq | ⟨call, hc, ⟨-, eq⟩ | ⟨m, stops, -⟩⟩
      · rw [eq]
        exact ⟨smooth.runs, smooth.orderly⟩
      · rw [eq]
        exact ⟨smooth.runs, smooth.orderly⟩
      · rw [smooth.free hc] at stops
        cases stops
  | sweep | drop => cases allowed
  | newToken | cancel t | failNext point count | elapse t =>
      cases h
      exact ⟨smooth.runs, smooth.orderly⟩

variable {epoch : Nat}

theorem smooth_of_reaches (h : Reaches (Undisturbed name) (empty epoch) c) : c.Smooth := by
  refine h.invariant ⟨⟨?_, ?_⟩, tended_empty epoch, ?_⟩ fun b a d smooth ok hp => ?_
  · simp [empty]
  · simp [Orderly, empty, events]
  · simp [Asks, empty]
  · refine ⟨forward_perform ok hp smooth, smooth.tended.perform hp ?_ ?_,
      smooth.asks.perform hp ?_⟩
    · rintro i rfl
      cases ok.1
    · rintro i t config rfl
      cases ok.1
    · rintro i request rfl
      exact ok.1

end Cluster

end ReliableQueue.Queue
