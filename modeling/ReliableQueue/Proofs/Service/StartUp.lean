import ReliableQueue.Proofs.Queue.SweepAges
import ReliableQueue.Proofs.Queue.Tuning
import ReliableQueue.Service.Process

/-!
Which settings a worker starts with. A store that is not reached is reported before anything else
is looked at. Then the queue must have a name, and the age for recovery must exceed the execution
timeout; what is refused has left the store alone and set nothing going. A queue that was started
never refuses the age of its sweeper.
-/

namespace ReliableQueue

theorem Span.ofSeconds_lt_iff {a b : Nat} : Span.ofSeconds a < .ofSeconds b ↔ a < b :=
  Nat.mul_lt_mul_right (by decide)

theorem Span.isZero_ofSeconds {n : Nat} : (Span.ofSeconds n).isZero = true ↔ n = 0 := by
  rw [isZero, decide_eq_true_iff]
  exact Nat.mul_eq_zero.trans (or_iff_left (by decide))

theorem mapError_eq_ok {α β γ : Type} {x : Except α γ} {f : α → β} {v : γ} :
    x.mapError f = .ok v ↔ x = .ok v := by
  cases x with
  | error => exact ⟨by rintro ⟨⟩, by rintro ⟨⟩⟩
  | ok w =>
      have iff {ε : Type} : (.ok w : Except ε γ) = .ok v ↔ w = v := ⟨Except.ok.inj, congrArg _⟩
      exact iff.trans iff.symm

namespace Config

open Queue (Options)
open Queue.Options (Setting)

/-- The execution timeout of the queue in seconds; zero stands for that of the default options. -/
def QueueSettings.timeoutSeconds (s : QueueSettings) : Nat :=
  if s.executionTimeoutSeconds = 0 then (Options.default.executionTimeout.getD .zero).seconds
  else s.executionTimeoutSeconds

theorem QueueSettings.executionTimeout_options (s : QueueSettings) :
    s.options.executionTimeout = some (.ofSeconds s.timeoutSeconds) := by
  have get (o : Options) : o.executionTimeout = o.get .executionTimeout := rfl
  have set (timeout interval : Span) : (Options.default.setAll [.workers s.workers,
      .bufferSize s.bufferSize, .executionTimeout timeout, .pollInterval interval]).get
        .executionTimeout =
      if timeout.isZero then Options.default.executionTimeout else some timeout := by
    rw [Options.get_setAll]
    simp only [List.filterMap_cons, List.filterMap_nil, Setting.given]
    cases timeout.isZero <;> rfl
  rw [get, options_eq_setAll, calls, set]
  simp only [executionTimeout, timeoutSeconds, Span.isZero_ofSeconds]
  split <;> rfl

end Config

namespace Queue.Handle

theorem build_of_ne {name : String} (named : name ≠ "") (options : Options) :
    build name true true options = .ok { name, options } := by
  have some : ¬name.isEmpty = true := mt String.isEmpty_iff.mp named
  simp only [build, Bool.not_true, Bool.false_eq_true, if_false, if_neg some]

theorem build_of_empty (options : Options) : build "" true true options = .error .emptyName := rfl

end Queue.Handle

namespace Service

open Queue

/-- The handle of a worker's queue. -/
def handleOf (s : Config.Settings) : Handle := { name := s.queue.name, options := s.queue.options }

theorem timeout_handleOf (s : Config.Settings) :
    (handleOf s).timeout = .ofSeconds s.queue.timeoutSeconds := by
  rw [Handle.timeout, handleOf, s.queue.executionTimeout_options, Option.getD_some]

theorem timeout_lt_iff (s : Config.Settings) : (handleOf s).timeout < s.recovery.maxAge ↔
    s.queue.timeoutSeconds < s.recovery.maxAgeSeconds := by
  rw [timeout_handleOf]
  exact Span.ofSeconds_lt_iff

/-- A cluster with the queue of a worker, and the token that is to end it. -/
def withQueue (s : Config.Settings) (c : Cluster) : Token × Cluster :=
  (c.addHandle (handleOf s)).newToken

theorem handles_withQueue (s : Config.Settings) (c : Cluster) :
    (withQueue s c).2.handles[c.handles.length]? = some (handleOf s) :=
  List.getElem?_concat_length

/-- What comes of opening a worker's queue. -/
inductive Opening (s : Config.Settings) (c : Cluster) :
    Except Queue.Error Unit × Cluster → Prop where
  | unnamed (empty : s.queue.name = "") : Opening s c (.error .emptyName, c)
  | tooEarly (named : s.queue.name ≠ "") (enabled : s.recovery.enabled = true)
      (early : s.recovery.maxAgeSeconds ≤ s.queue.timeoutSeconds) :
      Opening s c (.error (.maxAgeTooSmall s.recovery.maxAge (.ofSeconds s.queue.timeoutSeconds)),
        (withQueue s c).2)
  | unswept (named : s.queue.name ≠ "") (disabled : s.recovery.enabled = false) :
      Opening s c (.ok (),
        (withQueue s c).2.invoke c.handles.length (.start (withQueue s c).1))
  | swept (named : s.queue.name ≠ "") (enabled : s.recovery.enabled = true)
      (late : s.queue.timeoutSeconds < s.recovery.maxAgeSeconds) :
      Opening s c (.ok (),
        ({ (withQueue s c).2 with
          sweepers := c.sweepers ++ [{
            handle := c.handles.length
            token := (withQueue s c).1
            config := s.recovery.sweeper }] } : Cluster).invoke c.handles.length
          (.start (withQueue s c).1))

theorem openQueue_of_ne {s : Config.Settings} (named : s.queue.name ≠ "") (c : Cluster) :
    openQueue s c =
      match if s.recovery.enabled then
          (withQueue s c).2.addSweeper c.handles.length (withQueue s c).1 s.recovery.sweeper
        else .ok (withQueue s c).2 with
      | .error e => (.error e, (withQueue s c).2)
      | .ok d => (.ok (), d.invoke c.handles.length (.start (withQueue s c).1)) := by
  rw [openQueue, Handle.build_of_ne named]
  rfl

theorem opening_openQueue (s : Config.Settings) (c : Cluster) : Opening s c (openQueue s c) := by
  rcases Decidable.em (s.queue.name = "") with empty | named
  · have refused : openQueue s c = (.error .emptyName, c) := by
      rw [openQueue, empty, Handle.build_of_empty]
    rw [refused]
    exact .unnamed empty
  · have handle := handles_withQueue s c
    rw [openQueue_of_ne named]
    cases enabled : s.recovery.enabled with
    | false => exact .unswept named enabled
    | true =>
        rw [if_pos rfl]
        rcases Nat.lt_or_ge s.queue.timeoutSeconds s.recovery.maxAgeSeconds with late | early
        · rw [Cluster.addSweeper_of_lt handle ((timeout_lt_iff s).mpr late)]
          exact .swept named enabled late
        · have refused : s.recovery.maxAge ≤ (handleOf s).timeout :=
            Nat.not_lt.mp fun late => Nat.not_lt.mpr early ((timeout_lt_iff s).mp late)
          rw [Cluster.addSweeper_of_le handle refused, timeout_handleOf]
          exact .tooEarly named enabled early

example : (openQueue
    { redis := ⟨"redis://localhost"⟩
      queue := { name := "q", executionTimeoutSeconds := 0 }
      recovery := { maxAgeSeconds := 30 } } {}).1 =
    .error (.maxAgeTooSmall (.ofSeconds 30) (.ofSeconds 30)) := by
  rfl

/-! ### Starts -/

/-- Nothing was done to a store, and nothing works on it. -/
structure Untouched (memory : Store.Memory) (c : Cluster) : Prop where
  memory : c.memory = memory
  history : c.history = []
  calls : c.calls = []
  runs : c.runs = []
  sweepers : c.sweepers = []

/-- A worker has come to the start of its queue. -/
structure Started (s : Config.Settings) (memory : Store.Memory) (c : Cluster) : Prop where
  memory : c.memory = memory
  queue : c.handles = [handleOf s]
  calls : ∃ shutdown, c.calls = [⟨0, .entering (.start shutdown)⟩]
  sweepers : c.sweepers.map (fun w => (w.handle, w.config)) =
    if s.recovery.enabled then [(0, s.recovery.sweeper)] else []
  /-- No sweep ever fails for its age, whatever is done with the cluster. -/
  sweeps : ∀ d, Cluster.Reaches (fun _ _ => True) c d → ∀ w ∈ d.sweepers,
    ∃ h, d.handles[w.handle]? = some h ∧ w.NeverRefused h

namespace Opening

variable {s : Config.Settings} {c : Cluster} {r : Except Queue.Error Unit × Cluster}

theorem ok_iff (h : Opening s c r) : r.1 = .ok () ↔ s.queue.name ≠ "" ∧
    (s.recovery.enabled = false ∨ s.queue.timeoutSeconds < s.recovery.maxAgeSeconds) := by
  cases h with
  | unnamed empty => simp [empty]
  | tooEarly named enabled early => simp [enabled, early]
  | unswept named disabled => simp [named, disabled]
  | swept named enabled late => simp [named, late]

theorem accepted (h : Opening s c r) (accepted : c.Accepted) : r.2.Accepted := by
  have before : (withQueue s c).2.Accepted := by
    intro w hw
    obtain ⟨h, handle, age⟩ := accepted w hw
    exact ⟨h, getElem?_concat_of handle _, age⟩
  cases h with
  | unnamed => exact accepted
  | tooEarly | unswept => exact before
  | swept named enabled late =>
      intro w hw
      rcases List.mem_append.mp hw with hw | hw
      · exact before w hw
      · obtain rfl := List.mem_singleton.mp hw
        exact ⟨handleOf s, handles_withQueue s c, (timeout_lt_iff s).mpr late⟩

theorem started {epoch : Nat} {memory : Store.Memory} (h : Opening s { epoch, memory } r)
    (ok : r.1 = .ok ()) : Started s memory r.2 := by
  have accepted := h.accepted (by rintro w ⟨⟩)
  have sweeps (d : Cluster) (reached : Cluster.Reaches (fun _ _ => True) r.2 d) (w : Sweeper)
      (hw : w ∈ d.sweepers) : ∃ h, d.handles[w.handle]? = some h ∧ w.NeverRefused h :=
    (accepted.of_reaches reached).neverRefused hw
  cases h with
  | unnamed | tooEarly => cases ok
  | unswept named disabled =>
      refine ⟨rfl, rfl, ⟨_, rfl⟩, ?_, sweeps⟩
      rw [disabled]
      rfl
  | swept named enabled late =>
      refine ⟨rfl, rfl, ⟨_, rfl⟩, ?_, sweeps⟩
      rw [enabled]
      rfl

theorem refused {epoch : Nat} {memory : Store.Memory} (h : Opening s { epoch, memory } r)
    (failed : r.1 ≠ .ok ()) : ∃ cause, r.1 = .error cause ∧
      cause = (if s.queue.name = "" then .emptyName
        else .maxAgeTooSmall s.recovery.maxAge (.ofSeconds s.queue.timeoutSeconds)) ∧
      Untouched memory r.2 := by
  cases h with
  | unnamed empty =>
      refine ⟨_, rfl, ?_, ⟨rfl, rfl, rfl, rfl, rfl⟩⟩
      rw [if_pos empty]
  | tooEarly named =>
      refine ⟨_, rfl, ?_, ⟨rfl, rfl, rfl, rfl, rfl⟩⟩
      rw [if_neg named]
  | unswept | swept => exact absurd rfl failed

end Opening

/-- How the start of a worker ends. -/
structure Decided (s : Config.Settings) (n : Redis.Network) (l : Launch) : Prop where
  /-- A store that is not reached is all that is reported. -/
  unreached : ∀ e, Redis.Client.connect n s.redis.url = .error e → ∃ e', l.result = .error e' ∧
    e'.code = "REDIS_ERROR" ∧ e'.isFatal = false ∧ l.cluster = none
  started_iff : ∀ client, Redis.Client.connect n s.redis.url = .ok client →
    (l.result = .ok () ↔ s.queue.name ≠ "" ∧
      (s.recovery.enabled = false ∨ s.queue.timeoutSeconds < s.recovery.maxAgeSeconds))
  started : ∀ client, Redis.Client.connect n s.redis.url = .ok client → l.result = .ok () →
    ∃ c, l.cluster = some c ∧ Started s { contents := client.server.keys.contents } c
  refused : ∀ client, Redis.Client.connect n s.redis.url = .ok client → l.result ≠ .ok () →
    ∃ cause e c, l.result = .error e ∧ e = .config (Queue.Error.message cause) ∧
      e.code = "CONFIG_ERROR" ∧ e.isFatal = true ∧
      cause = (if s.queue.name = "" then .emptyName
        else .maxAgeTooSmall s.recovery.maxAge (.ofSeconds s.queue.timeoutSeconds)) ∧
      l.cluster = some c ∧ Untouched { contents := client.server.keys.contents } c

theorem ofSettings_of_error {s : Config.Settings} {n : Redis.Network} {e : Redis.Error}
    (h : Redis.Client.connect n s.redis.url = .error e) (epoch : Nat) :
    (Launch.ofSettings s n epoch).result = .error (.redis (Store.Error.redis e.message).message) ∧
      (Launch.ofSettings s n epoch).cluster = none := by
  simp only [Launch.ofSettings, Launch.connect, h, start, and_self]

theorem ofSettings_of_ok {s : Config.Settings} {n : Redis.Network} {client : Redis.Client}
    (h : Redis.Client.connect n s.redis.url = .ok client) (epoch : Nat) :
    ∃ r, Opening s { epoch, memory := { contents := client.server.keys.contents } } r ∧
      (Launch.ofSettings s n epoch).result = r.1.mapError (fun e => .config e.message) ∧
      (Launch.ofSettings s n epoch).cluster = some r.2 := by
  refine ⟨_, opening_openQueue s _, ?_⟩
  simp only [Launch.ofSettings, Launch.connect, h, start, and_self]

theorem decided_ofSettings (s : Config.Settings) (n : Redis.Network) (epoch : Nat) :
    Decided s n (Launch.ofSettings s n epoch) := by
  constructor
  case unreached =>
    intro e failed
    obtain ⟨result, cluster⟩ := ofSettings_of_error failed epoch
    exact ⟨_, result, rfl, rfl, cluster⟩
  case started_iff =>
    intro client reached
    obtain ⟨r, opening, result, -⟩ := ofSettings_of_ok reached epoch
    rw [result, mapError_eq_ok]
    exact opening.ok_iff
  case started =>
    intro client reached ok
    obtain ⟨r, opening, result, cluster⟩ := ofSettings_of_ok reached epoch
    rw [result, mapError_eq_ok] at ok
    exact ⟨r.2, cluster, opening.started ok⟩
  case refused =>
    intro client reached failed
    obtain ⟨r, opening, result, cluster⟩ := ofSettings_of_ok reached epoch
    rw [result, Ne, mapError_eq_ok] at failed
    obtain ⟨cause, error, first, untouched⟩ := opening.refused failed
    rw [error] at result
    exact ⟨cause, _, r.2, result, rfl, rfl, rfl, first, cluster, untouched⟩

end Service

end ReliableQueue
