import ReliableQueue.Proofs.Clock
import ReliableQueue.Proofs.Queue.Batches
import ReliableQueue.Proofs.Queue.Moments

/-!
What a worker does with a task that it has received. It calls the executor once, under the
timeout of its queue. The call ends when the executor returns or when the worker abandons it
after the deadline; whatever comes of it, one transaction settles the task, and the worker goes on.
-/

namespace ReliableQueue.Queue

variable {i j : Nat} {a : Act} {c d : Cluster} {name : String} {o : Options} {claim : Claim}
  {call : Execution} {w : Worker} {t : Moment} {ts : List Moment}

/-- How a call ends that does not panic. -/
inductive CallEnd where
  | returned (result : Except String Unit)
  | abandoned

/-- The act that ends the call of worker `j` of run `i`. -/
def CallEnd.act (i j : Nat) : CallEnd → Act
  | .returned (.ok ()) => .executorReturns i j .succeeded
  | .returned (.error e) => .executorReturns i j (.failed e)
  | .abandoned => .step (.worker i j)

namespace Moment

/-- No time passes beyond the end of the sleep of worker `j` of run `i`. -/
def Punctual (i j : Nat) (t : Moment) : Prop :=
  ∀ u w wakeUp, t.act = .elapse u → t.before.worker? i j = some w → w.wakeUp? = some wakeUp →
    u ≤ Clock.tick wakeUp

/-- What is asked of the executor of worker `j` of run `i`, and of the clock: that the executor
does not panic, that the clock has the deadlines of its calls, and that it wakes the worker up. -/
structure Timely (o : Options) (i j : Nat) (t : Moment) : Prop where
  calm : t.act ≠ .executorReturns i j .panicked
  fits : ∀ claim timeout, t.act = .step (.worker i j) →
    t.before.worker? i j = some (.beginning claim) → o.executionTimeout = some timeout →
    (Clock.after? t.before.now timeout).isSome
  punctual : t.Punctual i j

/-- Whether a moment is timely. -/
def isTimely (o : Options) (i j : Nat) (t : Moment) : Bool :=
  (match t.act with
    | .executorReturns k l .panicked => !(k = i && l = j)
    | _ => true) &&
  match t.before.worker? i j, t.act with
  | some (.beginning _), .step p => p ≠ .worker i j || o.executionTimeout.all fun timeout =>
      (Clock.after? t.before.now timeout).isSome
  | some w, .elapse u => w.wakeUp?.all (u ≤ Clock.tick ·)
  | _, _ => true

theorem isTimely_iff : t.isTimely o i j = true ↔ t.Timely o i j := by
  rw [isTimely, Bool.and_eq_true]
  constructor
  · rintro ⟨calm, rest⟩
    refine ⟨fun panics => ?_, fun claim timeout act worker set => ?_,
      fun u w wakeUp act worker set => ?_⟩
    · simp [panics] at calm
    · simpa [worker, act, set] using rest
    · simpa [worker, act, set] using rest
  · rintro ⟨calm, fits, punctual⟩
    constructor
    · split
      · next k l act =>
          rw [act] at calm
          simpa [Decidable.imp_iff_not_or] using calm
      · rfl
    · split
      · next claim p worker act =>
          rw [Bool.or_eq_true, Option.all_eq_true_iff_get]
          refine or_iff_not_imp_left.mpr fun own set => ?_
          have own : p = .worker i j := by simpa using own
          exact fits claim _ (own ▸ act) worker (Option.some_get set).symm
      · next w u worker act =>
          rw [Option.all_eq_true_iff_get]
          exact fun set => decide_eq_true (punctual u w _ act worker (Option.some_get set).symm)
      · rfl

instance : Decidable (t.Timely o i j) := decidable_of_iff _ isTimely_iff

/-- Worker `j` of run `i` calls the executor for a task. -/
structure Begins (o : Options) (i j : Nat) (claim : Claim) (call : Execution) (t : Moment) :
    Prop where
  act : t.act = .step (.worker i j)
  before : t.before.worker? i j = some (.beginning claim)
  after : t.after.worker? i j = some (.executing call)
  event : t.after.events = .called claim :: t.before.events
  claim : call.claim = claim
  started : call.started = t.before.now
  deadline : call.deadline = o.executionTimeout.map (t.before.now + ·.nanos)
  memory : t.after.memory = t.before.memory

/-- The call of worker `j` of run `i` ends, no later than when the sleep until its deadline does.
A return with success is a success even after the deadline, an error from then on a timeout. -/
structure Ends (o : Options) (i j : Nat) (call : Execution) (ending : CallEnd) (outcome : Outcome)
    (t : Moment) : Prop where
  act : t.act = ending.act i j
  before : t.before.worker? i j = some (.executing call)
  after : t.after.worker? i j = some (.settling call.claim)
  succeeded : outcome = .succeeded ↔ ending = .returned (.ok ())
  timedOut : outcome = .timedOut ↔ ending = .abandoned ∨ ∃ e deadline,
    ending = .returned (.error e) ∧ call.deadline = some deadline ∧ deadline ≤ t.before.now
  failed : ∀ e, outcome = .failed e ↔ ending = .returned (.error e) ∧
    ∀ deadline, call.deadline = some deadline → t.before.now < deadline
  due : ending = .abandoned → ∃ deadline, call.deadline = some deadline ∧ deadline ≤ t.before.now
  bounded : ∀ deadline, call.deadline = some deadline → t.before.now ≤ Clock.tick deadline
  event : t.after.events = outcome.event o call t.before.now :: t.before.events
  memory : t.after.memory = t.before.memory

/-- The settlement of a task is committed: its claim goes, and with it its payload if one was
loaded. -/
structure Committed (k : Keys) (claim : Claim) (t : Moment) : Prop where
  answer : (t.before.memory.exec (settleBatch k claim)).1 = .ok ()
  event : t.after.events = .settled claim :: t.before.events
  scores : ∀ x, t.after.memory.contents.score? k.processing x =
    if x = claim.id then none else t.before.memory.contents.score? k.processing x
  payloads : ∀ x, t.after.memory.contents.field? k.payloads x =
    if x = claim.id ∧ claim.payload ≠ [] then none
    else t.before.memory.contents.field? k.payloads x

/-- The store refuses the settlement of a task, and nothing changes. -/
structure Refused (k : Keys) (claim : Claim) (t : Moment) : Prop where
  answer : ∃ e, (t.before.memory.exec (settleBatch k claim)).1 = .error e ∧
    t.after.events = .settleFailed claim e :: t.before.events
  contents : t.after.memory.contents = t.before.memory.contents

/-- Worker `j` of run `i` issues the transaction that settles a task, and goes on. -/
structure Settles (k : Keys) (i j : Nat) (claim : Claim) (t : Moment) : Prop where
  act : t.act = .step (.worker i j)
  before : t.before.worker? i j = some (.settling claim)
  after : t.after.worker? i j = some .idle
  issued : t.after.memory = (t.before.memory.exec (settleBatch k claim)).2
  result : t.Committed k claim ∨ t.Refused k claim
  lists : ∀ key, t.after.memory.contents.list key = t.before.memory.contents.list key

/-- At the head of its loop, worker `j` of run `i` finds that the run is not cancelled. -/
structure Looks (i j : Nat) (t : Moment) : Prop where
  going : ∃ r, t.before.runs[i]? = some r ∧ t.before.tokens.isCancelled r.token = false
  after : t.after.worker? i j = some .receiving
  events : t.after.events = t.before.events

/-- Worker `j` of run `i` finds no task in the channel, but one may still come. -/
structure FindsNone (i j : Nat) (t : Moment) : Prop where
  empty : ∃ r, t.before.runs[i]? = some r ∧ r.channel.buffer = [] ∧ r.fetcher.isLive = true ∧
    r.channel.closed = false
  after : t.after.worker? i j = some .idle
  events : t.after.events = t.before.events

/-- How the wait of worker `j` of run `i` for the next task ends: it stops if it finds the run
cancelled when it looks, and otherwise takes the first task that is there, and stops where none is
and none will come. -/
inductive Resumes (i j : Nat) (t : Moment) : Worker → Prop where
  | cancelled (r : Run) (run : t.before.runs[i]? = some r)
      (cancelled : t.before.tokens.isCancelled r.token = true)
      (after : t.after.worker? i j = some .stopping) (events : t.after.events = t.before.events) :
      Resumes i j t .idle
  | takes (r : Run) (next : Claim) (rest : List Claim) (run : t.before.runs[i]? = some r)
      (buffer : r.channel.buffer = next :: rest)
      (after : t.after.worker? i j = some (.beginning next))
      (event : t.after.events = .received next :: t.before.events) : Resumes i j t .receiving
  | drained (r : Run) (run : t.before.runs[i]? = some r) (buffer : r.channel.buffer = [])
      (shut : r.fetcher.isLive = false ∨ r.channel.closed = true)
      (after : t.after.worker? i j = some .stopping) (events : t.after.events = t.before.events) :
      Resumes i j t .receiving

/-- Worker `j` of run `i` waits for a task in the moments `ts`, and is at `w` then. -/
inductive Waits (i j : Nat) : List Moment → Worker → Prop where
  | head : Waits i j [] .idle
  | looked {t : Moment} {ts : List Moment} (waits : Waits i j ts .idle) (looks : t.Looks i j) :
      Waits i j (t :: ts) .receiving
  | foundNone {t : Moment} {ts : List Moment} (waits : Waits i j ts .receiving)
      (finds : t.FindsNone i j) : Waits i j (t :: ts) .idle

end Moment

namespace Cluster

/-! ### Own steps -/

/-- A handle keeps its name. -/
theorem name_of_perform (hp : c.perform a = some d) {n : Nat} {h : Handle}
    (hh : c.handles[n]? = some h) : ∃ h', d.handles[n]? = some h' ∧ h'.name = h.name := by
  cases handles_of_perform hp with
  | same handles => exact ⟨h, by rw [handles, hh], rfl⟩
  | built _ _ _ handles => exact ⟨h, by rw [handles, getElem?_concat_of hh], rfl⟩
  | set k q q' at_k handles name =>
      rw [handles]
      rcases Decidable.em (k = n) with rfl | apart
      · obtain rfl := Option.some.inj (at_k.symm.trans hh)
        obtain ⟨hk, -⟩ := List.getElem?_eq_some_iff.mp at_k
        exact ⟨q', List.getElem?_set_self hk, name⟩
      · exact ⟨h, by rw [List.getElem?_set_ne apart, hh], rfl⟩

/-- Run `i` is one of a queue of this name, with these options. -/
def Serves (name : String) (o : Options) (i : Nat) (c : Cluster) : Prop :=
  ∃ r h, c.runs[i]? = some r ∧ c.handles[r.handle]? = some h ∧ h.name = name ∧ h.options = o

theorem Serves.perform (serves : c.Serves name o i) (h : c.perform a = some d) :
    d.Serves name o i := by
  obtain ⟨r, hd, run, handle, named, tuned⟩ := serves
  obtain ⟨r', run', on⟩ := goesOn_of_perform h i r run
  obtain ⟨hd', handle', options, -⟩ := handle_of_perform h handle
  refine ⟨r', hd', run', on.handle ▸ handle', ?_, options.trans tuned⟩
  obtain ⟨q, at_q, same⟩ := name_of_perform h handle
  obtain rfl := Option.some.inj (handle'.symm.trans at_q)
  exact same.trans named

/-- Worker `j` of run `i` has moved, and what it shares with it. -/
structure Moves (i j : Nat) (m : Moved Worker) (c d : Cluster) : Prop where
  worker : d.worker? i j = some m.loop
  memory : d.memory = m.shared.memory
  events : m.loop.isLive = true → d.events = m.events.reverse ++ c.events

theorem moves_of_settle {r : Run} {m : Moved Worker} (run : c.runs[i]? = some r)
    (hw : r.workers[j]? = some w) :
    Moves i j m c (c.settle i { r with workers := r.workers.set j m.loop } m.shared m.events) :=
  ⟨worker?_settle run hw, rfl, events_settle_of_live hw⟩

/-- What the loop of worker `j` of run `i` works with. -/
structure Placed (name : String) (o : Options) (i j : Nat) (c : Cluster) (w : Worker) (r : Run)
    (s : Setting) : Prop where
  run : c.runs[i]? = some r
  worker : r.workers[j]? = some w
  keys : s.keys = .ofName name
  options : s.options = o
  token : s.token = r.token
  now : s.now = c.now

/-- A worker that is there can be placed with its run and its handle. -/
theorem Serves.placed (serves : c.Serves name o i) (hw : c.worker? i j = some w) :
    ∃ r h, c.handles[r.handle]? = some h ∧ Placed name o i j c w r (c.setting h r) := by
  obtain ⟨r, h, run, handle, named, tuned⟩ := serves
  rw [worker?_of_run run] at hw
  exact ⟨r, h, handle, run, hw, by rw [← named]; rfl, tuned, rfl, rfl⟩

theorem moves_of_stepWorker (serves : c.Serves name o i) (hw : c.worker? i j = some w)
    (h : c.stepWorker i j = some d) :
    ∃ r s m, Placed name o i j c w r s ∧ w.step s (c.shared r) (!r.fetcher.isLive) = some m ∧
      Moves i j m c d := by
  obtain ⟨r, hd, v, m, run, handle, worker, step, rfl⟩ := stepWorker_cases h
  obtain ⟨r', hd', handle', placed⟩ := serves.placed hw
  obtain rfl := Option.some.inj (run.symm.trans placed.run)
  obtain rfl := Option.some.inj (handle.symm.trans handle')
  obtain rfl := Option.some.inj (worker.symm.trans placed.worker)
  exact ⟨r, _, m, placed, step, moves_of_settle run worker⟩

theorem moves_of_executorReturns {result : CallResult} (serves : c.Serves name o i)
    (hw : c.worker? i j = some w) (h : c.executorReturns i j result = some d) :
    ∃ r s m, Placed name o i j c w r s ∧ w.returns s (c.shared r) result = some m ∧
      Moves i j m c d := by
  obtain ⟨r, hd, v, m, run, handle, worker, step, rfl⟩ := executorReturns_cases h
  obtain ⟨r', hd', handle', placed⟩ := serves.placed hw
  obtain rfl := Option.some.inj (run.symm.trans placed.run)
  obtain rfl := Option.some.inj (handle.symm.trans handle')
  obtain rfl := Option.some.inj (worker.symm.trans placed.worker)
  exact ⟨r, _, m, placed, step, moves_of_settle run worker⟩

/-! ### The call -/

theorem begins_of_step (serves : c.Serves name o i)
    (hw : c.worker? i j = some (.beginning claim))
    (fits : ∀ timeout, o.executionTimeout = some timeout → (Clock.after? c.now timeout).isSome)
    (h : c.stepWorker i j = some d) :
    ∃ call, Moment.Begins o i j claim call ⟨c, .step (.worker i j), d⟩ := by
  obtain ⟨r, s, m, placed, step, moves⟩ := moves_of_stepWorker serves hw h
  simp only [Worker.step, placed.options, placed.now] at step
  split at step
  · next unbounded =>
      cases step
      exact ⟨_, rfl, hw, moves.worker, moves.events rfl, rfl, rfl, by rw [unbounded]; rfl,
        moves.memory⟩
  · next timeout bounded =>
      obtain ⟨deadline, has⟩ := Option.isSome_iff_exists.mp (fits timeout bounded)
      rw [has] at step
      cases step
      refine ⟨_, rfl, hw, moves.worker, moves.events rfl, rfl, rfl, ?_, moves.memory⟩
      rw [bounded, Option.map_some, Clock.eq_of_after? has]

end Cluster

/-- What became of a call that ended so at `now`. -/
def CallEnd.outcome (deadline : Option Instant) (now : Instant) : CallEnd → Outcome
  | .returned result => .ofResult deadline now result
  | .abandoned => .timedOut

namespace CallEnd

variable {deadline : Option Instant} {now : Instant} {ending : CallEnd}

theorem outcome_error (e : String) : (returned (.error e)).outcome deadline now =
    if deadline.any (· ≤ now) then .timedOut else .failed e := rfl

theorem any_le_iff : deadline.any (· ≤ now) = true ↔ ∃ t, deadline = some t ∧ t ≤ now := by
  simp [Option.any_eq_true]

theorem outcome_eq_succeeded_iff :
    ending.outcome deadline now = .succeeded ↔ ending = .returned (.ok ()) := by
  cases ending with
  | abandoned => simp [outcome]
  | returned result =>
      cases result with
      | ok u => simp [outcome, Outcome.ofResult]
      | error e =>
          rw [outcome_error]
          split <;> simp

theorem outcome_eq_timedOut_iff : ending.outcome deadline now = .timedOut ↔
    ending = .abandoned ∨ ∃ e t, ending = .returned (.error e) ∧ deadline = some t ∧ t ≤ now := by
  cases ending with
  | abandoned => simp [outcome]
  | returned result =>
      cases result with
      | ok u => simp [outcome, Outcome.ofResult]
      | error e =>
          rw [outcome_error]
          split
          · next past => simpa using any_le_iff.mp past
          · next early => simpa using fun t set past => early (any_le_iff.mpr ⟨t, set, past⟩)

theorem outcome_eq_failed_iff {e : String} : ending.outcome deadline now = .failed e ↔
    ending = .returned (.error e) ∧ ∀ t, deadline = some t → now < t := by
  cases ending with
  | abandoned => simp [outcome]
  | returned result =>
      cases result with
      | ok u => simp [outcome, Outcome.ofResult]
      | error e' =>
          rw [outcome_error]
          split
          · next past =>
              obtain ⟨t, set, past⟩ := any_le_iff.mp past
              simp only [reduceCtorEq, returned.injEq, Except.error.injEq, false_iff, not_and]
              exact fun _ early => absurd (early t set) (Nat.not_lt.mpr past)
          · next early =>
              have early : ∀ t, deadline = some t → now < t := fun t set =>
                Nat.not_le.mp fun past => early (any_le_iff.mpr ⟨t, set, past⟩)
              simpa using fun _ => early

end CallEnd

namespace Cluster

/-- The end of a call by the executor or by the worker, from what it makes of the worker. -/
theorem ends_of_moves {ending : CallEnd} {s : Setting} {sh : Shared}
    (act : a = ending.act i j) (hw : c.worker? i j = some (.executing call))
    (bounded : ∀ deadline, call.deadline = some deadline → c.now ≤ Clock.tick deadline)
    (due : ending = .abandoned → ∃ deadline, call.deadline = some deadline ∧ deadline ≤ c.now)
    (options : s.options = o) (now : s.now = c.now) (memory : sh.memory = c.memory)
    (moves : Moves i j (Worker.finish s sh call (ending.outcome call.deadline s.now)) c d) :
    ∃ outcome, Moment.Ends o i j call ending outcome ⟨c, a, d⟩ := by
  subst options
  rw [now] at moves
  refine ⟨ending.outcome call.deadline c.now, act, hw, moves.worker,
    CallEnd.outcome_eq_succeeded_iff, CallEnd.outcome_eq_timedOut_iff,
    fun _ => CallEnd.outcome_eq_failed_iff, due, bounded, ?_, moves.memory.trans memory⟩
  exact (moves.events rfl).trans (by rw [← now]; rfl)

theorem ends_of_step (serves : c.Serves name o i) (hw : c.worker? i j = some (.executing call))
    (bounded : ∀ deadline, call.deadline = some deadline → c.now ≤ Clock.tick deadline)
    (h : c.stepWorker i j = some d) :
    ∃ outcome, Moment.Ends o i j call .abandoned outcome ⟨c, .step (.worker i j), d⟩ := by
  obtain ⟨r, s, m, placed, step, moves⟩ := moves_of_stepWorker serves hw h
  simp only [Worker.step] at step
  split at step
  · next past =>
      cases step
      rw [placed.now] at past
      exact ends_of_moves rfl hw bounded (fun _ => CallEnd.any_le_iff.mp past) placed.options
        placed.now rfl moves
  · cases step

theorem ends_of_returns {result : CallResult} (serves : c.Serves name o i)
    (hw : c.worker? i j = some (.executing call))
    (bounded : ∀ deadline, call.deadline = some deadline → c.now ≤ Clock.tick deadline)
    (calm : result ≠ .panicked) (h : c.executorReturns i j result = some d) :
    ∃ ending outcome,
      Moment.Ends o i j call ending outcome ⟨c, .executorReturns i j result, d⟩ := by
  obtain ⟨r, s, m, placed, step, moves⟩ := moves_of_executorReturns serves hw h
  cases result with
  | panicked => exact (calm rfl).elim
  | succeeded =>
      cases step
      exact ⟨.returned (.ok ()), ends_of_moves rfl hw bounded (by rintro ⟨⟩) placed.options
        placed.now rfl moves⟩
  | failed e =>
      cases step
      exact ⟨.returned (.error e), ends_of_moves rfl hw bounded (by rintro ⟨⟩) placed.options
        placed.now rfl moves⟩

/-! ### The settlement -/

theorem settles_of_step (serves : c.Serves name o i)
    (hw : c.worker? i j = some (.settling claim)) (h : c.stepWorker i j = some d) :
    Moment.Settles (.ofName name) i j claim ⟨c, .step (.worker i j), d⟩ := by
  obtain ⟨r, s, m, placed, step, moves⟩ := moves_of_stepWorker serves hw h
  simp only [Worker.step, placed.keys] at step
  have memory : (c.shared r).memory = c.memory := rfl
  rw [memory] at step
  split at step
  · next after ok =>
      cases step
      have contents : d.memory.contents = _ :=
        (congrArg _ moves.memory).trans (Store.Memory.exec_ok ok)
      refine ⟨rfl, hw, moves.worker, by rw [ok]; exact moves.memory,
        .inl ⟨by rw [ok], moves.events rfl, fun x => ?_, fun x => ?_⟩, fun key => ?_⟩
      · rw [contents]
        exact score?_settle _ _ claim x
      · rw [contents]
        exact payload_settle _ _ claim x
      · rw [contents]
        exact list_settle _ _ claim key
  · next e after refused =>
      cases step
      have contents : d.memory.contents = c.memory.contents :=
        (congrArg _ moves.memory).trans (Store.Memory.exec_error refused).2
      exact ⟨rfl, hw, moves.worker, by rw [refused]; exact moves.memory,
        .inr ⟨⟨e, by rw [refused], moves.events rfl⟩, contents⟩, fun key => by rw [contents]⟩

/-! ### The head of the loop -/

theorem resumes_of_step (serves : c.Serves name o i) (waits : Moment.Waits i j ts w)
    (hw : c.worker? i j = some w) (h : c.stepWorker i j = some d) :
    (∃ w', Moment.Waits i j (⟨c, .step (.worker i j), d⟩ :: ts) w' ∧ d.worker? i j = some w') ∨
      Moment.Resumes i j ⟨c, .step (.worker i j), d⟩ w := by
  obtain ⟨r, s, m, placed, step, moves⟩ := moves_of_stepWorker serves hw h
  have before := waits
  cases waits with
  | head | foundNone =>
      simp only [Worker.step, Setting.isCancelled, placed.token] at step
      split at step
      · next cancelled =>
          cases step
          exact .inr (.cancelled r placed.run cancelled moves.worker (moves.events rfl))
      · next going =>
          cases step
          have looks : Moment.Looks i j ⟨c, .step (.worker i j), d⟩ :=
            ⟨⟨r, placed.run, Bool.eq_false_iff.mpr going⟩, moves.worker, moves.events rfl⟩
          exact .inl ⟨.receiving, .looked before looks, moves.worker⟩
  | looked waits looks =>
      simp only [Worker.step] at step
      split at step
      · next next rest buffer =>
          cases step
          exact .inr (.takes r next rest placed.run buffer moves.worker (moves.events rfl))
      · next buffer =>
          split at step
          · next shut =>
              cases step
              refine .inr (.drained r placed.run buffer ?_ moves.worker (moves.events rfl))
              rcases (Bool.or_eq_true _ _).mp shut with gone | closed
              · exact .inl (by simpa using gone)
              · exact .inr closed
          · next opened =>
              cases step
              obtain ⟨live, opened⟩ := Bool.or_eq_false_iff.mp (Bool.eq_false_iff.mpr opened)
              have finds : Moment.FindsNone i j ⟨c, .step (.worker i j), d⟩ :=
                ⟨⟨r, placed.run, buffer, by simpa using live, opened⟩, moves.worker,
                  moves.events rfl⟩
              exact .inl ⟨.idle, .foundNone before finds, moves.worker⟩

/-! ### From the task to its settlement -/

/-- Worker `j` of run `i` has settled its task and has done `later` since: it waits for the next
one, or it has gone on from there. -/
def GoesOn (i j : Nat) (later : List Moment) (d : Cluster) : Prop :=
  (∃ w, Moment.Waits i j later w ∧ d.worker? i j = some w ∧
    (d.perform (.step (.worker i j))).isSome) ∨
  ∃ rest t waited w, later = rest ++ t :: waited ∧ Moment.Waits i j waited w ∧ t.Resumes i j w

/-- What worker `j` of run `i`, which had received a task, has done since, latest first, and what
it or its executor can do next. -/
inductive Processed (name : String) (o : Options) (i j : Nat) (claim : Claim) :
    List Moment → Cluster → Prop where
  | ready {d : Cluster} (worker : d.worker? i j = some (.beginning claim))
      (goes : (d.perform (.step (.worker i j))).isSome) : Processed name o i j claim [] d
  | calling {d : Cluster} {begun : Moment} (call : Execution)
      (begins : begun.Begins o i j claim call)
      (worker : d.worker? i j = some (.executing call))
      (bounded : ∀ deadline, call.deadline = some deadline → d.now ≤ Clock.tick deadline)
      (free : ∀ result, (d.perform (.executorReturns i j result)).isSome)
      (abandons : ∀ deadline, call.deadline = some deadline → deadline ≤ d.now →
        (d.perform (.step (.worker i j))).isSome) : Processed name o i j claim [begun] d
  | called {d : Cluster} {begun ended : Moment} (call : Execution) (ending : CallEnd)
      (outcome : Outcome) (begins : begun.Begins o i j claim call)
      (ends : ended.Ends o i j call ending outcome)
      (worker : d.worker? i j = some (.settling claim))
      (goes : (d.perform (.step (.worker i j))).isSome) :
      Processed name o i j claim [ended, begun] d
  | settled {d : Cluster} {begun ended settled : Moment} (later : List Moment) (call : Execution)
      (ending : CallEnd) (outcome : Outcome) (begins : begun.Begins o i j claim call)
      (ends : ended.Ends o i j call ending outcome)
      (settles : settled.Settles (.ofName name) i j claim) (goesOn : GoesOn i j later d) :
      Processed name o i j claim (later ++ [settled, ended, begun]) d

/-- A worker can take the step that its loop allows. -/
theorem Serves.steps (serves : c.Serves name o i) (hw : c.worker? i j = some w)
    (can : ∀ r s, Placed name o i j c w r s →
      (w.step s (c.shared r) (!r.fetcher.isLive)).isSome) :
    (c.perform (.step (.worker i j))).isSome := by
  obtain ⟨r, h, handle, placed⟩ := serves.placed hw
  obtain ⟨m, step⟩ := Option.isSome_iff_exists.mp (can r _ placed)
  simp [Cluster.perform, Cluster.step, stepWorker, placed.run, handle, placed.worker, step]

theorem Serves.starts (serves : c.Serves name o i)
    (hw : c.worker? i j = some (.beginning claim)) :
    (c.perform (.step (.worker i j))).isSome := by
  refine serves.steps hw fun r s _ => ?_
  simp only [Worker.step]
  split
  · rfl
  · split <;> rfl

theorem Serves.settles (serves : c.Serves name o i)
    (hw : c.worker? i j = some (.settling claim)) :
    (c.perform (.step (.worker i j))).isSome := by
  refine serves.steps hw fun r s _ => ?_
  simp only [Worker.step]
  split <;> rfl

theorem Serves.abandons (serves : c.Serves name o i) (hw : c.worker? i j = some (.executing call))
    {deadline : Instant} (set : call.deadline = some deadline) (past : deadline ≤ c.now) :
    (c.perform (.step (.worker i j))).isSome := by
  refine serves.steps hw fun r s placed => ?_
  simp [Worker.step, set, placed.now, past]

theorem Serves.returns (serves : c.Serves name o i) (hw : c.worker? i j = some (.executing call))
    (result : CallResult) : (c.perform (.executorReturns i j result)).isSome := by
  obtain ⟨r, h, handle, placed⟩ := serves.placed hw
  cases result <;>
    simp [Cluster.perform, executorReturns, placed.run, handle, placed.worker, Worker.returns]

/-- A worker that waits for a task can look again or turn to the channel. -/
theorem Serves.resumes (serves : c.Serves name o i) (hw : c.worker? i j = some w)
    (waits : Moment.Waits i j ts w) : (c.perform (.step (.worker i j))).isSome := by
  refine serves.steps hw fun r s placed => ?_
  cases waits with
  | head | foundNone =>
      simp only [Worker.step]
      split <;> rfl
  | looked =>
      simp only [Worker.step]
      split
      · rfl
      · split <;> rfl

/-- What the worker has done stays so in a moment that is not its own. -/
theorem Processed.other (done : Processed name o i j claim ts c) (serves : c.Serves name o i)
    (h : c.perform a = some d) (other : a.isOf i j = false)
    (timely : Moment.Timely o i j ⟨c, a, d⟩) : Processed name o i j claim ts d := by
  have serves' := serves.perform h
  cases done with
  | ready worker _ =>
      have worker := worker_kept h other worker
      exact .ready worker (serves'.starts worker)
  | calling call begins worker bounded _ _ =>
      have bounded' : ∀ deadline, call.deadline = some deadline → d.now ≤ Clock.tick deadline := by
        intro deadline set
        rcases now_of_perform h with same | ⟨u, rfl, later⟩
        · rw [same]
          exact bounded deadline set
        · rw [later]
          exact Nat.max_le.mpr ⟨bounded deadline set,
            timely.punctual u (.executing call) deadline rfl worker set⟩
      have worker := worker_kept h other worker
      exact .calling call begins worker bounded' (serves'.returns worker)
        fun _ set past => serves'.abandons worker set past
  | called call ending outcome begins ends worker _ =>
      have worker := worker_kept h other worker
      exact .called call ending outcome begins ends worker (serves'.settles worker)
  | settled later call ending outcome begins ends settles goesOn =>
      refine .settled later call ending outcome begins ends settles ?_
      rcases goesOn with ⟨w, waits, worker, -⟩ | resumed
      · have worker := worker_kept h other worker
        exact .inl ⟨w, waits, worker, serves'.resumes worker waits⟩
      · exact .inr resumed

/-- A step of the worker takes it on. -/
theorem Processed.step (done : Processed name o i j claim ts c) (serves : c.Serves name o i)
    (h : c.stepWorker i j = some d)
    (timely : Moment.Timely o i j ⟨c, .step (.worker i j), d⟩) :
    Processed name o i j claim (⟨c, .step (.worker i j), d⟩ :: ts) d := by
  have hp : c.perform (.step (.worker i j)) = some d := h
  have serves' := serves.perform hp
  cases done with
  | ready worker _ =>
      obtain ⟨call, begins⟩ := begins_of_step serves worker
        (fun timeout => timely.fits claim timeout rfl worker) h
      have bounded : ∀ deadline, call.deadline = some deadline → d.now ≤ Clock.tick deadline := by
        intro deadline set
        rw [begins.deadline] at set
        obtain ⟨timeout, -, rfl⟩ := Option.map_eq_some_iff.mp set
        have same : d.now = c.now := by
          rcases now_of_perform hp with same | ⟨u, act, -⟩
          · exact same
          · cases act
        rw [same]
        exact Nat.le_trans (Nat.le_add_right _ _) (Clock.le_tick _)
      exact .calling call begins begins.after bounded (serves'.returns begins.after)
        fun _ set past => serves'.abandons begins.after set past
  | calling call begins worker bounded _ _ =>
      obtain ⟨outcome, ends⟩ := ends_of_step serves worker bounded h
      have worker := begins.claim ▸ ends.after
      exact .called call _ outcome begins ends worker (serves'.settles worker)
  | called call ending outcome begins ends worker _ =>
      have settles := settles_of_step serves worker h
      exact .settled [] call ending outcome begins ends settles
        (.inl ⟨.idle, .head, settles.after, serves'.resumes settles.after .head⟩)
  | settled later call ending outcome begins ends settles goesOn =>
      refine .settled (_ :: later) call ending outcome begins ends settles ?_
      rcases goesOn with ⟨w, waits, worker, -⟩ | ⟨rest, t, waited, w, rfl, waits, resumes⟩
      · rcases resumes_of_step serves waits worker h with ⟨w', waits', worker'⟩ | resumes
        · exact .inl ⟨w', waits', worker', serves'.resumes worker' waits'⟩
        · exact .inr ⟨[], _, later, w, rfl, waits, resumes⟩
      · exact .inr ⟨_ :: rest, t, waited, w, rfl, waits, resumes⟩

/-- Only a call under way can end. -/
theorem executing_of_returns {result : CallResult} (hw : c.worker? i j = some w)
    (h : c.executorReturns i j result = some d) : ∃ call, w = .executing call := by
  obtain ⟨r, hd, v, m, run, -, worker, returns, -⟩ := executorReturns_cases h
  rw [worker?_of_run run, worker] at hw
  obtain rfl := Option.some.inj hw
  cases v with
  | executing call => exact ⟨call, rfl⟩
  | _ => cases returns

/-- A return of the executor takes the worker on. -/
theorem Processed.returned {result : CallResult} (done : Processed name o i j claim ts c)
    (serves : c.Serves name o i) (h : c.executorReturns i j result = some d)
    (timely : Moment.Timely o i j ⟨c, .executorReturns i j result, d⟩) :
    Processed name o i j claim (⟨c, .executorReturns i j result, d⟩ :: ts) d := by
  have serves' := serves.perform (a := .executorReturns i j result) h
  cases done with
  | ready worker _ | called _ _ _ _ _ worker _ =>
      obtain ⟨call, under⟩ := executing_of_returns worker h
      cases under
  | calling call begins worker bounded _ _ =>
      obtain ⟨ending, outcome, ends⟩ := ends_of_returns serves worker bounded
        (fun panics => timely.calm (by rw [panics])) h
      have worker := begins.claim ▸ ends.after
      exact .called call _ outcome begins ends worker (serves'.settles worker)
  | settled later call ending outcome begins ends settles goesOn =>
      refine .settled (_ :: later) call ending outcome begins ends settles ?_
      rcases goesOn with ⟨w, waits, worker, -⟩ | ⟨rest, t, waited, w, rfl, waits, resumes⟩
      · obtain ⟨call, rfl⟩ := executing_of_returns worker h
        cases waits
      · exact .inr ⟨_ :: rest, t, waited, w, rfl, waits, resumes⟩

/-- A worker that has received a task calls the executor once, and once the call has ended, in time
and in whatever way, it issues one transaction that settles the task, and goes on. -/
theorem processed_once (serves : c.Serves name o i)
    (received : c.worker? i j = some (.beginning claim)) (h : Moments c ts d)
    (timely : ∀ t ∈ ts, t.Timely o i j) :
    Processed name o i j claim (ts.filter (·.act.isOf i j)) d := by
  have all : d.Serves name o i ∧ Processed name o i j claim (ts.filter (·.act.isOf i j)) d := by
    induction h with
    | refl => exact ⟨serves, .ready received (serves.starts received)⟩
    | @perform ts d e a h hp ih =>
        obtain ⟨serves, done⟩ := ih fun t ht => timely t (List.mem_cons_of_mem _ ht)
        have now := timely _ List.mem_cons_self
        refine ⟨serves.perform hp, ?_⟩
        cases own : a.isOf i j with
        | false =>
            rw [List.filter_cons_of_neg (by simp [own])]
            exact done.other serves hp own now
        | true =>
            rw [List.filter_cons_of_pos (by simp [own])]
            rcases Act.isOf_cases own with rfl | ⟨result, rfl⟩
            · exact done.step serves hp now
            · exact done.returned serves hp now
  exact all.2

/-- A task with a payload is pushed, and a worker receives it. -/
def oneReception : List Act := List.flatten [
  [.build "q" {}, .newToken, .invoke 0 (.push [{ id := "x", payload := [1] }]), .step (.call 0),
    .invoke 0 (.start ⟨[0]⟩), .step (.call 1)],
  List.replicate 8 (.step (.fetcher 0)),
  List.replicate 3 (.step (.worker 0 0))]

def oneReceived : Cluster := ((empty 0).run oneReception).get (by decide +kernel)

/-- The executor does not return, the worker abandons its call and settles the task. -/
def oneAbandonment : List Act :=
  [.step (.worker 0 0), .elapse (Span.ofSeconds 30).nanos, .step (.worker 0 0),
    .step (.worker 0 0)]

def oneAbandoned : Cluster := (oneReceived.run oneAbandonment).get (by decide +kernel)

theorem processed_once_abandoned :
    Processed "q" {} 0 0 ⟨"x", [1]⟩
      ((momentsOf oneReceived [] oneAbandonment).filter (·.act.isOf 0 0)) oneAbandoned ∧
    oneAbandoned.events.take 3 =
      [.settled ⟨"x", [1]⟩, .timedOut "x" (.ofSeconds 30), .called ⟨"x", [1]⟩] := by
  have moments := Moments.of_run .refl
    (show oneReceived.run oneAbandonment = some oneAbandoned from (Option.some_get _).symm)
  have serves : oneReceived.Serves "q" {} 0 :=
    ⟨_, _, (Option.some_get (by decide +kernel)).symm, (Option.some_get (by decide +kernel)).symm,
      by decide +kernel, by decide +kernel⟩
  exact ⟨processed_once serves (by decide +kernel) moments (by decide +kernel), by decide +kernel⟩

end Cluster

end ReliableQueue.Queue
