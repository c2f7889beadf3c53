import ReliableQueue.Proofs.Queue.Batches
import ReliableQueue.Proofs.Queue.Moments
import ReliableQueue.Proofs.Redis.Keyspace

/-!
Pushes to a queue that is not running. Each push is done as a whole or not at all: the pending list
grows by the identifiers of those that were done, in their order, and of the payloads that they
brought for an identifier the last one is stored.
-/

namespace ReliableQueue.Queue

open Store (Contents Memory)

variable {name x : String} {a : Act} {c d : Cluster} {k : Keys} {tasks : List Task}

/-! ### One push -/

/-- What a push makes of a store, and how it is answered. -/
inductive Push (k : Keys) (tasks : List Task) (m m' : Memory) : Except Error Reply → Prop where
  | empty (none : tasks = []) (same : m' = m) : Push k tasks m m' (.ok .done)
  | refused (some : tasks ≠ []) (armed : 0 < m.faults .exec)
      (memory : m' = m.failNext .exec (m.faults .exec - 1)) :
      Push k tasks m m' (.error (.store (.injected "exec")))
  | written (some : tasks ≠ []) (free : m.faults .exec = 0) (faults : m'.faults = m.faults)
      (contents : m'.contents = m.contents.applyAll (pushBatch k tasks).commands) :
      Push k tasks m m' (.ok .done)

theorem isEmpty_pushBatch (some : tasks ≠ []) : (pushBatch k tasks).isEmpty = false := by
  simp [Store.Batch.isEmpty, pushBatch_commands k tasks some]

/-- A push never waits. -/
theorem Cluster.enter_push (c : Cluster) (n i : Nat) (h : Handle) (tasks : List Task) :
    ∃ d r, c.enter n i h (.push tasks) = some d ∧
      Push h.keys tasks c.memory d.memory r ∧
      d.calls = c.calls.modify n ({ · with stage := .finished c.now r }) := by
  cases tasks with
  | nil => exact ⟨_, _, rfl, .empty rfl rfl, rfl⟩
  | cons t rest =>
      have some : t :: rest ≠ [] := List.cons_ne_nil t rest
      cases left : c.memory.faults .exec with
      | zero =>
          obtain ⟨m', ran, faults, contents⟩ :=
            Memory.exec_of_none left (pushBatch h.keys (t :: rest))
          simp only [enter, ran]
          exact ⟨_, _, rfl, .written some left faults contents, rfl⟩
      | succ e =>
          simp only [enter, Memory.exec_of_some left (isEmpty_pushBatch some)]
          refine ⟨_, _, rfl, .refused some (by omega) ?_, rfl⟩
          rw [left]
          rfl

/-- A push writes to two keys, the pending list and the payloads. -/
theorem value_pushBatch (some : tasks ≠ []) (c : Contents) {key : String} {kind : Kind}
    (list : (key, kind) ≠ (k.pending, .list)) (hash : (key, kind) ≠ (k.payloads, .hash)) :
    (c.applyAll (pushBatch k tasks).commands).value kind key = c.value kind key := by
  refine Contents.value_applyAll _ (fun command hc => ?_) c
  rw [pushBatch_commands k tasks some] at hc
  rcases List.mem_append.mp hc with payload | append
  · obtain ⟨t, -, rfl⟩ := List.mem_map.mp payload
    exact hash
  · obtain rfl := List.mem_singleton.mp append
    exact list

/-! ### Payloads -/

/-- The last payload that tasks bring for `x`; empty ones do not count. -/
def lastGiven (x : String) (tasks : List Task) : Option Text.Bytes :=
  (tasks.filter fun t => t.id = x && t.hasPayload).getLast?.map Task.payload

theorem lastGiven_append (before tasks : List Task) :
    lastGiven x (before ++ tasks) = (lastGiven x tasks).or (lastGiven x before) := by
  rw [lastGiven, List.filter_append, List.getLast?_append, Option.map_or, lastGiven, lastGiven]

theorem lastPayload_eq (before : Option Text.Bytes) (tasks : List Task) :
    lastPayload x before tasks = (lastGiven x tasks).or before := by
  induction tasks generalizing before with
  | nil => rfl
  | cons t rest ih =>
      have first : lastPayload x before (t :: rest) =
          lastPayload x ((lastGiven x [t]).or before) rest := by
        rw [lastPayload, lastPayload, List.filter_cons, lastGiven, List.filter_cons]
        by_cases given : t.hasPayload
        · by_cases same : t.id = x <;> simp [given, same]
        · simp [given]
      have split : lastGiven x (t :: rest) = (lastGiven x rest).or (lastGiven x [t]) :=
        lastGiven_append [t] rest
      rw [first, ih, split, Option.or_assoc]

/-! ### Pushes one after the other -/

/-- A push that has come to its end in a moment, with the answer to it. -/
def Moment.push? (t : Moment) : Option (List Task × Except Error Reply) :=
  match t.act with
  | .step (.call n) =>
      match t.before.calls[n]?, t.after.calls[n]? with
      | some ⟨_, .entering (.push tasks)⟩, some ⟨_, .finished _ result⟩ => some (tasks, result)
      | _, _ => none
  | _ => none

/-- What a push brings by the answer to it: all of its tasks or none. -/
def brought (tasks : List Task) : Except Error Reply → List Task
  | .ok _ => tasks
  | .error _ => []

def Moment.accepted (t : Moment) : List Task :=
  match t.push? with
  | some (tasks, result) => brought tasks result
  | none => []

/-- The tasks of the pushes that succeeded, in their order. -/
def accepted (ts : List Moment) : List Task := ts.reverse.flatMap Moment.accepted

theorem accepted_cons (t : Moment) (ts : List Moment) :
    accepted (t :: ts) = accepted ts ++ t.accepted := by
  simp [accepted]

/-- Whether a call is about to push or to count. -/
def Stage.pushesOrCounts : Stage → Bool
  | .entering (.push _) | .entering .queueLength | .entering .processingCount => true
  | _ => false

/-- Whether an act leaves the queue `name` at rest: of all processes only pushes to it and counts of
its tasks take steps, and whatever the callers ask for besides does not begin. -/
def Cluster.resting (name : String) (c : Cluster) : Act → Bool
  | .step (.call n) =>
      (c.calls[n]?).any fun call =>
        call.stage.pushesOrCounts && (c.handles[call.handle]?).any (·.name = name)
  | .step (.disposal _) => true
  | .step _ | .executorReturns .. => false
  | _ => true

/-- What a moment does in which the queue with keys `k` is at rest. -/
inductive Moment.AtRest (k : Keys) (t : Moment) : Prop where
  | still (none : t.push? = none) (contents : t.after.memory.contents = t.before.memory.contents)
  | push (tasks : List Task) (result : Except Error Reply) (some : t.push? = some (tasks, result))
      (push : Push k tasks t.before.memory t.after.memory result)

namespace Cluster

theorem resting_call {n : Nat} (rest : c.resting name (.step (.call n)) = true) :
    ∃ call h, c.calls[n]? = some call ∧ c.handles[call.handle]? = some h ∧
      call.stage.pushesOrCounts = true ∧ h.name = name := by
  obtain ⟨call, hc, both⟩ := (Option.any_eq_true _ _).mp rest
  obtain ⟨asks, on⟩ := Bool.and_eq_true_iff.mp both
  obtain ⟨h, hh, named⟩ := (Option.any_eq_true _ _).mp on
  exact ⟨call, h, hc, hh, asks, of_decide_eq_true named⟩

theorem stepCall_of_entering {n : Nat} {call : Call} {h : Handle} {request : Request}
    (at_call : c.calls[n]? = some call) (handle : c.handles[call.handle]? = some h)
    (stage : call.stage = .entering request) :
    c.stepCall n = c.enter n call.handle h request := by
  simp [stepCall, at_call, handle, stage]

/-- The step of a push is a push, and it is always ready. -/
theorem push_of_step {n i : Nat} {h : Handle}
    (at_call : c.calls[n]? = some ⟨i, .entering (.push tasks)⟩) (handle : c.handles[i]? = some h) :
    ∃ d result, c.perform (.step (.call n)) = some d ∧
      Moment.push? ⟨c, .step (.call n), d⟩ = some (tasks, result) ∧
      Push h.keys tasks c.memory d.memory result := by
  obtain ⟨d, result, entered, push, calls⟩ := c.enter_push n i h tasks
  refine ⟨d, result, (stepCall_of_entering at_call handle rfl).trans entered, ?_, push⟩
  have done : d.calls[n]? = some ⟨i, .finished c.now result⟩ := by
    rw [calls, List.getElem?_modify_eq, at_call]
    rfl
  simp only [Moment.push?, at_call, done]

/-- So is the step of a count of the tasks that wait. -/
theorem queueLength_of_step {n i : Nat} {h : Handle}
    (at_call : c.calls[n]? = some ⟨i, .entering .queueLength⟩) (handle : c.handles[i]? = some h) :
    ∃ d, c.perform (.step (.call n)) = some d ∧ d.memory = c.memory ∧
      d.calls[n]? = some ⟨i, .finished c.now
        (.ok (.count (c.memory.contents.list h.keys.pending).length))⟩ := by
  refine ⟨_, stepCall_of_entering at_call handle rfl, rfl, ?_⟩
  rw [setCall, List.getElem?_modify_eq, at_call]
  rfl

theorem atRest_of_stepCall {n : Nat} (h : c.perform (.step (.call n)) = some d)
    (rest : c.resting name (.step (.call n)) = true) :
    Moment.AtRest (Keys.ofName name) ⟨c, .step (.call n), d⟩ := by
  obtain ⟨⟨i, stage⟩, hd, hc, hh, asks, rfl⟩ := resting_call rest
  cases stage with
  | entering request =>
      have entered := (stepCall_of_entering hc hh rfl).symm.trans h
      cases request with
      | push tasks =>
          obtain ⟨e, result, he, some, push⟩ := push_of_step hc hh
          obtain rfl := Option.some.inj (he.symm.trans h)
          exact .push tasks result some push
      | queueLength | processingCount =>
          cases entered
          exact .still (by simp [Moment.push?, hc]) rfl
      | start | stop | recover => cases asks
  | joining | draining | releasing | recovering | finished | dropped => cases asks

theorem atRest_of_perform (h : c.perform a = some d) (rest : c.resting name a = true) :
    Moment.AtRest (Keys.ofName name) ⟨c, a, d⟩ := by
  cases a with
  | step p =>
      cases p with
      | call n => exact atRest_of_stepCall h rest
      | disposal n =>
          refine .still rfl ?_
          obtain ⟨hd, -, -, ⟨-, rfl⟩ | ⟨m, r, -, -, rfl⟩⟩ := stepDisposal_cases h
          · rfl
          · exact congrArg Memory.contents (memory_letGo _ m)
      | fetcher | worker | sweeper => cases rest
  | executorReturns => cases rest
  | abandon n =>
      cases h
      refine .still rfl ?_
      rcases c.abandon_cases n with eq | ⟨call, -, ⟨-, eq⟩ | ⟨m, -, eq⟩⟩
      · rw [eq]
      · rw [eq]
        rfl
      · rw [eq]
        exact congrArg Memory.contents (memory_letGo _ m)
  | build name options =>
      obtain rfl := build_of_perform h
      exact .still rfl rfl
  | invoke n request =>
      obtain ⟨-, rfl⟩ := invoke_of_perform h
      exact .still rfl rfl
  | sweep n t config =>
      rcases sweep_of_perform h with rfl | rfl
      all_goals exact .still rfl rfl
  | drop n | newToken | cancel t | failNext point count | elapse t =>
      cases h
      exact .still rfl rfl

end Cluster

/-- What pushes make of what the queue with keys `k` has in the store. -/
structure Appended (k : Keys) (tasks : List Task) (old new : Contents) : Prop where
  pending : new.list k.pending = old.list k.pending ++ tasks.map Task.id
  payloads : ∀ x, new.field? k.payloads x = (lastGiven x tasks).or (old.field? k.payloads x)
  others : ∀ key kind, (key, kind) ≠ (k.pending, .list) → (key, kind) ≠ (k.payloads, .hash) →
    new.value kind key = old.value kind key

theorem Appended.refl (k : Keys) (c : Contents) : Appended k [] c c :=
  ⟨(List.append_nil _).symm, fun _ => rfl, fun _ _ _ _ => rfl⟩

theorem Appended.trans {l l' : List Task} {b m e : Contents} (h : Appended k l b m)
    (h' : Appended k l' m e) : Appended k (l ++ l') b e := by
  constructor
  · rw [h'.pending, h.pending, List.map_append, List.append_assoc]
  · intro x
    rw [h'.payloads, h.payloads, lastGiven_append, Option.or_assoc]
  · intro key kind list hash
    rw [h'.others key kind list hash, h.others key kind list hash]

theorem appended_pushBatch (some : tasks ≠ []) (c : Contents) :
    Appended k tasks c (c.applyAll (pushBatch k tasks).commands) :=
  ⟨pending_push c k tasks some, fun x => (payload_push c k tasks some x).trans (lastPayload_eq _ _),
    fun _ _ list hash => value_pushBatch some c list hash⟩

/-- The tasks of a push that succeeds are appended, and those of one that fails are not. -/
theorem Push.appended {m m' : Memory} {result : Except Error Reply}
    (push : Push k tasks m m' result) :
    Appended k (brought tasks result) m.contents m'.contents := by
  cases push with
  | empty none same =>
      rw [same, none]
      exact .refl k _
  | refused some armed memory =>
      rw [memory]
      exact .refl k _
  | written some free faults contents =>
      rw [contents]
      exact appended_pushBatch some _

theorem Moment.AtRest.appended {t : Moment} (h : t.AtRest k) :
    Appended k t.accepted t.before.memory.contents t.after.memory.contents := by
  cases h with
  | still none contents =>
      rw [accepted, none, contents]
      exact .refl k _
  | push tasks result some push =>
      rw [accepted, some]
      exact push.appended

/-- Pushes to a queue at rest, from a cluster `c` on: those that succeeded are appended to what was
there, each has been done as a whole or not at all, and those still to be done are ready. -/
structure Pushed (name : String) (c : Cluster) (ts : List Moment) (d : Cluster) : Prop where
  appended : Appended (.ofName name) (accepted ts) c.memory.contents d.memory.contents
  each : ∀ t ∈ ts, ∀ tasks result, t.push? = some (tasks, result) →
    Push (.ofName name) tasks t.before.memory t.after.memory result
  next : ∀ n i h tasks, d.calls[n]? = some ⟨i, .entering (.push tasks)⟩ → d.handles[i]? = some h →
    h.name = name → ∃ e result, d.perform (.step (.call n)) = some e ∧
      Moment.push? ⟨d, .step (.call n), e⟩ = some (tasks, result)
  length : ∀ n i h, d.calls[n]? = some ⟨i, .entering .queueLength⟩ → d.handles[i]? = some h →
    h.name = name → ∃ e, d.perform (.step (.call n)) = some e ∧ e.memory = d.memory ∧
      e.calls[n]? = some ⟨i, .finished d.now
        (.ok (.count ((c.memory.contents.list name).length + (accepted ts).length)))⟩

namespace Cluster

theorem appended_of_moments {ts : List Moment} (h : Moments c ts d)
    (rest : ∀ t ∈ ts, t.before.resting name t.act = true) :
    Appended (.ofName name) (accepted ts) c.memory.contents d.memory.contents ∧
      ∀ t ∈ ts, t.AtRest (Keys.ofName name) := by
  induction h with
  | refl => exact ⟨.refl _ _, by rintro t ⟨⟩⟩
  | perform before performed ih =>
      obtain ⟨first, others⟩ := List.forall_mem_cons.mp rest
      obtain ⟨old, each⟩ := ih others
      have last := atRest_of_perform performed first
      rw [accepted_cons]
      exact ⟨old.trans last.appended, List.forall_mem_cons.mpr ⟨last, each⟩⟩

/-- Whatever callers push to a queue at rest, one after the other or at the same time and with
whatever failures of the store, the pending list grows by the identifiers of the pushes that
succeed, and of the payloads that these bring for an identifier the last one is stored. -/
theorem pushed_of_moments {ts : List Moment} (h : Moments c ts d)
    (rest : ∀ t ∈ ts, t.before.resting name t.act = true) : Pushed name c ts d := by
  obtain ⟨appended, each⟩ := appended_of_moments h rest
  refine ⟨appended, fun t ht tasks result given => ?_, ?_, ?_⟩
  · cases each t ht with
    | still none => rw [none] at given; cases given
    | push _ _ some push =>
        obtain ⟨rfl, rfl⟩ := Prod.mk.inj (Option.some.inj (some.symm.trans given))
        exact push
  · rintro n i hd tasks at_call handle rfl
    obtain ⟨e, result, performed, given, -⟩ := push_of_step at_call handle
    exact ⟨e, result, performed, given⟩
  · rintro n i hd at_call handle rfl
    obtain ⟨e, performed, memory, answer⟩ := queueLength_of_step at_call handle
    refine ⟨e, performed, memory, ?_⟩
    have grown : (d.memory.contents.list hd.keys.pending).length =
        (c.memory.contents.list hd.name).length + (accepted ts).length := by
      rw [Handle.keys, appended.pending, List.length_append, List.length_map]
      rfl
    rw [answer, grown]

/-- Of four pushes the second fails and the third is empty; then the tasks are to be counted. -/
def pushing : List Act :=
  [.build "q" {}, .invoke 0 (.push [⟨"x", [1]⟩, ⟨"y", []⟩, ⟨"x", [2]⟩]), .step (.call 0),
    .failNext .exec 1, .invoke 0 (.push [⟨"z", [3]⟩]), .invoke 0 (.push []), .step (.call 2),
    .step (.call 1), .invoke 0 (.push [⟨"y", [4]⟩, ⟨"x", []⟩]), .step (.call 3),
    .invoke 0 .queueLength]

def pushed : Cluster := ((empty 0).run pushing).get (by decide +kernel)

theorem pushed_fourAsked :
    Pushed "q" (empty 0) (momentsOf (empty 0) [] pushing) pushed ∧
      pushed.memory.contents.list "q" = ["x", "y", "x", "y", "x"] ∧
      ["x", "y", "z"].map (pushed.memory.contents.field? "q:payloads") =
        [some [2], some [4], none] := by
  have moments := Moments.of_run .refl
    (show (empty 0).run pushing = some pushed from (Option.some_get _).symm)
  exact ⟨pushed_of_moments moments (by decide +kernel), by decide +kernel⟩

end Cluster

end ReliableQueue.Queue
