import ReliableQueue.Proofs.Queue.Effects

/-!
What goes on beside one fetcher, where nobody else takes tasks or gives them back. Only pushes
and settlements change the store then, and they change it in the same way whether or not the
fetcher has a task in hand.
-/

namespace ReliableQueue.Queue

open Store (Contents)

variable {k : Keys} {name x : String} {a : Act} {e : Event} {es : List Event}
  {first r m m' : Contents} {l : List String}

/-! ### Pushes and settlements -/

/-- What a push or a settlement makes of the contents of a store; no other event counts. -/
def Event.replay (k : Keys) (c : Contents) : Event → Contents
  | pushed tasks => c.applyAll (pushBatch k tasks).commands
  | settled claim => c.applyAll (settleBatch k claim).commands
  | _ => c

/-- What the pushes and settlements among the events, latest first, make of the contents. -/
def replay (k : Keys) (c : Contents) (es : List Event) : Contents :=
  es.foldr (fun e c => e.replay k c) c

@[simp] theorem replay_nil : replay k first [] = first := rfl

@[simp] theorem replay_cons : replay k first (e :: es) = e.replay k (replay k first es) := rfl

theorem replay_append (es' : List Event) :
    replay k first (es' ++ es) = replay k (replay k first es) es' := List.foldr_append

/-- Whether an event is none of those by which a fetcher, a release or a recovery changes the
store or passes a task on. -/
def Event.isOutside : Event → Bool
  | popped _ | requeued _ | requeueFailed .. | loaded _ | claimed _ | sent _ | released _
  | releaseFailed .. | recovered _ => false
  | _ => true

def Outside (es : List Event) : Prop := ∀ e ∈ es, e.isOutside = true

theorem outside_of_quiet (h : Quiet es) : Outside es := by
  intro e he
  have quiet := h e he
  cases e <;> first | rfl | cases quiet

theorem outside_of_discards (h : ∀ e ∈ es, ∃ id, e = .discarded id) : Outside es := by
  intro e he
  obtain ⟨id, rfl⟩ := h e he
  rfl

theorem outside_reap (run : Run) : Outside run.reap.2.reverse :=
  outside_of_discards fun _ he => Run.mem_reap (List.mem_reverse.mp he)

theorem Outside.append {es' : List Event} (h : Outside es) (h' : Outside es') :
    Outside (es ++ es') :=
  List.forall_mem_append.mpr ⟨h, h'⟩

theorem applyAll_hset_setList (tasks : List Task) (key : String) :
    (r.setList key l).applyAll (tasks.map fun t => .hset k.payloads t.id t.payload) =
      (r.applyAll (tasks.map fun t => .hset k.payloads t.id t.payload)).setList key l := by
  induction tasks generalizing r with
  | nil => rfl
  | cons t rest ih => exact ih (r := r.apply (.hset k.payloads t.id t.payload))

/-- It makes no difference whether a task is put back before or after a push. -/
theorem push_lpush (tasks : List Task) (some : tasks ≠ []) :
    (r.apply (.lpush k.pending x)).applyAll (pushBatch k tasks).commands =
      (r.applyAll (pushBatch k tasks).commands).apply (.lpush k.pending x) := by
  simp only [pushBatch_commands k tasks some, Contents.applyAll_append, applyAll_hset_setList,
    Contents.applyAll_cons, Contents.applyAll_nil, Contents.apply, Contents.setList_setList,
    Contents.list_setList_self, list_applyAll_hset, List.cons_append]

theorem settle_lpush (claim : Claim) :
    (r.apply (.lpush k.pending x)).applyAll (settleBatch k claim).commands =
      (r.applyAll (settleBatch k claim).commands).apply (.lpush k.pending x) := by
  rw [settleBatch_commands]
  split <;> rfl

/-- Nothing but pushes and settlements changes the store from outside. -/
theorem Leads.eq_replay (h : Leads k m es m') (outside : Outside es) : m' = replay k m es := by
  induction h with
  | nil => rfl
  | @cons e es before after _ effect ih =>
      obtain ⟨out, rest⟩ := List.forall_mem_cons.mp outside
      rw [replay_cons, ← ih rest]
      cases e with
      | pushed tasks => exact effect.2
      | _ => first | exact effect | cases out

/-- The identifiers that were pushed, in order. -/
def pushedIn (es : List Event) : List String := es.reverse.flatMap Event.pushedIds

@[simp] theorem pushedIn_cons : pushedIn (e :: es) = pushedIn es ++ e.pushedIds := by
  simp [pushedIn]

theorem Leads.pending_replay (h : Leads k m es m') :
    (replay k r es).list k.pending = r.list k.pending ++ pushedIn es := by
  induction h with
  | nil => exact (List.append_nil _).symm
  | @cons e es before after _ effect ih =>
      rw [pushedIn_cons, ← List.append_assoc, ← ih, replay_cons]
      cases e with
      | pushed tasks => exact pending_push _ _ _ effect.1
      | settled claim => simp [Event.replay, list_settle]
      | _ => exact (List.append_nil _).symm

theorem Leads.replay_lpush (h : Leads k m es m') :
    replay k (r.apply (.lpush k.pending x)) es =
      (replay k r es).apply (.lpush k.pending x) := by
  induction h with
  | nil => rfl
  | @cons e es before after _ effect ih =>
      rw [replay_cons, ih, replay_cons]
      cases e with
      | pushed tasks => exact push_lpush _ effect.1
      | settled claim => exact settle_lpush _
      | _ => rfl

namespace Cluster

variable {c d : Cluster} {i : Nat}

/-! ### What goes on beside one fetcher -/

/-- Acts on the queue stored under `name` among which only the fetcher of run `i` takes tasks
from the backlog, none are released or recovered, and pushes to its head do not fail. -/
def Undisputed (name : String) (i : Nat) (c : Cluster) : Act → Prop
  | .build n _ => n = name
  | .step (.fetcher j) => j = i
  | .step (.call n) => ∀ call, c.calls[n]? = some call →
      call.stage.left = [] ∧ call.stage.recovery? = none
  | .step (.sweeper n _) => ∀ s, c.sweepers[n]? = some s → s.stage.recovery? = none
  | .failNext point count => point = .lpush → count = 0
  | _ => True

theorem onQueue_of_undisputed (c : Cluster) (a : Act) (ok : Undisputed name i c a) :
    OnQueue name c a := by
  cases a with
  | build => exact ok
  | _ => trivial

instance (name : String) (i : Nat) (c : Cluster) : (a : Act) → Decidable (Undisputed name i c a)
  | .build n _ => inferInstanceAs (Decidable (n = name))
  | .step (.fetcher j) => inferInstanceAs (Decidable (j = i))
  | .step (.call n) => inferInstanceAs (Decidable
      (∀ call ∈ c.calls[n]?, call.stage.left = [] ∧ call.stage.recovery? = none))
  | .step (.sweeper n _) =>
      inferInstanceAs (Decidable (∀ s ∈ c.sweepers[n]?, s.stage.recovery? = none))
  | .failNext point count => inferInstanceAs (Decidable (point = .lpush → count = 0))
  | .step (.worker ..) | .step (.disposal _) | .invoke .. | .abandon _ | .drop _
  | .executorReturns .. | .newToken | .cancel _ | .sweep .. | .elapse _ => .isTrue trivial

/-- The fetchers are where they were. -/
def FetchersKept (c d : Cluster) : Prop :=
  ∀ (n : Nat) (r : Run), c.runs[n]? = some r →
    ∃ r' : Run, d.runs[n]? = some r' ∧ r'.fetcher = r.fetcher

theorem fetchersKept_same (runs : d.runs = c.runs) : c.FetchersKept d :=
  fun _ r h => ⟨r, by rw [runs, h], rfl⟩

theorem fetchersKept_set {n : Nat} {r r' : Run} (at_n : c.runs[n]? = some r)
    (runs : d.runs = c.runs.set n r') (kept : r'.fetcher = r.fetcher) : c.FetchersKept d := by
  intro m q hq
  rw [runs]
  obtain ⟨bound, -⟩ := List.getElem?_eq_some_iff.mp hq
  rcases Decidable.em (n = m) with rfl | apart
  · cases at_n.symm.trans hq
    exact ⟨r', List.getElem?_set_self bound, kept⟩
  · exact ⟨q, by rw [List.getElem?_set_ne apart, hq], rfl⟩

theorem fetchersKept_letGo {n : Nat} (runs : d.runs = (c.letGo n).runs) : c.FetchersKept d := by
  rcases c.letGo_cases n with ⟨same, -⟩ | ⟨r, at_n, same, -⟩
  · exact fetchersKept_same (runs.trans same)
  · exact fetchersKept_set at_n (runs.trans same) (Run.reap_fetcher _)

theorem fetchersKept_append {r : Run} (runs : d.runs = c.runs ++ [r]) : c.FetchersKept d := by
  intro n q hq
  obtain ⟨bound, -⟩ := List.getElem?_eq_some_iff.mp hq
  exact ⟨q, by rw [runs, List.getElem?_append_left bound, hq], rfl⟩

/-- What is done beside the fetchers, where nothing is released or recovered. -/
structure Beside (c d : Cluster) : Prop where
  fetchers : c.FetchersKept d
  events : ∃ es, d.events = es ++ c.events ∧ Outside es

theorem beside_same (runs : d.runs = c.runs) (events : d.events = c.events) : Beside c d :=
  ⟨fetchersKept_same runs, [], events, by simp [Outside]⟩

theorem beside_letGo (es : List Event) {n : Nat} (runs : d.runs = (c.letGo n).runs)
    (events : d.events = es ++ (c.letGo n).events) (outside : Outside es) : Beside c d := by
  obtain ⟨lost, grown, discards⟩ := c.events_letGo_eq n
  exact ⟨fetchersKept_letGo runs, es ++ lost, by rw [events, grown, List.append_assoc],
    outside.append (outside_of_discards discards)⟩

theorem beside_entry {n j : Nat} {hd : Handle} {request : Request}
    (entry : Entry c d n j hd request) : Beside c d := by
  cases entry with
  | answered memory result contents eq | taken run r asked lock runtime at_run eq
  | recovering maxAge asked accepted eq =>
      subst eq
      exact beside_same rfl rfl
  | pushed tasks some asked memory contents eq =>
      subst eq
      exact ⟨fetchersKept_same rfl, [.pushed tasks], rfl, by simp [Outside, Event.isOutside]⟩
  | launched parent asked lock running eq =>
      subst eq
      exact ⟨fetchersKept_append rfl, [.queueStarted hd.options.workers hd.options.bufferSize],
        rfl, by simp [Outside, Event.isOutside]⟩

theorem beside_call {n : Nat} (h : c.stepCall n = some d)
    (free : ∀ call, c.calls[n]? = some call →
      call.stage.left = [] ∧ call.stage.recovery? = none) : Beside c d := by
  obtain ⟨call, hd, hc, -, step⟩ := stepCall_cases h
  obtain ⟨unheld, unsought⟩ := free call hc
  cases step with
  | entered request stage entry => exact beside_entry entry
  | joined j loop r next panicked stage run after eq =>
      subst eq
      refine ⟨fetchersKept_same rfl, _, events_record _ _ _, ?_⟩
      split <;> simp [Outside, Event.isOutside]
  | drained j r stage run eq =>
      subst eq
      exact ⟨fetchersKept_set run rfl rfl, [], rfl, by simp [Outside]⟩
  | released j claim rest stage eq =>
      rw [stage] at unheld
      cases unheld
  | ended j stage eq =>
      subst eq
      exact beside_letGo [.queueStopped] rfl (events_record _ _ _)
        (by simp [Outside, Event.isOutside])
  | recovered maxAge recovery o memory es stage step eq =>
      rw [stage] at unsought
      cases unsought

theorem beside_worked {n : Nat} {r : Run} {w : List Worker} {m : Moved Worker}
    {k : Keys} {sh : Shared} {v : Worker} (at_n : c.runs[n]? = some r)
    (move : Worker.Move k sh v m) :
    Beside c (c.settle n { r with workers := w } m.shared m.events) := by
  refine ⟨fetchersKept_set at_n (runs_settle _ _ _ _ _) (Run.reap_fetcher _), _,
    events_settle _ _ _ _ _, (outside_reap _).append ?_⟩
  cases move with
  | quiet held calling contents channel events =>
      exact outside_of_quiet fun e he => events e (List.mem_reverse.mp he)
  | received _ _ _ _ _ _ _ events | called _ _ _ _ _ _ events | settled _ _ _ _ _ events
  | settleFailed _ _ _ _ _ _ _ events | panicked _ _ _ _ _ events =>
      rw [events]
      simp [Outside, Event.isOutside]

theorem beside_sweeper {n : Nat} {heeds : Bool} (h : c.stepSweeper n heeds = some d)
    (free : ∀ s, c.sweepers[n]? = some s → s.stage.recovery? = none) : Beside c d := by
  obtain ⟨s, hd, stage, memory, es, hs, hh, -, step, rfl⟩ := stepSweeper_cases h
  rcases Sweeper.step_cases step with ⟨-, quiet⟩ | ⟨r, o, es', extra, sought, -⟩
  · exact ⟨fetchersKept_same rfl, _, events_record _ _ _,
      outside_of_quiet fun e he => quiet e (List.mem_reverse.mp he)⟩
  · rw [free s hs] at sought
    cases sought

theorem beside_disposal {n : Nat} (h : c.stepDisposal n = some d) : Beside c d := by
  obtain ⟨hd, -, -, ⟨-, rfl⟩ | ⟨run, r, -, -, rfl⟩⟩ := stepDisposal_cases h
  · exact beside_same rfl rfl
  · exact beside_letGo [] (runs_letGo (c := c) (by rfl) run)
      (events_letGo (c := c) (by rfl) (by rfl) run) (by simp [Outside])

theorem beside_abandon (n : Nat) : Beside c (c.abandon n) := by
  rcases c.abandon_cases n with eq | ⟨call, -, ⟨-, eq⟩ | ⟨run, -, eq⟩⟩ <;> rw [eq]
  · exact beside_same rfl rfl
  · exact beside_same rfl rfl
  · refine beside_letGo _ (runs_letGo (c := c) (by rfl) run) ((events_record _ _ _).trans
      (congrArg _ (events_letGo (c := c) (by rfl) (by rfl) run)))
      (outside_of_discards fun e he => ?_)
    obtain ⟨claim, -, rfl⟩ := List.mem_map.mp (List.mem_reverse.mp he)
    exact ⟨claim.id, rfl⟩

/-- Only the fetcher of run `i` has a hand in what is no push, settlement or loss of tasks. -/
theorem beside_perform (ok : Undisputed name i c a) (h : c.perform a = some d) :
    a = .step (.fetcher i) ∨ Beside c d := by
  cases a with
  | step p =>
      cases p with
      | fetcher j =>
          obtain rfl : j = i := ok
          exact .inl rfl
      | worker j n =>
          obtain ⟨r, hd, w, m, at_j, -, -, step, rfl⟩ := stepWorker_cases h
          exact .inr (beside_worked at_j (Worker.move_of_step rfl step))
      | call n => exact .inr (beside_call h ok)
      | sweeper n => exact .inr (beside_sweeper h ok)
      | disposal n => exact .inr (beside_disposal h)
  | executorReturns j n result =>
      obtain ⟨r, hd, w, m, at_j, -, -, step, rfl⟩ := executorReturns_cases h
      exact .inr (beside_worked at_j (Worker.move_of_returns (k := .ofName name) step))
  | build n options =>
      obtain rfl := build_of_perform h
      exact .inr (beside_same rfl rfl)
  | invoke n request =>
      obtain ⟨-, rfl⟩ := invoke_of_perform h
      exact .inr (beside_same rfl rfl)
  | sweep n t config =>
      rcases sweep_of_perform h with rfl | rfl <;> exact .inr (beside_same rfl rfl)
  | abandon n =>
      cases h
      exact .inr (beside_abandon n)
  | drop n | newToken | cancel t | failNext point count | elapse t =>
      cases h
      exact .inr (beside_same rfl rfl)

end Cluster

end ReliableQueue.Queue
