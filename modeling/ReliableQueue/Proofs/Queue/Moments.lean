import ReliableQueue.Proofs.Queue.Turning

/-!
Moments. A run is told by its acts, each with what was there before and after it. To a worker
only its own moments matter, in which it takes a step or its executor ends a call; every other
act leaves it as it is.
-/

namespace ReliableQueue.Queue

variable {i j k : Nat} {a : Act} {c d e : Cluster} {q r : Run} {w : Worker} {parent : Token}

/-- An act of a run, with what was there before and after it. -/
structure Moment where
  before : Cluster
  act : Act
  after : Cluster

/-- Worker `j` of run `i` takes a step, or its executor ends a call. -/
def Act.isOf (i j : Nat) : Act → Bool
  | .step (.worker k l) | .executorReturns k l _ => k = i && l = j
  | _ => false

theorem Act.isOf_cases (own : a.isOf i j = true) :
    a = .step (.worker i j) ∨ ∃ result, a = .executorReturns i j result := by
  cases a with
  | step p => cases p <;> simp_all [isOf]
  | _ => simp_all [isOf]

theorem Act.isOf_inj {l : Nat} (own : a.isOf i j = true) (own' : a.isOf k l = true) :
    i = k ∧ j = l := by
  rcases isOf_cases own with rfl | ⟨result, rfl⟩ <;> simpa [isOf] using own'

/-- A start sets going run `i`, which is `r`, under the token `parent`. -/
structure Moment.Launches (i : Nat) (parent : Token) (r : Run) (t : Moment) : Prop where
  asked : ∃ n h, t.act = .step (.call n) ∧
    t.before.calls[n]? = some ⟨h, .entering (.start parent)⟩
  number : i = t.before.runs.length
  runs : t.after.runs = t.before.runs ++ [r]

namespace Cluster

/-! ### Runs and their moments -/

/-- A run from `c` and its moments, latest first. -/
inductive Moments (c : Cluster) : List Moment → Cluster → Prop where
  | refl : Moments c [] c
  | perform {ts : List Moment} {d e : Cluster} {a : Act} :
      Moments c ts d → d.perform a = some e → Moments c (⟨d, a, e⟩ :: ts) e

variable {ts : List Moment}

theorem Moments.reaches (h : Moments c ts d) : Reaches (fun _ _ => True) c d := by
  induction h with
  | refl => exact .refl
  | perform _ hp ih => exact .perform ih trivial hp

/-- Every moment of a run ends a run of its own. -/
theorem Moments.split {t : Moment} {later past : List Moment}
    (h : Moments c (later ++ t :: past) d) :
    Moments c past t.before ∧ t.before.perform t.act = some t.after := by
  induction later generalizing d with
  | nil =>
      cases h with
      | perform h hp => exact ⟨h, hp⟩
  | cons u later ih =>
      cases h with
      | perform h hp => exact ih h

/-- The moments of a sequence of acts, before those of `ts`. -/
def momentsOf (c : Cluster) (ts : List Moment) : List Act → List Moment
  | [] => ts
  | a :: rest =>
      match c.perform a with
      | none => ts
      | some d => momentsOf d (⟨c, a, d⟩ :: ts) rest

theorem Moments.of_run {acts : List Act} (h : Moments d ts c) (run : c.run acts = some e) :
    Moments d (momentsOf c ts acts) e := by
  induction acts generalizing c ts with
  | nil =>
      cases run
      exact h
  | cons a rest ih =>
      obtain ⟨b, hp, run⟩ := Option.bind_eq_some_iff.mp run
      rw [momentsOf, hp]
      exact ih (.perform h hp) run

/-! ### The clock -/

@[simp] theorem now_letGo (c : Cluster) (i : Nat) : (c.letGo i).now = c.now := by
  unfold letGo; split <;> rfl

theorem now_of_stepCall {n : Nat} (h : c.stepCall n = some d) : d.now = c.now := by
  obtain ⟨call, hd, -, -, step⟩ := stepCall_cases h
  cases step with
  | entered request stage entry =>
      cases entry with
      | answered _ _ _ eq | pushed _ _ _ _ _ eq | launched _ _ _ _ eq | taken _ _ _ _ _ _ eq
      | recovering _ _ _ eq => rw [eq]; rfl
  | joined _ _ _ _ _ _ _ _ eq | drained _ _ _ _ eq | released _ _ _ _ eq
  | recovered _ _ _ _ _ _ _ eq => rw [eq]; rfl
  | ended m stage eq =>
      rw [eq]
      exact now_letGo c m

/-- The clock moves only where time is let pass. -/
theorem now_of_perform (h : c.perform a = some d) :
    d.now = c.now ∨ ∃ t, a = .elapse t ∧ d.now = max c.now t := by
  cases a with
  | elapse t =>
      cases h
      exact .inr ⟨t, rfl, rfl⟩
  | step p =>
      left
      cases p with
      | fetcher m =>
          obtain ⟨r, hd, moved, -, -, -, rfl⟩ := stepFetcher_cases h
          rfl
      | worker m l =>
          obtain ⟨r, hd, w, moved, -, -, -, -, rfl⟩ := stepWorker_cases h
          rfl
      | call n => exact now_of_stepCall h
      | sweeper n =>
          obtain ⟨s, hd, stage, memory, es, -, -, -, -, rfl⟩ := stepSweeper_cases h
          rfl
      | disposal n =>
          obtain ⟨hd, -, -, ⟨-, rfl⟩ | ⟨m, r, -, -, rfl⟩⟩ := stepDisposal_cases h
          · rfl
          · exact now_letGo _ m
  | executorReturns m l result =>
      obtain ⟨r, hd, w, moved, -, -, -, -, rfl⟩ := executorReturns_cases h
      exact .inl rfl
  | abandon n =>
      cases h
      left
      rcases c.abandon_cases n with eq | ⟨call, -, ⟨-, eq⟩ | ⟨m, -, eq⟩⟩ <;> rw [eq]
      · rfl
      · exact now_letGo _ m
  | build name options =>
      obtain rfl := build_of_perform h
      exact .inl rfl
  | invoke n request =>
      obtain ⟨-, rfl⟩ := invoke_of_perform h
      exact .inl rfl
  | sweep n t config =>
      rcases sweep_of_perform h with rfl | rfl
      all_goals exact .inl rfl
  | drop n | newToken | cancel t | failNext point count =>
      cases h
      exact .inl rfl

/-! ### Starts -/

/-- A start gives its run a token of its own. -/
theorem token_of_launches (h : c.perform a = some d)
    (launches : Moment.Launches i parent r ⟨c, a, d⟩) :
    r.token = (c.tokens.child parent).1 ∧ d.tokens = (c.tokens.child parent).2 := by
  obtain ⟨n, x, act, asked⟩ := launches.asked
  have runs : d.runs = c.runs ++ [r] := launches.runs
  subst act
  obtain ⟨call, hd, hc, -, step⟩ := stepCall_cases h
  obtain rfl := Option.some.inj (asked.symm.trans hc)
  cases step with
  | entered request stage entry =>
      cases stage
      cases entry with
      | answered _ _ _ eq =>
          have same : d.runs = c.runs := by rw [eq]; rfl
          simp [same] at runs
      | launched _ asked _ _ eq =>
          cases asked
          subst eq
          cases List.append_cancel_left runs
          exact ⟨rfl, rfl⟩
      | pushed _ _ asked | taken _ _ asked | recovering _ asked => cases asked
  | joined _ _ _ _ _ stage | drained _ _ stage | released _ _ _ stage | ended _ stage
  | recovered _ _ _ _ _ stage => cases stage

/-- A run was there, or a start has just set it going. -/
theorem run_or_launches (h : c.perform a = some d) (run : d.runs[i]? = some r) :
    (∃ q, c.runs[i]? = some q ∧ r.token = q.token) ∨
      ∃ parent, Moment.Launches i parent r ⟨c, a, d⟩ := by
  have old (length : d.runs.length = c.runs.length) :
      ∃ q, c.runs[i]? = some q ∧ r.token = q.token := by
    obtain ⟨q, hq, on⟩ := (goesOn_of_perform h).back length run
    exact ⟨q, hq, on.token⟩
  rcases steady_or_turning h with steady | turn
  · exact .inl (old steady.runs.length)
  · cases turn with
    | launched n call hd q at_call asked handle lock running fresh runs _ _ _ act =>
        obtain ⟨parent, stage⟩ := asked
        have same := run
        rw [runs] at same
        rcases getElem?_concat_cases same with ⟨last, rfl⟩ | before
        · exact .inr ⟨parent, ⟨n, call.handle, act, by rw [at_call, ← stage]⟩, last, runs⟩
        · exact .inl ⟨r, before, rfl⟩
    | taken _ _ _ _ _ _ _ _ _ _ _ runs => exact .inl (old (by rw [runs]))
    | went _ _ _ _ _ _ _ runs => exact .inl (old runs.length)
    | ended _ _ _ _ _ _ _ runs | forsaken _ _ _ _ _ _ runs | disposed _ _ _ _ _ _ _ _ runs =>
        exact .inl (old (by rw [runs, length_letGo]))

/-! ### Workers -/

/-- Worker `j` of run `i`. -/
def worker? (c : Cluster) (i j : Nat) : Option Worker := (c.runs[i]?).bind (·.workers[j]?)

theorem worker?_of_run (run : c.runs[i]? = some r) : c.worker? i j = r.workers[j]? := by
  rw [worker?, run, Option.bind_some]

theorem worker?_same (runs : d.runs = c.runs) : d.worker? i j = c.worker? i j := by
  rw [worker?, runs, worker?]

theorem worker?_set (run : c.runs[k]? = some r) (runs : d.runs = c.runs.set k q)
    (same : k = i → q.workers[j]? = r.workers[j]?) : d.worker? i j = c.worker? i j := by
  rcases Decidable.em (k = i) with rfl | apart
  · obtain ⟨hk, -⟩ := List.getElem?_eq_some_iff.mp run
    have last : d.runs[k]? = some q := by rw [runs, List.getElem?_set_self hk]
    rw [worker?_of_run last, worker?_of_run run, same rfl]
  · rw [worker?, runs, List.getElem?_set_ne apart, worker?]

theorem worker?_letGo (runs : d.runs = (c.letGo k).runs) : d.worker? i j = c.worker? i j := by
  rcases c.letGo_cases k with ⟨same, -⟩ | ⟨r, run, set, -⟩
  · exact worker?_same (runs.trans same)
  · exact worker?_set run (runs.trans set) fun _ => by rw [Run.reap_workers]

/-- The workers of a run that has just been started are new. -/
theorem worker?_concat (runs : d.runs = c.runs ++ [r]) (new : ∀ w ∈ r.workers, w = .starting) :
    d.worker? i j = c.worker? i j ∨ c.worker? i j = none ∧ d.worker? i j = some .starting := by
  cases old : c.runs[i]? with
  | some q => exact .inl (by rw [worker?, runs, getElem?_concat_of old, worker?, old])
  | none =>
      have none : c.worker? i j = Option.none := by rw [worker?, old, Option.bind_none]
      rw [none]
      cases now : d.worker? i j with
      | none => exact .inl rfl
      | some w =>
          obtain ⟨r', hr, hw⟩ := Option.bind_eq_some_iff.mp now
          rw [runs] at hr
          rcases getElem?_concat_cases hr with ⟨-, rfl⟩ | hr
          · exact .inr ⟨rfl, by rw [new w (List.mem_of_getElem? hw)]⟩
          · rw [old] at hr
            cases hr

/-- After a step of a loop of run `k` that sets no worker but number `l`. -/
theorem worker?_settle_other {l : Nat} {f : Fetcher} {sh : Shared} {es : List Event}
    (run : c.runs[k]? = some r) (apart : ¬(k = i ∧ l = j)) :
    (c.settle k { r with fetcher := f, workers := r.workers.set l w } sh es).worker? i j =
      c.worker? i j := by
  refine worker?_set run (runs_settle _ _ _ _ _) fun at_run => ?_
  rw [Run.reap_workers]
  exact List.getElem?_set_ne fun same => apart ⟨at_run, same⟩

variable {w' : Worker} {sh : Shared} {es : List Event}

theorem worker?_settle (run : c.runs[i]? = some r) (hw : r.workers[j]? = some w) :
    (c.settle i { r with workers := r.workers.set j w' } sh es).worker? i j = some w' := by
  obtain ⟨hi, -⟩ := List.getElem?_eq_some_iff.mp run
  obtain ⟨hj, -⟩ := List.getElem?_eq_some_iff.mp hw
  rw [worker?, runs_settle, List.getElem?_set_self hi, Option.bind_some, Run.reap_workers]
  exact List.getElem?_set_self hj

/-- While a worker goes on, the channel of its run does not go away. -/
theorem events_settle_of_live (hw : r.workers[j]? = some w) (live : w'.isLive = true) :
    (c.settle i { r with workers := r.workers.set j w' } sh es).events =
      es.reverse ++ c.events := by
  obtain ⟨hj, -⟩ := List.getElem?_eq_some_iff.mp hw
  have some : (r.workers.set j w').any Worker.isLive = true :=
    List.any_eq_true.mpr ⟨w', List.mem_set hj w', live⟩
  rw [events_settle]
  simp [Run.reap, Run.isAbandoned, some]

theorem worker_of_stepCall {n : Nat} (h : c.stepCall n = some d) :
    d.worker? i j = c.worker? i j ∨ c.worker? i j = none ∧ d.worker? i j = some .starting := by
  obtain ⟨call, hd, hc, hh, step⟩ := stepCall_cases h
  cases step with
  | entered request stage entry =>
      cases entry with
      | answered _ _ _ eq | pushed _ _ _ _ _ eq | recovering _ _ _ eq
      | taken _ _ _ _ _ _ eq => exact .inl (worker?_same (by rw [eq]; rfl))
      | launched parent asked lock running eq =>
          subst eq
          exact worker?_concat rfl fun w hw => List.eq_of_mem_replicate hw
  | joined _ _ _ _ _ _ _ _ eq | released _ _ _ _ eq | recovered _ _ _ _ _ _ _ eq =>
      exact .inl (worker?_same (by rw [eq]; rfl))
  | drained m r stage run eq =>
      subst eq
      exact .inl (worker?_set run rfl fun _ => rfl)
  | ended m stage eq =>
      subst eq
      exact .inl (worker?_letGo (k := m) rfl)

/-- An act that is not its own leaves a worker as it is, or a start has just made it. -/
theorem worker_of_perform (h : c.perform a = some d) (other : a.isOf i j = false) :
    d.worker? i j = c.worker? i j ∨ c.worker? i j = none ∧ d.worker? i j = some .starting := by
  cases a with
  | step p =>
      cases p with
      | fetcher m =>
          obtain ⟨r, hd, moved, run, -, -, rfl⟩ := stepFetcher_cases h
          exact .inl (worker?_set run (runs_settle _ _ _ _ _) fun _ => by rw [Run.reap_workers])
      | worker m l =>
          obtain ⟨r, hd, w, moved, run, -, -, -, rfl⟩ := stepWorker_cases h
          exact .inl (worker?_settle_other run (by simpa [Act.isOf] using other))
      | call n => exact worker_of_stepCall h
      | sweeper n =>
          obtain ⟨s, hd, stage, memory, es, -, -, -, -, rfl⟩ := stepSweeper_cases h
          exact .inl (worker?_same rfl)
      | disposal n =>
          obtain ⟨hd, -, -, ⟨-, rfl⟩ | ⟨m, r, -, -, rfl⟩⟩ := stepDisposal_cases h
          · exact .inl (worker?_same rfl)
          · exact .inl (worker?_letGo (runs_letGo (c := c) (by rfl) m))
  | executorReturns m l result =>
      obtain ⟨r, hd, w, moved, run, -, -, -, rfl⟩ := executorReturns_cases h
      exact .inl (worker?_settle_other run (by simpa [Act.isOf] using other))
  | abandon n =>
      cases h
      rcases c.abandon_cases n with eq | ⟨call, -, ⟨-, eq⟩ | ⟨m, -, eq⟩⟩
      · exact .inl (by rw [eq])
      · exact .inl (worker?_same (by rw [eq]; rfl))
      · rw [eq]
        exact .inl (worker?_letGo (runs_letGo (c := c) (by rfl) m))
  | build name options =>
      obtain rfl := build_of_perform h
      exact .inl (worker?_same rfl)
  | invoke n request =>
      obtain ⟨-, rfl⟩ := invoke_of_perform h
      exact .inl (worker?_same rfl)
  | sweep n t config =>
      rcases sweep_of_perform h with rfl | rfl
      all_goals exact .inl (worker?_same rfl)
  | drop n | newToken | cancel t | failNext point count | elapse t =>
      cases h
      exact .inl (worker?_same rfl)

theorem worker_kept (h : c.perform a = some d) (other : a.isOf i j = false)
    (hw : c.worker? i j = some w) : d.worker? i j = some w := by
  rcases worker_of_perform h other with same | ⟨new, -⟩
  · exact same.trans hw
  · rw [hw] at new
    cases new

end Cluster

end ReliableQueue.Queue
