import ReliableQueue.Proofs.Queue.Changes

/-!
What is over stays over. A run keeps its token, its loops that have ended take no step again,
and a token that is cancelled stays so.
-/

namespace ReliableQueue

/-- Whatever was cancelled is cancelled still. -/
def Cancellation.Grows (c d : Cancellation) : Prop :=
  ∀ t, c.isCancelled t = true → d.isCancelled t = true

namespace Cancellation

theorem Grows.refl (c : Cancellation) : c.Grows c := fun _ h => h

theorem grows_fresh (c : Cancellation) : c.Grows c.fresh.2 := fun _ h => h

theorem grows_child (c : Cancellation) (t : Token) : c.Grows (c.child t).2 := fun _ h => h

theorem grows_cancel (c : Cancellation) (t : Token) : c.Grows (c.cancel t) := by
  intro u h
  unfold cancel
  split
  · exact h
  · split
    · exact h
    · obtain ⟨n, hn, hc⟩ := List.any_eq_true.mp h
      refine List.any_eq_true.mpr ⟨n, hn, ?_⟩
      simp only [List.contains_cons, hc, Bool.or_true]

end Cancellation

namespace Queue

variable {k : Keys} {name : String} {a : Act} {c d : Cluster}

/-! ### Runs -/

/-- Worker `j` of a run, if there is one, has ended. -/
def Run.Ended (r : Run) (j : Nat) : Prop := ∀ w, r.workers[j]? = some w → w.isLive = false

/-- All loops have ended, and nothing is in the channel. -/
def Run.Spent (r : Run) : Prop := r.isLive = false ∧ r.channel.buffer = []

/-- A run is of the size that the options ask for, and its channel holds no more than it may. -/
structure Run.Fits (r : Run) (o : Options) : Prop where
  workers : r.workers.length = o.workers
  capacity : r.channel.capacity = o.bufferSize
  buffer : r.channel.buffer.length ≤ o.bufferSize

/-- Nothing is in the channel, and nothing will be sent. -/
def Run.Closed (r : Run) : Prop := r.channel.closed = true ∧ r.channel.buffer = []

/-- What is not undone when a run goes on. -/
structure Run.Continues (r r' : Run) : Prop where
  token : r'.token = r.token
  fetcher : r.fetcher.isLive = false → r'.fetcher.isLive = false
  worker : ∀ j, r.Ended j → r'.Ended j
  buffer : r.fetcher.isLive = false → r.channel.buffer = [] → r'.channel.buffer = []
  handle : r'.handle = r.handle
  fits : ∀ o, r.Fits o → r'.Fits o
  closed : r.Closed → r'.Closed

namespace Run

theorem spent_iff (r : Run) :
    r.Spent ↔ r.fetcher.isLive = false ∧ (∀ j, r.Ended j) ∧ r.channel.buffer = [] := by
  have workers : r.workers.any Worker.isLive = false ↔ ∀ j, r.Ended j := by
    simp only [List.any_eq_false, Bool.not_eq_true, Ended]
    constructor
    · intro h j w hw
      exact h w (List.mem_of_getElem? hw)
    · intro h w hw
      obtain ⟨j, hj⟩ := List.getElem?_of_mem hw
      exact h j w hj
  simp only [Spent, isLive, Bool.or_eq_false_iff, workers, and_assoc]

theorem working_of_ended {r : Run} (ended : ∀ j, r.Ended j) : r.working = [] := by
  refine List.flatMap_eq_nil_iff.mpr fun w hw => ?_
  obtain ⟨j, hj⟩ := List.getElem?_of_mem hw
  rw [Worker.held?_of_not_live (ended j w hj)]
  rfl

theorem Spent.working {r : Run} (h : r.Spent) : r.working = [] :=
  working_of_ended ((spent_iff r).mp h).2.1

theorem Spent.inHand {r : Run} (h : r.Spent) : r.inHand = [] := by
  rw [Run.inHand, Fetcher.held?_of_not_live ((spent_iff r).mp h).1]
  rfl

theorem Continues.refl (r : Run) : r.Continues r :=
  ⟨rfl, id, fun _ => id, fun _ => id, rfl, fun _ => id, id⟩

theorem Continues.trans {r r' r'' : Run} (h : r.Continues r') (h' : r'.Continues r'') :
    r.Continues r'' where
  token := h'.token.trans h.token
  fetcher := h'.fetcher ∘ h.fetcher
  worker j := h'.worker j ∘ h.worker j
  buffer dead empty := h'.buffer (h.fetcher dead) (h.buffer dead empty)
  handle := h'.handle.trans h.handle
  fits o := h'.fits o ∘ h.fits o
  closed := h'.closed ∘ h.closed

theorem Continues.spent {r r' : Run} (h : r.Continues r') (spent : r.Spent) : r'.Spent := by
  rw [spent_iff] at spent ⊢
  obtain ⟨dead, ended, empty⟩ := spent
  exact ⟨h.fetcher dead, fun j => h.worker j (ended j), h.buffer dead empty⟩

/-- A run whose channel is emptied and closed. -/
theorem continues_discard (r : Run) : r.Continues { r with channel := r.channel.discard } where
  token := rfl
  fetcher := id
  worker _ := id
  buffer _ _ := rfl
  handle := rfl
  fits _ fits := ⟨fits.workers, fits.capacity, Nat.zero_le _⟩
  closed _ := ⟨rfl, rfl⟩

theorem continues_reap (r : Run) : r.Continues r.reap.1 := by
  unfold reap
  split
  · exact continues_discard r
  · exact .refl r

theorem continues_unkept (r : Run) : r.Continues { r with kept := false } :=
  ⟨rfl, id, fun _ => id, fun _ => id, rfl, fun _ fits => ⟨fits.1, fits.2, fits.3⟩, id⟩

theorem continues_letGo (r : Run) : r.Continues { r with kept := false }.reap.1 :=
  (continues_unkept r).trans (continues_reap _)

theorem continues_fetched {r : Run} {sh : Shared} {m : Moved Fetcher}
    (channel : sh.channel = r.channel) (live : r.fetcher.isLive = true)
    (move : Fetcher.Move k sh r.fetcher m) :
    r.Continues { r with fetcher := m.loop, channel := m.shared.channel } := by
  have alive (dead : r.fetcher.isLive = false) : False := by
    rw [live] at dead
    cases dead
  have moved : m.shared.channel = r.channel ∨ ∃ claim, m.shared.channel = r.channel.send claim ∧
      r.channel.hasRoom = true ∧ r.channel.closed = false := by
    cases move with
    | sent claim had free contents same events was room opened =>
        rw [channel] at same room opened
        exact .inr ⟨claim, same, room, opened⟩
    | quiet _ _ same | popped _ _ _ _ _ _ same | loaded _ _ _ _ _ same
    | claimed _ _ _ _ _ same | requeued _ _ _ _ _ same | requeueFailed _ _ _ _ _ _ _ same
    | released _ _ _ _ same | releaseFailed _ _ _ _ _ _ same =>
        exact .inl (same.trans channel)
  exact {
    token := rfl
    fetcher := fun dead => (alive dead).elim
    worker := fun _ => id
    buffer := fun dead _ => (alive dead).elim
    handle := rfl
    fits := fun o fits => by
      rcases moved with same | ⟨claim, sent, room, -⟩
      · exact ⟨fits.workers, (congrArg _ same).trans fits.capacity,
          Nat.le_trans (Nat.le_of_eq (congrArg _ (congrArg _ same))) fits.buffer⟩
      · refine ⟨fits.workers, (congrArg _ sent).trans fits.capacity, ?_⟩
        have free : r.channel.buffer.length < r.channel.capacity := by
          simpa [Channel.hasRoom] using room
        rw [fits.capacity] at free
        simpa [sent, Channel.send] using Nat.succ_le_of_lt free
    closed := fun closed => by
      rcases moved with same | ⟨claim, -, -, opened⟩
      · exact ⟨(congrArg _ same).trans closed.1, (congrArg _ same).trans closed.2⟩
      · rw [closed.1] at opened
        cases opened }

theorem continues_worked {r : Run} {sh : Shared} {w : Worker} {m : Moved Worker} {j : Nat}
    (channel : sh.channel = r.channel) (hw : r.workers[j]? = some w) (live : w.isLive = true)
    (move : Worker.Move k sh w m) :
    r.Continues { r with workers := r.workers.set j m.loop, channel := m.shared.channel } := by
  have moved : m.shared.channel = r.channel ∨ ∃ claim rest, r.channel.buffer = claim :: rest ∧
      m.shared.channel = { r.channel with buffer := rest } := by
    cases move with
    | received claim rest free loop head contents same =>
        rw [channel] at head same
        exact .inr ⟨claim, rest, head, same⟩
    | quiet _ _ _ same | called _ _ _ _ _ same | settled _ _ _ _ same
    | settleFailed _ _ _ _ _ _ same | panicked _ _ _ _ same => exact .inl (same.trans channel)
  have stays (empty : r.channel.buffer = []) : m.shared.channel = r.channel := by
    rcases moved with same | ⟨claim, rest, head, -⟩
    · exact same
    · rw [empty] at head
      cases head
  exact {
    token := rfl
    fetcher := id
    worker := fun i ended v hv => by
      rcases getElem?_set_cases hv with ⟨rfl, -⟩ | ⟨-, hv⟩
      · rw [ended w hw] at live
        cases live
      · exact ended v hv
    buffer := fun _ empty => (congrArg _ (stays empty)).trans empty
    handle := rfl
    fits := fun o fits => by
      refine ⟨(List.length_set).trans fits.workers, ?_, ?_⟩
      · rcases moved with same | ⟨claim, rest, -, taken⟩
        · exact (congrArg _ same).trans fits.capacity
        · exact (congrArg _ taken).trans fits.capacity
      · have room := fits.buffer
        rcases moved with same | ⟨claim, rest, head, taken⟩
        · simpa only [same] using room
        · rw [head, List.length_cons] at room
          simpa only [taken] using Nat.le_of_succ_le room
    closed := fun closed => by
      have same := stays closed.2
      exact ⟨(congrArg _ same).trans closed.1, (congrArg _ same).trans closed.2⟩ }

end Run

namespace Cluster

/-- Every run is there still, further on. -/
def RunsGoOn (c d : Cluster) : Prop :=
  ∀ (n : Nat) (r : Run), c.runs[n]? = some r → ∃ r', d.runs[n]? = some r' ∧ r.Continues r'

theorem runsGoOn_same (runs : d.runs = c.runs) : c.RunsGoOn d :=
  fun _ r hr => ⟨r, runs ▸ hr, .refl r⟩

theorem RunsGoOn.trans {b : Cluster} (h : b.RunsGoOn c) (h' : c.RunsGoOn d) : b.RunsGoOn d := by
  intro n r hr
  obtain ⟨r', hr', on⟩ := h n r hr
  obtain ⟨r'', hr'', on'⟩ := h' n r' hr'
  exact ⟨r'', hr'', on.trans on'⟩

theorem runsGoOn_set {i : Nat} {r r' : Run} (hr : c.runs[i]? = some r)
    (runs : d.runs = c.runs.set i r') (h : r.Continues r') : c.RunsGoOn d := by
  intro n q hq
  rcases Decidable.em (i = n) with rfl | apart
  · obtain rfl := Option.some.inj (hr.symm.trans hq)
    obtain ⟨hi, -⟩ := List.getElem?_eq_some_iff.mp hr
    exact ⟨r', by rw [runs, List.getElem?_set_self hi], h⟩
  · exact ⟨q, by rw [runs, List.getElem?_set_ne apart, hq], .refl q⟩

theorem runsGoOn_concat {r : Run} (runs : d.runs = c.runs ++ [r]) : c.RunsGoOn d :=
  fun _ q hq => ⟨q, runs ▸ getElem?_concat_of hq r, .refl q⟩

theorem runsGoOn_letGo (c : Cluster) (i : Nat) : c.RunsGoOn (c.letGo i) := by
  rcases c.letGo_cases i with ⟨runs, -⟩ | ⟨r, hr, runs, -⟩
  · exact runsGoOn_same runs
  · exact runsGoOn_set hr runs (Run.continues_letGo r)

theorem RunsGoOn.back (on : c.RunsGoOn d) (length : d.runs.length = c.runs.length) {n : Nat}
    {r' : Run} (hr : d.runs[n]? = some r') : ∃ r, c.runs[n]? = some r ∧ r.Continues r' := by
  obtain ⟨hn, -⟩ := List.getElem?_eq_some_iff.mp hr
  rw [length] at hn
  obtain ⟨r'', hr'', on⟩ := on n _ (List.getElem?_eq_getElem hn)
  obtain rfl := Option.some.inj (hr.symm.trans hr'')
  exact ⟨_, List.getElem?_eq_getElem hn, on⟩

theorem length_letGo (c : Cluster) (i : Nat) : (c.letGo i).runs.length = c.runs.length := by
  rcases c.letGo_cases i with ⟨runs, -⟩ | ⟨r, -, runs, -⟩ <;> simp [runs]

/-- The channel of a run that is over is given up without loss. -/
theorem events_letGo_of_spent {n : Nat} {r : Run} (run : c.runs[n]? = some r) (spent : r.Spent) :
    (c.letGo n).events = c.events := by
  rcases c.letGo_cases n with ⟨-, events⟩ | ⟨q, hq, -, events⟩
  · exact events
  · obtain rfl := Option.some.inj (run.symm.trans hq)
    rw [events, (Run.reap_same (r := { r with kept := false }) (.inr spent.2)).2]
    rfl

/-- No act undoes what has ended. -/
theorem runsGoOn_of_change (change : Change k a c d) : c.RunsGoOn d := by
  cases change with
  | quiet _ runs | pushed _ _ _ runs | released _ _ _ _ _ _ _ _ runs
  | releaseFailed _ _ _ _ _ _ _ _ _ _ runs | recovered _ _ _ runs => exact runsGoOn_same runs
  | fetched i r m run live move contents runs =>
      exact runsGoOn_set run runs ((Run.continues_fetched rfl live move).trans
        (Run.continues_reap _))
  | worked i j r w m run worker move panic contents runs left events live =>
      exact runsGoOn_set run runs ((Run.continues_worked rfl worker live move).trans
        (Run.continues_reap _))
  | launched r hand buffer working calling contents runs =>
      exact runsGoOn_concat runs
  | drained n i r call run stage draining contents runs =>
      exact runsGoOn_set run runs (Run.continues_discard r)
  | letGo i cause contents runs | forfeited n i call act stage stopping contents runs =>
      intro n q hq
      rw [runs]
      exact c.runsGoOn_letGo i n q hq

/-! ### Tokens -/

end Cluster

theorem Fetcher.tokens_of_step {s : Setting} {sh : Shared} {f : Fetcher} {m : Moved Fetcher}
    (h : f.step s sh = some m) : m.shared.tokens = sh.tokens := by
  cases f with
  | starting | returning | undoing | releasing | stopping =>
      cases h
      rfl
  | stopped | panicked => cases h
  | checking | popping | holding | loading | stamping | offering | sending | pausing =>
      simp only [step] at h
      repeat' split at h
      all_goals
        cases h
        try rfl

theorem Worker.grows_finish (s : Setting) (sh : Shared) (call : Execution) (outcome : Outcome) :
    sh.tokens.Grows (finish s sh call outcome).shared.tokens :=
  Cancellation.grows_cancel _ _

theorem Worker.grows_of_step {s : Setting} {sh : Shared} {gone : Bool} {w : Worker}
    {m : Moved Worker} (h : w.step s sh gone = some m) : sh.tokens.Grows m.shared.tokens := by
  cases w with
  | starting | stopping =>
      cases h
      exact .refl _
  | stopped | panicked => cases h
  | idle | receiving | settling claim =>
      simp only [step] at h
      repeat' split at h
      all_goals
        cases h
        exact .refl _
  | beginning claim =>
      simp only [step] at h
      repeat' split at h
      all_goals
        cases h
        first | exact Cancellation.grows_child _ _ | exact .refl _
  | executing call =>
      simp only [step] at h
      split at h
      · cases h
        exact grows_finish _ _ _ _
      · cases h

theorem Worker.grows_of_returns {s : Setting} {sh : Shared} {result : CallResult} {w : Worker}
    {m : Moved Worker} (h : w.returns s sh result = some m) :
    sh.tokens.Grows m.shared.tokens := by
  cases w with
  | executing call =>
      cases result with
      | succeeded | failed e =>
          cases h
          exact grows_finish _ _ _ _
      | panicked =>
          cases h
          exact .refl _
  | _ => cases h

namespace Cluster

@[simp] theorem tokens_letGo (c : Cluster) (i : Nat) : (c.letGo i).tokens = c.tokens := by
  unfold letGo; split <;> rfl

theorem grows_call {n : Nat} (h : c.stepCall n = some d) : c.tokens.Grows d.tokens := by
  obtain ⟨call, hd, -, -, step⟩ := stepCall_cases h
  cases step with
  | entered request stage entry =>
      cases entry with
      | answered _ _ _ eq | pushed _ _ _ _ _ eq | recovering _ _ _ eq =>
          subst eq
          exact .refl _
      | launched parent asked lock running eq =>
          subst eq
          exact Cancellation.grows_child _ parent
      | taken run r asked lock runtime at_run eq =>
          subst eq
          exact Cancellation.grows_cancel _ _
  | joined _ _ _ _ _ _ _ _ eq | drained _ _ _ _ eq | released _ _ _ _ eq
  | recovered _ _ _ _ _ _ _ eq =>
      subst eq
      exact .refl _
  | ended i stage eq =>
      subst eq
      show c.tokens.Grows (c.letGo i).tokens
      rw [tokens_letGo]
      exact .refl _

theorem grows_perform (h : c.perform a = some d) : c.tokens.Grows d.tokens := by
  cases a with
  | step p =>
      cases p with
      | fetcher run =>
          obtain ⟨r, hd, m, -, -, hm, rfl⟩ := stepFetcher_cases h
          show c.tokens.Grows m.shared.tokens
          rw [Fetcher.tokens_of_step hm]
          exact .refl _
      | worker run index =>
          obtain ⟨r, hd, w, m, -, -, -, hm, rfl⟩ := stepWorker_cases h
          exact Worker.grows_of_step hm
      | call index => exact grows_call h
      | sweeper index =>
          obtain ⟨s, hd, stage, memory, es, -, -, -, -, rfl⟩ := stepSweeper_cases h
          exact .refl _
      | disposal handle =>
          obtain ⟨hd, -, -, ⟨-, rfl⟩ | ⟨run, r, -, -, rfl⟩⟩ := stepDisposal_cases h
          · exact .refl _
          · rw [tokens_letGo]
            exact Cancellation.grows_cancel _ _
  | executorReturns i j result =>
      obtain ⟨r, hd, w, m, -, -, -, hm, rfl⟩ := executorReturns_cases h
      exact Worker.grows_of_returns hm
  | build n options =>
      obtain rfl := build_of_perform h
      exact .refl _
  | invoke i request =>
      obtain ⟨-, rfl⟩ := invoke_of_perform h
      exact .refl _
  | sweep i t config =>
      rcases sweep_of_perform h with rfl | rfl
      all_goals exact .refl _
  | abandon n =>
      cases h
      rcases c.abandon_cases n with he | ⟨call, -, ⟨-, he⟩ | ⟨i, -, he⟩⟩ <;> rw [he]
      · exact .refl _
      · exact .refl _
      · show c.tokens.Grows (letGo _ i).tokens
        rw [tokens_letGo]
        exact .refl _
  | newToken =>
      cases h
      exact Cancellation.grows_fresh _
  | cancel t =>
      cases h
      exact Cancellation.grows_cancel _ _
  | drop i | failNext point count | elapse t =>
      cases h
      exact .refl _

/-! ### Cancelled runs -/

/-- Run `n` is cancelled. -/
def Cancelled (n : Nat) (c : Cluster) : Prop :=
  ∃ r, c.runs[n]? = some r ∧ c.tokens.isCancelled r.token = true

/-! ### Loops that have ended -/

/-- No loop of run `n` can take a step, whatever its executor does. -/
def Still (n : Nat) (c : Cluster) : Prop :=
  c.stepFetcher n = none ∧ (∀ j, c.stepWorker n j = none) ∧
    ∀ j result, c.executorReturns n j result = none

theorem still_of_spent {n : Nat} {r : Run} (hr : c.runs[n]? = some r) (spent : r.Spent) :
    c.Still n := by
  rw [Run.spent_iff] at spent
  obtain ⟨dead, ended, -⟩ := spent
  refine ⟨?_, fun j => ?_, fun j result => ?_⟩
  · refine Option.eq_none_iff_forall_ne_some.mpr fun d h => ?_
    obtain ⟨q, hd, m, hq, -, hm, -⟩ := stepFetcher_cases h
    obtain rfl := Option.some.inj (hr.symm.trans hq)
    rw [Fetcher.isLive_of_step hm] at dead
    cases dead
  · refine Option.eq_none_iff_forall_ne_some.mpr fun d h => ?_
    obtain ⟨q, hd, w, m, hq, -, hw, hm, -⟩ := stepWorker_cases h
    obtain rfl := Option.some.inj (hr.symm.trans hq)
    have := ended j w hw
    rw [Worker.isLive_of_step hm] at this
    cases this
  · refine Option.eq_none_iff_forall_ne_some.mpr fun d h => ?_
    obtain ⟨q, hd, w, m, hq, -, hw, hm, -⟩ := executorReturns_cases h
    obtain rfl := Option.some.inj (hr.symm.trans hq)
    have := ended j w hw
    rw [Worker.isLive_of_returns hm] at this
    cases this

/-! ### Whole runs -/

theorem RunsGoOn.of_reaches {ok : Cluster → Act → Prop} (h : Reaches ok c d)
    (one : ∀ c a, ok c a → OnQueue name c a) (named : c.Named name) : c.RunsGoOn d := by
  refine (h.invariant (I := fun d => d.Named name ∧ c.RunsGoOn d)
    ⟨named, runsGoOn_same rfl⟩ ?_).2
  rintro b a d ⟨named, on⟩ ok hp
  exact ⟨named.perform (one b a ok) hp, on.trans (runsGoOn_of_change (change_of_perform named hp))⟩

end Cluster

end Queue

end ReliableQueue
