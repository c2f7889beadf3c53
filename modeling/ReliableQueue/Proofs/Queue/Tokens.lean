import ReliableQueue.Proofs.Queue.Abandonment

/-!
Tokens. Each of them is made in one moment and for one holder, which is a caller, a run or a call
of an executor, and bears a number that no other has. What cancels a token is said once, for every
act.
-/

namespace ReliableQueue

/-- `u` is `v`, or descends from it. -/
def Token.Within (u v : Token) : Prop := ∃ n, v.lineage.head? = some n ∧ n ∈ u.lineage

namespace Cancellation

variable {c d : Cancellation} {u v : Token} {n : Nat}

theorem isCancelled_iff : c.isCancelled u = true ↔ ∃ n ∈ u.lineage, n ∈ c.cancelled := by
  simp only [isCancelled, List.any_eq_true, List.contains_iff_mem]

theorem mem_cancel_iff :
    n ∈ (c.cancel v).cancelled ↔ v.lineage.head? = some n ∨ n ∈ c.cancelled := by
  unfold cancel
  split
  · next none => simp [none]
  · next m rest own =>
      split
      · next before =>
          simp only [own, List.head?_cons, Option.some.injEq, iff_or_self]
          exact fun same => same ▸ before
      · simp only [own, List.head?_cons, Option.some.injEq, List.mem_cons, eq_comm]

@[simp] theorem next_cancel (c : Cancellation) (v : Token) : (c.cancel v).next = c.next := by
  unfold cancel
  repeat' split
  all_goals rfl

theorem mem_of_grows (grows : c.Grows d) (h : n ∈ c.cancelled) : n ∈ d.cancelled := by
  have before : c.isCancelled ⟨[n]⟩ = true := isCancelled_iff.mpr ⟨n, List.mem_singleton_self n, h⟩
  obtain ⟨m, hm, after⟩ := isCancelled_iff.mp (grows _ before)
  exact List.mem_singleton.mp hm ▸ after

end Cancellation

namespace Queue

variable {i j k : Nat} {a : Act} {c d : Cluster} {u v : Token} {t : Moment} {r : Run}
  {call : Execution} {parent : Token}

/-- For whom a token was made. -/
inductive Holder where
  | caller
  | run (i : Nat)
  | call (i j : Nat)
deriving DecidableEq

namespace Moment

/-- Worker `j` of run `i` begins a call. -/
structure BeginsCall (i j : Nat) (call : Execution) (t : Moment) : Prop where
  act : t.act = .step (.worker i j)
  ready : ∃ claim, t.before.worker? i j = some (.beginning claim)
  under : t.after.worker? i j = some (.executing call)

/-- The call of worker `j` of run `i` ends, in whatever way. -/
structure EndsCall (i j : Nat) (call : Execution) (t : Moment) : Prop where
  own : t.act.isOf i j = true
  under : t.before.worker? i j = some (.executing call)

/-- A stop call on the handle of run `i` takes the run. -/
def StopsRun (i : Nat) (t : Moment) : Prop := ∃ s r, t.Takes r.handle s i r

/-- The handle of run `i` comes to its end, and has the run. -/
structure DropsRun (i : Nat) (t : Moment) : Prop where
  handle : ∃ r h, t.before.runs[i]? = some r ∧ t.before.handles[r.handle]? = some h ∧
    h.runtime = some i ∧ t.act = .step (.disposal r.handle)

/-- A moment makes a token for a holder. -/
inductive Makes (t : Moment) : Token → Holder → Prop where
  | caller (act : t.act = .newToken) : Makes t t.before.tokens.fresh.1 .caller
  | run {i : Nat} {parent : Token} {r : Run} (launches : t.Launches i parent r) :
      Makes t r.token (.run i)
  | call {i j : Nat} {call : Execution} (begins : t.BeginsCall i j call) :
      Makes t call.token (.call i j)

/-- A moment makes one token at most. -/
theorem Makes.unique {x y : Holder} (hu : t.Makes u x) (hv : t.Makes v y) : u = v ∧ x = y := by
  cases hu with
  | caller act =>
      cases hv with
      | caller act' => exact ⟨rfl, rfl⟩
      | run launches =>
          obtain ⟨n, h, act', -⟩ := launches.asked
          cases act.symm.trans act'
      | call begins => cases act.symm.trans begins.act
  | run launches =>
      obtain ⟨n, h, act, -⟩ := launches.asked
      cases hv with
      | caller act' => cases act.symm.trans act'
      | run launches' =>
          cases List.append_cancel_left (launches.runs.symm.trans launches'.runs)
          exact ⟨rfl, by rw [launches.number, launches'.number]⟩
      | call begins => cases act.symm.trans begins.act
  | call begins =>
      cases hv with
      | caller act' => cases begins.act.symm.trans act'
      | run launches =>
          obtain ⟨n, h, act', -⟩ := launches.asked
          cases begins.act.symm.trans act'
      | call begins' =>
          cases begins.act.symm.trans begins'.act
          cases begins.under.symm.trans begins'.under
          exact ⟨rfl, rfl⟩

end Moment

/-! ### What loops do to tokens -/

/-- A worker cancels no token but the one of a call that ends. -/
theorem Worker.tokens_of_step {s : Setting} {sh : Shared} {gone : Bool} {w : Worker}
    {m : Moved Worker} (h : w.step s sh gone = some m) :
    (sh.tokens.next ≤ m.shared.tokens.next ∧
      m.shared.tokens.cancelled = sh.tokens.cancelled) ∨
    ∃ call, w = .executing call ∧ m.shared.tokens = sh.tokens.cancel call.token := by
  cases w with
  | starting | stopping =>
      cases h
      exact .inl ⟨Nat.le_refl _, rfl⟩
  | stopped | panicked => cases h
  | idle | receiving | settling claim =>
      simp only [step] at h
      repeat' split at h
      all_goals
        cases h
        try exact .inl ⟨Nat.le_refl _, rfl⟩
  | beginning claim =>
      simp only [step] at h
      repeat' split at h
      all_goals
        cases h
        first | exact .inl ⟨Nat.le_succ _, rfl⟩ | exact .inl ⟨Nat.le_refl _, rfl⟩
  | executing call =>
      simp only [step] at h
      split at h
      · cases h
        exact .inr ⟨call, rfl, rfl⟩
      · cases h

theorem Worker.tokens_of_returns {s : Setting} {sh : Shared} {result : CallResult} {w : Worker}
    {m : Moved Worker} (h : w.returns s sh result = some m) :
    m.shared.tokens = sh.tokens ∨
      ∃ call, w = .executing call ∧ m.shared.tokens = sh.tokens.cancel call.token := by
  cases w with
  | executing call =>
      cases result with
      | succeeded | failed e =>
          cases h
          exact .inr ⟨call, rfl, rfl⟩
      | panicked =>
          cases h
          exact .inl rfl
  | _ => cases h

/-- Only the step that begins a call leads to a call under way, and gives it a token of its own. -/
theorem Worker.executing_of_step {s : Setting} {sh : Shared} {gone : Bool} {w : Worker}
    {m : Moved Worker} (h : w.step s sh gone = some m) (under : m.loop = .executing call) :
    (∃ claim, w = .beginning claim) ∧ call.token = (sh.tokens.child s.token).1 ∧
      m.shared.tokens = (sh.tokens.child s.token).2 := by
  cases w with
  | starting | stopping =>
      cases h
      cases under
  | stopped | panicked => cases h
  | idle | receiving | settling claim =>
      simp only [step] at h
      repeat' split at h
      all_goals
        cases h
        try cases under
  | beginning claim =>
      simp only [step] at h
      repeat' split at h
      all_goals
        cases h
        cases under
        try exact ⟨⟨claim, rfl⟩, rfl, rfl⟩
  | executing old =>
      simp only [step] at h
      split at h <;> cases h
      cases under

theorem Worker.executing_of_returns {s : Setting} {sh : Shared} {result : CallResult} {w : Worker}
    {m : Moved Worker} (h : w.returns s sh result = some m) : m.loop ≠ .executing call := by
  cases w with
  | executing old => cases result <;> (cases h; rintro ⟨⟩)
  | _ => cases h

namespace Cluster

/-! ### What acts do to tokens -/

/-- What an act does to the tokens: it cancels none, or one, for one of a few causes. -/
inductive TokenChange (a : Act) (c d : Cluster) : Prop where
  | kept (next : c.tokens.next ≤ d.tokens.next) (cancelled : d.tokens.cancelled = c.tokens.cancelled)
  | cancelled (u : Token) (act : a = .cancel u) (tokens : d.tokens = c.tokens.cancel u)
  | ended (i j : Nat) (call : Execution) (ends : Moment.EndsCall i j call ⟨c, a, d⟩)
      (tokens : d.tokens = c.tokens.cancel call.token)
  | stopped (i : Nat) (r : Run) (run : c.runs[i]? = some r)
      (cause : Moment.StopsRun i ⟨c, a, d⟩ ∨ Moment.DropsRun i ⟨c, a, d⟩)
      (tokens : d.tokens = c.tokens.cancel r.token)

theorem TokenChange.same (tokens : d.tokens = c.tokens) : TokenChange a c d :=
  .kept (Nat.le_of_eq (by rw [tokens])) (by rw [tokens])

theorem tokens_of_stepCall {n : Nat} (standing : ∀ j, Standing True j c)
    (h : c.stepCall n = some d) : TokenChange (.step (.call n)) c d := by
  obtain ⟨call, hd, hc, hh, step⟩ := stepCall_cases h
  cases step with
  | entered request stage entry =>
      cases entry with
      | answered _ _ _ eq | pushed _ _ _ _ _ eq | recovering _ _ _ eq =>
          subst eq
          exact .same rfl
      | launched parent asked lock running eq =>
          subst eq
          exact .kept (Nat.le_succ _) rfl
      | taken i r asked lock runtime run eq =>
          subst asked
          obtain ⟨q, going⟩ := (standing call.handle).active_of hh runtime
          obtain rfl := Option.some.inj (run.symm.trans going.run)
          obtain ⟨hn, -⟩ := List.getElem?_eq_some_iff.mp hc
          have at_call : c.calls[n]? = some ⟨r.handle, .entering .stop⟩ := by
            rw [hc, going.own, ← stage]
          have calls : d.calls = c.calls.set n ⟨call.handle, .joining i 0⟩ := by
            rw [eq]
            exact calls_setCall_of rfl hc _
          refine .stopped i r run (.inl ⟨n, r, rfl, at_call, run, ?_⟩) (by rw [eq]; rfl)
          show d.calls[n]? = _
          rw [calls, List.getElem?_set_self hn, going.own]
  | joined _ _ _ _ _ _ _ _ eq | drained _ _ _ _ eq | released _ _ _ _ eq
  | recovered _ _ _ _ _ _ _ eq =>
      subst eq
      exact .same rfl
  | ended i stage eq =>
      subst eq
      exact .same (tokens_letGo c i)

theorem tokens_of_perform (standing : ∀ j, Standing True j c) (h : c.perform a = some d) :
    TokenChange a c d := by
  cases a with
  | step p =>
      cases p with
      | fetcher k =>
          obtain ⟨r, hd, m, -, -, hm, rfl⟩ := stepFetcher_cases h
          exact .same (Fetcher.tokens_of_step hm)
      | worker k l =>
          obtain ⟨r, hd, w, m, run, -, worker, hm, rfl⟩ := stepWorker_cases h
          rcases Worker.tokens_of_step hm with ⟨next, cancelled⟩ | ⟨call, rfl, tokens⟩
          · exact .kept next cancelled
          · exact .ended k l call ⟨by simp [Act.isOf], (worker?_of_run run).trans worker⟩ tokens
      | call n => exact tokens_of_stepCall standing h
      | sweeper n =>
          obtain ⟨s, hd, stage, memory, es, -, -, -, -, rfl⟩ := stepSweeper_cases h
          exact .same rfl
      | disposal n =>
          obtain ⟨hd, hh, -, ⟨-, rfl⟩ | ⟨m, r, runtime, run, rfl⟩⟩ := stepDisposal_cases h
          · exact .same rfl
          · obtain ⟨q, going⟩ := (standing n).active_of hh runtime
            obtain rfl := Option.some.inj (run.symm.trans going.run)
            have own := going.own
            subst own
            exact .stopped m r run (.inr ⟨r, hd, run, hh, runtime, rfl⟩) (tokens_letGo _ m)
  | executorReturns k l result =>
      obtain ⟨r, hd, w, m, run, -, worker, hm, rfl⟩ := executorReturns_cases h
      rcases Worker.tokens_of_returns hm with same | ⟨call, rfl, tokens⟩
      · exact .same same
      · exact .ended k l call ⟨by simp [Act.isOf], (worker?_of_run run).trans worker⟩ tokens
  | build n options =>
      obtain rfl := build_of_perform h
      exact .same rfl
  | invoke k request =>
      obtain ⟨-, rfl⟩ := invoke_of_perform h
      exact .same rfl
  | sweep k t config =>
      rcases sweep_of_perform h with rfl | rfl
      all_goals exact .same rfl
  | abandon n =>
      cases h
      rcases c.abandon_cases n with eq | ⟨call, -, ⟨-, eq⟩ | ⟨m, -, eq⟩⟩ <;> rw [eq]
      · exact .same rfl
      · exact .same rfl
      · exact .same (tokens_letGo _ m)
  | newToken =>
      cases h
      exact .kept (Nat.le_succ _) rfl
  | cancel u =>
      cases h
      exact .cancelled u rfl rfl
  | drop k | failNext point count | elapse t =>
      cases h
      exact .same rfl

/-! ### What acts make -/

/-- A call of an executor is given a token of its own. -/
theorem token_of_begins (h : c.perform a = some d)
    (begins : Moment.BeginsCall i j call ⟨c, a, d⟩) :
    ∃ r, c.runs[i]? = some r ∧ call.token = (c.tokens.child r.token).1 ∧
      d.tokens = (c.tokens.child r.token).2 := by
  obtain ⟨act, -, under⟩ := begins
  subst act
  obtain ⟨r, hd, w, m, run, -, worker, step, rfl⟩ := stepWorker_cases h
  have loop := Option.some.inj ((worker?_settle run worker).symm.trans under)
  obtain ⟨-, token, tokens⟩ := Worker.executing_of_step step loop
  exact ⟨r, run, token, tokens⟩

/-- A call under way was there, or its worker has just begun it. -/
theorem call_or_begins (h : c.perform a = some d)
    (under : d.worker? i j = some (.executing call)) :
    c.worker? i j = some (.executing call) ∧ a.isOf i j = false ∨
      Moment.BeginsCall i j call ⟨c, a, d⟩ := by
  cases own : a.isOf i j with
  | false =>
      rcases worker_of_perform h own with same | ⟨-, new⟩
      · exact .inl ⟨same ▸ under, rfl⟩
      · rw [under] at new
        cases new
  | true =>
      right
      rcases Act.isOf_cases own with rfl | ⟨result, rfl⟩
      · obtain ⟨r, hd, w, m, run, -, worker, step, rfl⟩ := stepWorker_cases h
        have loop := Option.some.inj ((worker?_settle run worker).symm.trans under)
        obtain ⟨⟨claim, rfl⟩, -⟩ := Worker.executing_of_step step loop
        exact ⟨rfl, ⟨claim, (worker?_of_run run).trans worker⟩, under⟩
      · obtain ⟨r, hd, w, m, run, -, worker, returns, rfl⟩ := executorReturns_cases h
        have loop := Option.some.inj ((worker?_settle run worker).symm.trans under)
        exact (Worker.executing_of_returns returns loop).elim

/-- A token bears the number that was next when it was made. -/
theorem next_of_makes {x : Holder} (h : c.perform a = some d)
    (makes : Moment.Makes ⟨c, a, d⟩ u x) :
    u.lineage.head? = some c.tokens.next ∧ d.tokens.next = c.tokens.next + 1 := by
  cases makes with
  | caller act =>
      subst act
      cases h
      exact ⟨rfl, rfl⟩
  | run launches =>
      obtain ⟨token, tokens⟩ := token_of_launches h launches
      rw [token, tokens]
      exact ⟨rfl, rfl⟩
  | call begins =>
      obtain ⟨r, -, token, tokens⟩ := token_of_begins h begins
      rw [token, tokens]
      exact ⟨rfl, rfl⟩

end Cluster

end Queue

end ReliableQueue
