import ReliableQueue.Proofs.Queue.Changes

/-!
Injected failures are only used up: nothing but the order to fail makes accesses fail. So where
no access of a kind is made to fail, none of that kind does.
-/

namespace ReliableQueue

namespace Store

variable {m m' : Memory} {q : FaultPoint}

namespace Memory

theorem faults_guarded {α : Type} {p : FaultPoint} {act : Memory → α × Memory}
    (keeps : (act m).2.faults = m.faults) : (m.guarded p act).2.faults q ≤ m.faults q := by
  cases fault : m.faults p with
  | zero =>
      rw [guarded_of_none fault]
      exact Nat.le_of_eq (congrFun keeps q)
  | succ e =>
      rw [guarded_of_some fault, faults_failNext]
      split
      · next same =>
          rw [same, fault]
          exact Nat.le_succ e
      · exact Nat.le_refl _

theorem faults_look (key : String) : (m.look key).2.faults q ≤ m.faults q :=
  faults_guarded (by split <;> rfl)

theorem faults_lpush (key value : String) : (m.lpush key value).2.faults q ≤ m.faults q :=
  faults_guarded rfl

theorem faults_hget (key field : String) : (m.hget key field).2.faults q ≤ m.faults q :=
  faults_guarded rfl

theorem faults_zadd (key member : String) (s : Binary64) :
    (m.zadd key member s).2.faults q ≤ m.faults q :=
  faults_guarded rfl

theorem faults_zrangebyscore (key : String) (max : Binary64) :
    (m.zrangebyscore key max).2.faults q ≤ m.faults q :=
  faults_guarded rfl

theorem faults_exec (b : Batch) : (m.exec b).2.faults q ≤ m.faults q := by
  unfold exec
  split
  · exact Nat.le_refl _
  · exact faults_guarded (by dsimp only; split <;> rfl)

end Memory

theorem Pop.faults_step {p : Pop} {key : String} {now : Instant} {o : Pop.Outcome}
    (h : p.step key now m = some (o, m')) : m'.faults q ≤ m.faults q := by
  have looked := m.faults_look (q := q) key
  unfold step at h
  repeat' split at h
  all_goals cases h
  any_goals exact Nat.le_refl _
  all_goals simp_all only

end Store

namespace Queue

open Store (Memory)

variable {k : Keys} {p : Store.FaultPoint}

theorem faults_requeue (id : String) (m : Memory) :
    (requeue k id m).2.faults p ≤ m.faults p := by
  have pushed := m.faults_lpush (q := p) k.pending id
  unfold requeue
  split <;> simp_all only

theorem faults_release (id : String) (m : Memory) :
    (release k id m).2.faults p ≤ m.faults p := by
  have run := m.faults_exec (q := p) (releaseBatch k id)
  unfold release
  split <;> simp_all only

theorem Fetcher.faults_step {s : Setting} {sh : Shared} {f : Fetcher} {m : Moved Fetcher}
    (h : f.step s sh = some m) : m.shared.memory.faults p ≤ sh.memory.faults p := by
  cases f with
  | starting | stopping =>
      cases h
      exact Nat.le_refl _
  | stopped | panicked => cases h
  | checking | holding | offering | sending | pausing =>
      simp only [step] at h
      repeat' split at h
      all_goals cases h
      all_goals exact Nat.le_refl _
  | popping pop =>
      simp only [step] at h
      split at h
      · cases h
      all_goals
        next moved =>
          cases h
          exact Store.Pop.faults_step moved
  | returning id | undoing id cause =>
      cases h
      exact faults_requeue id sh.memory
  | releasing claim =>
      cases h
      exact faults_release claim.id sh.memory
  | loading id =>
      have looked := sh.memory.faults_hget (q := p) s.keys.payloads id
      simp only [step] at h
      split at h <;> next got => rw [got] at looked; cases h; exact looked
  | stamping claim =>
      have added := sh.memory.faults_zadd (q := p) s.keys.processing claim.id s.stamp
      simp only [step] at h
      split at h <;> next got => rw [got] at added; cases h; exact added

theorem Worker.faults_step {s : Setting} {sh : Shared} {gone : Bool} {w : Worker}
    {m : Moved Worker} (h : w.step s sh gone = some m) :
    m.shared.memory.faults p ≤ sh.memory.faults p := by
  cases w with
  | starting | stopping =>
      cases h
      exact Nat.le_refl _
  | stopped | panicked => cases h
  | idle | receiving | beginning | executing =>
      simp only [step] at h
      repeat' split at h
      all_goals cases h
      all_goals exact Nat.le_refl _
  | settling claim =>
      have run := sh.memory.faults_exec (q := p) (settleBatch s.keys claim)
      simp only [step] at h
      split at h <;> next got => rw [got] at run; cases h; exact run

theorem Worker.faults_returns {s : Setting} {sh : Shared} {result : CallResult} {w : Worker}
    {m : Moved Worker} (h : w.returns s sh result = some m) :
    m.shared.memory = sh.memory := by
  cases w with
  | executing call => cases result <;> cases h <;> rfl
  | _ => cases h

theorem Recovery.faults_step {maxAge : Span} {second : Nat} {m m' : Memory} {r : Recovery}
    {o : Outcome} {es : List Event} (h : r.step k maxAge second m = (o, m', es)) :
    m'.faults p ≤ m.faults p := by
  cases r with
  | ranging =>
      have ranged := m.faults_zrangebyscore (q := p) k.processing (cutoff second maxAge)
      simp only [step] at h
      split at h <;> next got => rw [got] at ranged; cases h; exact ranged
  | restoring left count =>
      cases left with
      | nil =>
          cases h
          exact Nat.le_refl _
      | cons id rest =>
          have run := m.faults_exec (q := p) (recoveryBatch k id)
          simp only [step] at h
          split at h <;> next got => rw [got] at run; cases h; exact run

theorem Sweeper.faults_step {s : Sweeper} {epoch : Nat} {now : Instant} {cancelled : Bool}
    {m m' : Memory} {stage : Stage} {es : List Event}
    (h : s.step k epoch now cancelled m = some (stage, m', es)) : m'.faults p ≤ m.faults p := by
  rcases Sweeper.step_cases h with ⟨rfl, -⟩ | ⟨r, o, es', extra, -, step, -⟩
  · exact Nat.le_refl _
  · exact Recovery.faults_step step

namespace Cluster

variable {c d : Cluster} {a : Act}

theorem faults_enter {n i : Nat} {hd : Handle} {request : Request}
    (h : c.enter n i hd request = some d) : d.memory.faults p ≤ c.memory.faults p := by
  cases request with
  | push tasks =>
      cases tasks with
      | nil =>
          cases h
          exact Nat.le_refl _
      | cons t rest =>
          have run := c.memory.faults_exec (q := p) (pushBatch hd.keys (t :: rest))
          simp only [enter] at h
          split at h <;> next got => rw [got] at run; cases h; exact run
  | queueLength | processingCount =>
      cases h
      exact Nat.le_refl _
  | start | stop | recover =>
      simp only [enter] at h
      repeat' split at h
      all_goals cases h
      all_goals exact Nat.le_refl _

theorem faults_call {n : Nat} (h : c.stepCall n = some d) :
    d.memory.faults p ≤ c.memory.faults p := by
  obtain ⟨call, hd, hc, hh, step⟩ := stepCall_cases h
  cases step with
  | entered request stage =>
      simp only [stepCall, hc, hh, stage, Option.bind_eq_bind, Option.bind_some] at h
      exact faults_enter h
  | joined _ _ _ _ _ _ _ _ eq | drained _ _ _ _ eq =>
      rw [eq]
      exact Nat.le_refl _
  | released i claim rest stage eq =>
      rw [eq]
      exact faults_release claim.id c.memory
  | ended i stage eq =>
      rw [eq]
      exact Nat.le_of_eq (by simp)
  | recovered maxAge recovery o memory es stage step eq =>
      rw [eq]
      exact Recovery.faults_step step

/-- Only the order to fail makes accesses fail. -/
theorem faults_perform (h : c.perform a = some d) :
    d.memory.faults p ≤ c.memory.faults p ∨ ∃ count, a = .failNext p count := by
  cases a with
  | step process =>
      left
      cases process with
      | fetcher run =>
          obtain ⟨r, hd, m, -, -, step, rfl⟩ := stepFetcher_cases h
          exact Fetcher.faults_step step
      | worker run index =>
          obtain ⟨r, hd, w, m, -, -, -, step, rfl⟩ := stepWorker_cases h
          exact Worker.faults_step step
      | call n => exact faults_call h
      | sweeper n =>
          obtain ⟨s, hd, stage, memory, es, -, -, -, step, rfl⟩ := stepSweeper_cases h
          exact Sweeper.faults_step step
      | disposal i =>
          obtain ⟨hd, -, -, ⟨-, rfl⟩ | ⟨run, r, -, -, rfl⟩⟩ := stepDisposal_cases h
          · exact Nat.le_refl _
          · exact Nat.le_of_eq (by simp)
  | executorReturns run index result =>
      obtain ⟨r, hd, w, m, -, -, -, step, rfl⟩ := executorReturns_cases h
      exact .inl (Nat.le_of_eq (congrArg (·.faults p) (Worker.faults_returns step)))
  | failNext q count =>
      cases h
      rcases Decidable.em (p = q) with rfl | apart
      · exact .inr ⟨count, rfl⟩
      · exact .inl (Nat.le_of_eq (if_neg apart))
  | build name options =>
      obtain rfl := build_of_perform h
      exact .inl (Nat.le_refl _)
  | invoke i request =>
      obtain ⟨-, rfl⟩ := invoke_of_perform h
      exact .inl (Nat.le_refl _)
  | sweep i t config =>
      rcases sweep_of_perform h with rfl | rfl <;> exact .inl (Nat.le_refl _)
  | abandon n =>
      cases h
      rcases c.abandon_cases n with eq | ⟨call, -, ⟨-, eq⟩ | ⟨i, -, eq⟩⟩ <;> rw [eq]
      · exact .inl (Nat.le_refl _)
      · exact .inl (Nat.le_refl _)
      · exact .inl (Nat.le_of_eq (by simp))
  | drop i | newToken | cancel t | elapse t =>
      cases h
      exact .inl (Nat.le_refl _)

end Cluster

end Queue

end ReliableQueue
