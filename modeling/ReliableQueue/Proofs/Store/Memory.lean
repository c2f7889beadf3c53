import ReliableQueue.Store.Pop
import ReliableQueue.Proofs.Store.Contents

/-!
What each access of a store in memory can do. An access that fails has met an armed
fault point and leaves the contents alone; one that succeeds has exactly the effect of
its command.
-/

namespace ReliableQueue.Store

namespace Memory

/-- No access of the store fails. -/
def Sound (m : Memory) : Prop := ∀ p, m.faults p = 0

instance (m : Memory) : Decidable m.Sound :=
  decidable_of_iff (∀ p ∈ FaultPoint.all, m.faults p = 0)
    ⟨fun h p => h p (by cases p <;> decide), fun h p _ => h p⟩

variable {m m' : Memory}

theorem guarded_injected {α : Type} {p : FaultPoint} {act : Memory → α × Memory} {e : Error}
    (h : m.guarded p act = (.error e, m')) :
    ∃ n, m.faults p = n + 1 ∧ e = .injected p.name ∧ m' = m.failNext p n := by
  unfold guarded at h
  split at h
  · cases h
  · next n left =>
      cases h
      exact ⟨n, left, rfl, rfl⟩

theorem guarded_error {α : Type} {p : FaultPoint} {act : Memory → α × Memory} {e : Error}
    (h : m.guarded p act = (.error e, m')) : m.faults p ≠ 0 ∧ m'.contents = m.contents := by
  obtain ⟨n, left, -, rfl⟩ := guarded_injected h
  exact ⟨by omega, rfl⟩

theorem guarded_ok {α : Type} {p : FaultPoint} {act : Memory → α × Memory} {a : α}
    (h : m.guarded p act = (.ok a, m')) : act m = (a, m') := by
  unfold guarded at h
  split at h
  · simp only [Prod.mk.injEq, Except.ok.injEq] at h
    exact Prod.ext h.1 h.2
  · cases h

theorem guarded_of_none {α : Type} {p : FaultPoint} (h : m.faults p = 0)
    (act : Memory → α × Memory) : m.guarded p act = (.ok (act m).1, (act m).2) := by
  simp only [guarded, h]

theorem guarded_of_some {α : Type} {p : FaultPoint} {e : Nat}
    (h : m.faults p = e + 1) (act : Memory → α × Memory) :
    m.guarded p act = (.error (.injected p.name), m.failNext p e) := by
  simp only [guarded, h]

@[simp] theorem faults_failNext (m : Memory) (p q : FaultPoint) (n : Nat) :
    (m.failNext p n).faults q = if q = p then n else m.faults q := rfl

theorem look_error {key : String} {e : Error} (h : m.look key = (.error e, m')) :
    m.faults .blpop ≠ 0 ∧ m'.contents = m.contents := guarded_error h

theorem look_none {key : String} (h : m.look key = (.ok none, m')) :
    m.contents.list key = [] ∧ m' = m := by
  have ha := guarded_ok h
  split at ha
  · next hl => exact ⟨hl, (Prod.mk.inj ha).2.symm⟩
  · cases ha

theorem look_some {key x : String} (h : m.look key = (.ok (some x), m')) :
    ∃ rest, m.contents.list key = x :: rest ∧
      m' = { m with contents := m.contents.setList key rest } := by
  have ha := guarded_ok h
  split at ha
  · cases ha
  · next y rest hl =>
      simp only [Prod.mk.injEq, Option.some.injEq] at ha
      obtain ⟨rfl, rfl⟩ := ha
      exact ⟨rest, hl, rfl⟩

theorem lpush_error {key value : String} {e : Error} (h : m.lpush key value = (.error e, m')) :
    m.faults .lpush ≠ 0 ∧ m'.contents = m.contents := guarded_error h

theorem lpush_ok {key value : String} {u : Unit} (h : m.lpush key value = (.ok u, m')) :
    m'.contents = m.contents.apply (.lpush key value) := by
  have ha := guarded_ok h
  simp only [Prod.mk.injEq] at ha
  rw [← ha.2]
  rfl

theorem hget_error {key field : String} {e : Error} (h : m.hget key field = (.error e, m')) :
    m.faults .hget ≠ 0 ∧ m'.contents = m.contents := guarded_error h

theorem hget_ok {key field : String} {b : Option Text.Bytes}
    (h : m.hget key field = (.ok b, m')) : m.contents.field? key field = b ∧ m' = m := by
  have ha := guarded_ok h
  simp only [Prod.mk.injEq] at ha
  exact ⟨ha.1, ha.2.symm⟩

theorem zadd_error {key member : String} {s : Binary64} {e : Error}
    (h : m.zadd key member s = (.error e, m')) :
    m.faults .zadd ≠ 0 ∧ m'.contents = m.contents := guarded_error h

theorem zadd_ok {key member : String} {s : Binary64} {u : Unit}
    (h : m.zadd key member s = (.ok u, m')) :
    m'.contents = m.contents.setScore key member s := by
  have ha := guarded_ok h
  simp only [Prod.mk.injEq] at ha
  rw [← ha.2]

theorem zrangebyscore_error {key : String} {max : Binary64} {e : Error}
    (h : m.zrangebyscore key max = (.error e, m')) :
    m.faults .zrangebyscore ≠ 0 ∧ m'.contents = m.contents := guarded_error h

theorem zrangebyscore_ok {key : String} {max : Binary64} {ids : List String}
    (h : m.zrangebyscore key max = (.ok ids, m')) :
    ids = m.contents.range key max ∧ m' = m := by
  have ha := guarded_ok h
  simp only [Prod.mk.injEq] at ha
  exact ⟨ha.1.symm, ha.2.symm⟩

theorem exec_error {b : Batch} {e : Error} (h : m.exec b = (.error e, m')) :
    m.faults .exec ≠ 0 ∧ m'.contents = m.contents := by
  unfold exec at h
  split at h
  · cases h
  · exact guarded_error h

theorem exec_ok {b : Batch} {u : Unit} (h : m.exec b = (.ok u, m')) :
    m'.contents = m.contents.applyAll b.commands := by
  unfold exec at h
  split at h
  · next hb =>
      have hc : b.commands = [] := by simpa [Batch.isEmpty] using hb
      rw [← (Prod.mk.inj h).2, hc]
      rfl
  · have ha := guarded_ok h
    simp only [Prod.mk.injEq] at ha
    rw [← ha.2]
    split <;> rfl

theorem exec_of_some {e : Nat} {b : Batch} (h : m.faults .exec = e + 1)
    (some : b.isEmpty = false) :
    m.exec b = (.error (.injected "exec"), m.failNext .exec e) := by
  rw [exec, some, if_neg Bool.false_ne_true]
  exact guarded_of_some h _

theorem exec_of_none (h : m.faults .exec = 0) (b : Batch) :
    ∃ m', m.exec b = (.ok (), m') ∧ m'.faults = m.faults ∧
      m'.contents = m.contents.applyAll b.commands := by
  have ran : ∃ m', m.exec b = (.ok (), m') ∧ m'.faults = m.faults := by
    unfold exec
    split
    · exact ⟨m, rfl, rfl⟩
    · rw [guarded_of_none h]
      refine ⟨_, rfl, ?_⟩
      dsimp only
      split <;> rfl
  obtain ⟨m', ran, faults⟩ := ran
  exact ⟨m', ran, faults, exec_ok ran⟩

end Memory

namespace Pop

variable {p : Pop} {key : String} {now : Instant} {m m' : Memory}

theorem step_waiting {q : Pop} (h : p.step key now m = some (.waiting q, m')) : m' = m := by
  unfold step at h
  repeat' split at h
  all_goals simp only [Option.some.injEq, Prod.mk.injEq, reduceCtorEq, false_and] at h
  next hl => rw [← h.2, (Memory.look_none hl).2]

theorem step_error {e : Error} (h : p.step key now m = some (.done (.error e), m')) :
    m.faults .blpop ≠ 0 ∧ m'.contents = m.contents := by
  unfold step at h
  repeat' split at h
  all_goals simp only [Option.some.injEq, Prod.mk.injEq, Outcome.done.injEq, Except.error.injEq,
    reduceCtorEq, false_and] at h
  next hl =>
    rw [← h.2]
    exact Memory.look_error hl

theorem step_none (h : p.step key now m = some (.done (.ok none), m')) : m' = m := by
  unfold step at h
  repeat' split at h
  all_goals simp only [Option.some.injEq, Prod.mk.injEq, Outcome.done.injEq, Except.ok.injEq,
    reduceCtorEq, false_and] at h
  exact h.2.symm

theorem step_some {x : String} (h : p.step key now m = some (.done (.ok (some x)), m')) :
    ∃ rest, m.contents.list key = x :: rest ∧
      m'.contents = m.contents.setList key rest := by
  unfold step at h
  repeat' split at h
  all_goals simp only [Option.some.injEq, Prod.mk.injEq, Outcome.done.injEq, Except.ok.injEq,
    reduceCtorEq, false_and] at h
  next hl =>
    obtain ⟨rfl, rfl⟩ := h
    obtain ⟨rest, filled, rfl⟩ := Memory.look_some hl
    exact ⟨rest, filled, rfl⟩

end Pop

end ReliableQueue.Store
