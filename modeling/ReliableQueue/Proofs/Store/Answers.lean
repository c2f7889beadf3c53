import Mathlib.Algebra.GroupWithZero.Nat
import ReliableQueue.Proofs.Store.Memory
import ReliableQueue.Scenario.StoreTrial

/-!
What a store in memory answers to calls that are made one after the other, where no failure is
left for them. Only a pop can wait, and nothing else comes while it does: it answers at once or, its
list being empty, no sooner than its deadline, and then in vain.
-/

namespace ReliableQueue.Store

open Scenario (StoreCall StoreReply StoreResult StoreTrial.immediate)

namespace Contents

/-- What a call is answered with, and what the store holds then. -/
def answer (c : Contents) : StoreCall → StoreReply × Contents
  | .exec batch => (.done, c.applyAll batch.commands)
  | .blpop key _ =>
      match c.list key with
      | [] => (.value none, c)
      | x :: rest => (.value (some x), c.setList key rest)
  | .lpush key value => (.done, c.apply (.lpush key value))
  | .llen key => (.number (c.list key).length, c)
  | .hget key field => (.bytes (c.field? key field), c)
  | .zadd key member score => (.done, c.setScore key member score)
  | .zrangebyscore key max => (.values (c.range key max), c)
  | .zcard key => (.number (c.sortedSet key).size, c)
  | .list key => (.values (c.list key), c)
  | .score key member => (.score (c.score? key member), c)
  | .hashLength key => (.number (c.hash key).size, c)

theorem answer_of_cons {c : Contents} {key x : String} {rest : List String} (timeout : Span)
    (filled : c.list key = x :: rest) :
    c.answer (.blpop key timeout) = (.value (some x), c.setList key rest) := by
  simp only [answer, filled]

theorem answer_of_nil {c : Contents} {key : String} (timeout : Span)
    (empty : c.list key = []) : c.answer (.blpop key timeout) = (.value none, c) := by
  simp only [answer, empty]

/-- Answers to calls, each with what the store holds after it. -/
def answers (c : Contents) : List StoreCall → List (StoreReply × Contents)
  | [] => []
  | call :: rest => c.answer call :: (c.answer call).2.answers rest

end Contents

/-- The place at which a call can be made to fail; reads of what a store holds and batches
without commands cannot be. -/
def point? : StoreCall → Option FaultPoint
  | .exec batch => if batch.isEmpty then none else some .exec
  | .blpop .. => some .blpop
  | .lpush .. => some .lpush
  | .hget .. => some .hget
  | .zadd .. => some .zadd
  | .zrangebyscore .. => some .zrangebyscore
  | .llen _ | .zcard _ | .list _ | .score .. | .hashLength _ => none

namespace Memory

variable {m : Memory}

/-- No failure is left at the place of a call. -/
def Spares (m : Memory) (call : StoreCall) : Prop := ∀ p, point? call = some p → m.faults p = 0

theorem Sound.spares (h : m.Sound) (call : StoreCall) : m.Spares call := fun p _ => h p

/-- A call that never waits is answered at once. -/
theorem immediate_of_spares {call : StoreCall} (h : m.Spares call)
    (at_once : ∀ key timeout, call ≠ .blpop key timeout) :
    ∃ m', StoreTrial.immediate m call = some (.ok (m.contents.answer call).1, m') ∧
      m'.contents = (m.contents.answer call).2 ∧ m'.faults = m.faults := by
  cases call with
  | exec batch =>
      obtain ⟨m', ran, faults, contents⟩ : ∃ m', m.exec batch = (.ok (), m') ∧
          m'.faults = m.faults ∧ m'.contents = m.contents.applyAll batch.commands := by
        cases none : batch.isEmpty with
        | true =>
            refine ⟨m, by rw [exec, if_pos none], rfl, ?_⟩
            rw [List.isEmpty_iff.mp none]
            rfl
        | false => exact exec_of_none (h .exec (by rw [point?, none]; rfl)) batch
      refine ⟨m', ?_, contents, faults⟩
      rw [StoreTrial.immediate, ran]
      rfl
  | blpop key timeout => exact absurd rfl (at_once key timeout)
  | lpush key value =>
      refine ⟨{ m with contents := m.contents.apply (.lpush key value) }.announce, ?_, rfl, rfl⟩
      rw [StoreTrial.immediate, lpush, guarded_of_none (h .lpush rfl)]
      rfl
  | hget key field =>
      refine ⟨_, ?_, rfl, rfl⟩
      rw [StoreTrial.immediate, hget, guarded_of_none (h .hget rfl)]
      rfl
  | zadd key member score =>
      refine ⟨{ m with contents := m.contents.setScore key member score }, ?_, rfl, rfl⟩
      rw [StoreTrial.immediate, zadd, guarded_of_none (h .zadd rfl)]
      rfl
  | zrangebyscore key max =>
      refine ⟨_, ?_, rfl, rfl⟩
      rw [StoreTrial.immediate, zrangebyscore, guarded_of_none (h .zrangebyscore rfl)]
      rfl
  | llen | zcard | list | score | hashLength => exact ⟨m, rfl, rfl, rfl⟩

theorem look_of_nil (h : m.faults .blpop = 0) {key : String} (list : m.contents.list key = []) :
    m.look key = (.ok none, m) := by
  simp only [look, guarded_of_none h, list]

theorem look_of_cons (h : m.faults .blpop = 0) {key x : String} {rest : List String}
    (list : m.contents.list key = x :: rest) :
    m.look key = (.ok (some x), { m with contents := m.contents.setList key rest }) := by
  simp only [look, guarded_of_none h, list]

end Memory

namespace Pop

/-- Where a pop from a list of `m` stands that nothing else comes between, and what it has made
of `m`. -/
inductive Undisturbed (m : Memory) (key : String) : PopState → Memory → Prop where
  | new (deadline : Instant) : Undisturbed m key (.active { deadline }) m
  | waiting (deadline : Instant) (empty : m.contents.list key = []) :
      Undisturbed m key (.active { deadline, seen := some m.pushes }) m
  | given (x : String) (rest : List String) (t : Instant)
      (filled : m.contents.list key = x :: rest) :
      Undisturbed m key (.finished t (.ok (some x)))
        { m with contents := m.contents.setList key rest }
  | inVain (t : Instant) (empty : m.contents.list key = []) :
      Undisturbed m key (.finished t (.ok none)) m
  | panicked : Undisturbed m key .panicked m

/-- What a pop stands at after a step. -/
def Outcome.state (now : Instant) : Outcome → PopState
  | .waiting p => .active p
  | .done r => .finished now r

/-- What holds of a pop and the store beside it is kept by every step of the pop. -/
def Keeps (key : String) (P : PopState → Memory → Prop) : Prop :=
  ∀ {p : Pop} {now : Instant} {o : Outcome} {memory memory' : Memory}, P (.active p) memory →
    p.step key now memory = some (o, memory') → P (o.state now) memory'

theorem Undisturbed.kept {m : Memory} {key : String} (free : m.faults .blpop = 0) :
    Keeps key (Undisturbed m key) := by
  intro p now o memory memory' h step
  cases h with
  | new deadline =>
      cases list : m.contents.list key with
      | nil =>
          rw [Pop.step, if_pos (by rfl), Memory.look_of_nil free list] at step
          cases step
          exact .waiting deadline list
      | cons x rest =>
          rw [Pop.step, if_pos (by rfl), Memory.look_of_cons free list] at step
          cases step
          exact .given x rest now list
  | waiting deadline empty =>
      rw [Pop.step, if_neg (by simp [isDue])] at step
      split at step
      · cases step
        exact .inVain now empty
      · cases step

end Pop

namespace Waiters

/-- Pop `n` goes on, with nothing else beside it: it takes a step, or time passes. -/
inductive Goes (n : Nat) (w : Waiters) : Waiters → Prop where
  | refl : Goes n w w
  | step {v u : Waiters} : Goes n w v → v.step n = some u → Goes n w u
  | elapse {v : Waiters} (t : Instant) : Goes n w v → v.now ≤ t → Goes n w { v with now := t }

/-- A call is made and answered, with nothing else beside it. -/
inductive Called (w : Waiters) : StoreCall → StoreResult → Waiters → Prop where
  | at_once {call : StoreCall} {r : StoreResult} {memory : Memory}
      (immediate : StoreTrial.immediate w.memory call = some (r, memory)) :
      Called w call r { w with memory }
  | waited {key : String} {timeout : Span} {v : Waiters} {t : Instant}
      {r : Except Error (Option String)} (goes : (w.start key timeout).Goes w.pops.length v)
      (ended : v.state? w.pops.length = some (.finished t r)) :
      Called w (.blpop key timeout) (r.map .value) v

/-- Calls are made and answered one after the other; what each is answered with, and what the
store holds then. -/
inductive Played : Waiters → List StoreCall → List (StoreResult × Contents) → Prop where
  | nil {w : Waiters} : Played w [] []
  | cons {w v : Waiters} {call : StoreCall} {r : StoreResult} {rest : List StoreCall}
      {rs : List (StoreResult × Contents)} (first : Called w call r v) (others : Played v rest rs) :
      Played w (call :: rest) ((r, v.memory.contents) :: rs)

variable {w v u : Waiters} {n : Nat}

theorem start_of_some {key : String} {timeout : Span} {deadline : Instant}
    (clock : Clock.after? w.now timeout = some deadline) :
    w.start key timeout = { w with pops := w.pops ++ [⟨key, .active { deadline }⟩] } := by
  simp only [start, clock]

theorem start_of_none {key : String} {timeout : Span} (clock : Clock.after? w.now timeout = none) :
    w.start key timeout = { w with pops := w.pops ++ [⟨key, .panicked⟩] } := by
  simp only [start, clock]

/-- `P` holds of where pop `n` stands and of the store beside it. -/
def Stands (n : Nat) (key : String) (P : PopState → Memory → Prop) (w : Waiters) : Prop :=
  ∃ state, w.pops[n]? = some ⟨key, state⟩ ∧ P state w.memory

variable {P : PopState → Memory → Prop}

theorem stands_start {key : String} (timeout : Span)
    (new : ∀ deadline, P (.active { deadline }) w.memory) (panicked : P .panicked w.memory) :
    Stands w.pops.length key P (w.start key timeout) := by
  cases clock : Clock.after? w.now timeout with
  | none =>
      rw [start_of_none clock]
      exact ⟨.panicked, List.getElem?_concat_length, panicked⟩
  | some deadline =>
      rw [start_of_some clock]
      exact ⟨.active { deadline }, List.getElem?_concat_length, new deadline⟩

theorem step_of_active {key : String} {p : Pop} {o : Pop.Outcome} {memory : Memory}
    (at_n : v.pops[n]? = some ⟨key, .active p⟩)
    (moved : p.step key v.now v.memory = some (o, memory)) :
    v.step n = some ({ v with memory }.setPop n (o.state v.now)) := by
  simp only [step, at_n, moved]
  cases o <;> rfl

theorem Stands.step {key : String} (kept : Pop.Keeps key P) (h : Stands n key P v)
    (step : v.step n = some u) : Stands n key P u := by
  obtain ⟨state, at_n, holds⟩ := h
  cases state with
  | active p =>
      cases moved : p.step key v.now v.memory with
      | none =>
          simp only [Waiters.step, at_n, moved] at step
          cases step
      | some next =>
          obtain ⟨o, memory⟩ := next
          rw [step_of_active at_n moved] at step
          cases step
          exact ⟨o.state v.now, by simp [setPop, at_n], kept holds moved⟩
  | finished | dropped | panicked =>
      simp only [Waiters.step, at_n] at step
      cases step

theorem Goes.stands {key : String} (kept : Pop.Keeps key P) (start : Stands n key P w)
    (h : w.Goes n v) : Stands n key P v := by
  induction h with
  | refl => exact start
  | step _ step ih => exact ih.step kept step
  | elapse _ _ _ ih => exact ih

/-- Whenever an undisturbed pop ends, it has taken the head of its list, or there was none. -/
theorem answer_of_ended {key : String} {timeout : Span} {t : Instant}
    {r : Except Error (Option String)} (free : w.memory.faults .blpop = 0)
    (goes : (w.start key timeout).Goes w.pops.length v)
    (ended : v.state? w.pops.length = some (.finished t r)) :
    r.map .value = .ok (w.memory.contents.answer (.blpop key timeout)).1 ∧
      v.memory.contents = (w.memory.contents.answer (.blpop key timeout)).2 ∧
      v.memory.faults = w.memory.faults := by
  obtain ⟨state, at_n, undisturbed⟩ := goes.stands (Pop.Undisturbed.kept free)
    (stands_start timeout .new .panicked)
  rw [state?, at_n] at ended
  obtain rfl := Option.some.inj ended
  generalize v.memory = memory at undisturbed ⊢
  cases undisturbed with
  | given x rest _ filled =>
      rw [Contents.answer_of_cons timeout filled]
      exact ⟨rfl, rfl, rfl⟩
  | inVain _ empty =>
      rw [Contents.answer_of_nil timeout empty]
      exact ⟨rfl, rfl, rfl⟩

theorem Called.answer {call : StoreCall} {r : StoreResult} (h : w.Called call r v)
    (spares : w.memory.Spares call) :
    r = .ok (w.memory.contents.answer call).1 ∧
      v.memory.contents = (w.memory.contents.answer call).2 ∧
      v.memory.faults = w.memory.faults := by
  cases h with
  | at_once immediate =>
      obtain ⟨m', answered, contents, faults⟩ := Memory.immediate_of_spares spares
        fun key timeout pop => by
          rw [pop] at immediate
          cases immediate
      rw [answered] at immediate
      cases immediate
      exact ⟨rfl, contents, faults⟩
  | waited goes ended => exact answer_of_ended (spares .blpop rfl) goes ended

theorem Called.sound {call : StoreCall} {r : StoreResult} (h : w.Called call r v)
    (sound : w.memory.Sound) : v.memory.Sound := by
  obtain ⟨-, -, faults⟩ := h.answer (sound.spares call)
  intro p
  rw [faults]
  exact sound p

/-- A pop whose deadline the clock has comes to its end by then. -/
theorem exists_ended {key : String} {timeout : Span} {deadline : Instant}
    (sound : w.memory.Sound) (clock : Clock.after? w.now timeout = some deadline) :
    ∃ v t r, (w.start key timeout).Goes w.pops.length v ∧
      v.state? w.pops.length = some (.finished t r) ∧ v.now ≤ max w.now deadline := by
  have at_n : (w.start key timeout).pops[w.pops.length]? = some ⟨key, .active { deadline }⟩ := by
    rw [start_of_some clock]
    exact List.getElem?_concat_length
  have now : (w.start key timeout).now = w.now := rfl
  cases list : w.memory.contents.list key with
  | cons x rest =>
      have popped : ({ deadline } : Pop).step key w.now w.memory =
          some (.done (.ok (some x)),
            { w.memory with contents := w.memory.contents.setList key rest }) := by
        rw [Pop.step, if_pos (by rfl), Memory.look_of_cons (sound .blpop) list]
      exact ⟨_, w.now, .ok (some x), .step .refl (step_of_active at_n popped),
        by simp [state?, setPop, at_n, now, Pop.Outcome.state], Nat.le_max_left _ _⟩
  | nil =>
      have looked : ({ deadline } : Pop).step key w.now w.memory =
          some (.waiting { deadline, seen := some w.memory.pushes }, w.memory) := by
        rw [Pop.step, if_pos (by rfl), Memory.look_of_nil (sound .blpop) list]
      have given_up : ({ deadline, seen := some w.memory.pushes } : Pop).step key
          (max w.now deadline) w.memory = some (.done (.ok none), w.memory) := by
        rw [Pop.step, if_neg (by simp [Pop.isDue]), if_pos (Nat.le_max_right _ _)]
      have waits := Goes.elapse (max w.now deadline)
        (.step .refl (step_of_active at_n looked)) (Nat.le_max_left _ _)
      refine ⟨_, max w.now deadline, .ok none, .step waits (step_of_active ?_ given_up), ?_,
        Nat.le_refl _⟩
      · simp [setPop, at_n, Pop.Outcome.state]
      · simp [state?, setPop, at_n, Pop.Outcome.state]

/-- What calls on a store are answered with depends on nothing but what the store holds. -/
theorem Played.answers {calls : List StoreCall} {rs : List (StoreResult × Contents)}
    (h : w.Played calls rs) (sound : w.memory.Sound) :
    rs = (w.memory.contents.answers calls).map fun a => (.ok a.1, a.2) := by
  induction h with
  | nil => rfl
  | cons first others ih =>
      obtain ⟨result, contents, -⟩ := first.answer (sound.spares _)
      rw [ih (first.sound sound), result, contents]
      rfl

/-- Nanoseconds that a call may wait. -/
def wait : StoreCall → Nat
  | .blpop _ timeout => timeout.nanos
  | _ => 0

theorem exists_called (sound : w.memory.Sound) (call : StoreCall)
    (inTime : w.now + wait call < Clock.horizon * Span.nanosPerSecond) :
    ∃ r v, w.Called call r v ∧ v.now ≤ w.now + wait call := by
  by_cases pop : ∃ key timeout, call = .blpop key timeout
  · obtain ⟨key, timeout, rfl⟩ := pop
    have clock : Clock.after? w.now timeout = some (w.now + timeout.nanos) := if_pos inTime
    obtain ⟨v, t, r, goes, ended, now⟩ := exists_ended sound clock
    exact ⟨_, v, .waited goes ended, Nat.le_trans now
      (Nat.max_le.mpr ⟨Nat.le_add_right _ _, Nat.le_refl _⟩)⟩
  · obtain ⟨m', answered, -, -⟩ := Memory.immediate_of_spares (sound.spares call)
      fun key timeout same => pop ⟨key, timeout, same⟩
    exact ⟨_, _, .at_once answered, Nat.le_add_right _ _⟩

/-- As long as the clock lasts, calls that are made one after the other are all answered. -/
theorem exists_played (calls : List StoreCall) (sound : w.memory.Sound)
    (inTime : w.now + (calls.map wait).sum < Clock.horizon * Span.nanosPerSecond) :
    ∃ rs, w.Played calls rs := by
  induction calls generalizing w with
  | nil => exact ⟨[], .nil⟩
  | cons call rest ih =>
      rw [List.map_cons, List.sum_cons, ← Nat.add_assoc] at inTime
      obtain ⟨r, v, first, now⟩ :=
        exists_called sound call (Nat.lt_of_le_of_lt (Nat.le_add_right _ _) inTime)
      obtain ⟨rs, others⟩ := ih (first.sound sound)
        (Nat.lt_of_le_of_lt (Nat.add_le_add_right now _) inTime)
      exact ⟨_, .cons first others⟩

end Waiters

end ReliableQueue.Store
