import Mathlib.Algebra.Order.BigOperators.Group.List
import ReliableQueue.Proofs.Clock
import ReliableQueue.Proofs.Queue.Endings
import ReliableQueue.Proofs.Queue.Patrols

/-!
What a sweeper that is alone with its store does in the long run: when it sweeps, which claims it
has moved, and when none are left. In a cluster it is alone as long as nothing but itself, the
clock, cancellations and injected failures is at work.
-/

namespace ReliableQueue.Queue

open Store (Contents Memory FaultPoint)

namespace Patrol

variable {p₀ p q : Patrol} {m' : Memory} {r : Recovery} {o : Recovery.Outcome} {es : List Event}
  {w : Sweep}

/-! ### A single sweep -/

theorem fair_of_unheeded (p : Patrol) : (false && !p.cancelled) = false := rfl

/-- A recovery that is left to itself ends. -/
theorem ends_restoring {ids : List String} {count : Nat} {next : Instant}
    (stage : p.stage = .sweeping (.restoring ids count) next) (current : p.current = some w) :
    ∃ q, p.run (List.replicate (ids.length + 1) (.step false)) = some q ∧
      q.stage = .waiting next := by
  induction ids generalizing p count w with
  | nil =>
      have ends := perform_sweeping stage current (fair_of_unheeded p) rfl
      exact ⟨_, by rw [List.length_nil, List.replicate_one, run, ends]; rfl, rfl⟩
  | cons id left ih =>
      cases recovery : p.recover (.restoring (id :: left) count) with | mk o rest =>
      obtain ⟨m', es⟩ := rest
      have goes := perform_sweeping stage current (fair_of_unheeded p) recovery
      have on : ∃ count', o = .going (.restoring left count') := by
        cases Recovery.steps recovery with
        | kept => exact ⟨_, rfl⟩
        | moved => exact ⟨_, rfl⟩
      obtain ⟨count', rfl⟩ := on
      let v := w.after p.now (.restoring (id :: left) count) (.going (.restoring left count')) es
      obtain ⟨q, runs, waits⟩ :=
        ih (p := p.sweepTo m' (.going (.restoring left count')) next v) (w := v) rfl rfl
      refine ⟨q, ?_, waits⟩
      rw [List.length_cons, List.replicate_succ, run, goes]
      exact runs

theorem ends_sweeping {next : Instant} (stage : p.stage = .sweeping r next)
    (current : p.current = some w) :
    ∃ n q, p.run (List.replicate n (.step false)) = some q ∧ q.stage = .waiting next := by
  cases r with
  | restoring ids count => exact ⟨_, ends_restoring stage current⟩
  | ranging =>
      cases recovery : p.recover .ranging with | mk o rest =>
      obtain ⟨m', es⟩ := rest
      have goes := perform_sweeping stage current (fair_of_unheeded p) recovery
      cases Recovery.steps recovery with
      | unranged => exact ⟨1, _, by rw [List.replicate_one, run, goes]; rfl, rfl⟩
      | @ranged ids range =>
          let v := w.after p.now .ranging (.going (.restoring ids 0)) []
          obtain ⟨q, runs, waits⟩ := ends_restoring
            (p := p.sweepTo p.memory (.going (.restoring ids 0)) next v) (w := v) rfl rfl
          exact ⟨ids.length + 1 + 1, q, by rw [List.replicate_succ, run, goes]; exact runs, waits⟩

end Patrol

/-! ### Ticks -/

theorem Sweeper.Config.period_pos (config : Sweeper.Config) : 0 < config.period.nanos := by
  unfold period
  split
  · decide
  · next some => exact Nat.pos_of_ne_zero fun none => some (decide_eq_true none)

/-- A sweep is followed by one that is due a period later: after its own tick or, if it began too
late, after its beginning. -/
structure Sweep.Precedes (period : Span) (w : Sweep) (due : Instant) : Prop where
  on_time : w.begun ≤ w.due + Sweeper.lateness → (Clock.after? w.due period).isSome = true →
    due = w.due + period.nanos
  late : w.due + Sweeper.lateness < w.begun → due = w.begun + period.nanos

theorem Sweep.precedes_of_nextTick {period : Span} {w : Sweep} {due : Instant}
    (h : Sweeper.nextTick period w.due w.begun = some due) : w.Precedes period due where
  on_time early fits := by
    obtain ⟨later, fits⟩ := Option.isSome_iff_exists.mp fits
    rw [Sweeper.nextTick, if_neg (Nat.not_lt.mpr early), fits, Option.getD_some] at h
    exact (Option.some.inj h).symm.trans (Clock.eq_of_after? fits)
  late late := by
    rw [Sweeper.nextTick, if_pos late] at h
    exact Clock.eq_of_after? h

/-- There is no next tick only after a late one, where the clock lacks the instant a period on. -/
theorem Sweeper.nextTick_eq_none_iff {period : Span} {tick now : Instant} :
    Sweeper.nextTick period tick now = none ↔
      tick + Sweeper.lateness < now ∧ Clock.after? now period = none := by
  unfold nextTick
  split <;> simp_all

/-! ### All sweeps -/

namespace Patrol

/-- No sweep begins much later than it is due, and the clock has the ticks. -/
def Punctual (p : Patrol) : Prop :=
  ∀ w ∈ p.sweeps, w.begun ≤ w.due + Sweeper.lateness ∧ (Clock.after? w.due p.period).isSome = true

def backlog (p : Patrol) : List String := p.memory.contents.list p.keys.pending

/-- The next sweep is due at `tick`: when the loop began to run, or as the last sweep has it. -/
structure Awaits (p : Patrol) (tick : Instant) : Prop where
  first : p.ended = [] → p.started = some tick
  next : ∀ w, p.ended.getLast? = some w → w.Precedes p.period tick

theorem DueAt.awaits {p : Patrol} {tick : Instant} (due : p.DueAt tick) : p.Awaits tick where
  first := due.first
  next w last := Sweep.precedes_of_nextTick (due.next w last)

/-- What has become of patrol `p₀`. -/
structure Patrolled (p₀ p : Patrol) : Prop where
  /-- Until it is cancelled the sweeper waits for nothing but its next tick, whatever has failed,
  unless the clock ran out. -/
  live : p.cancelled = false → p.perform (.step false) = none →
    (∃ tick, p.stage = .waiting tick ∧ p.now < tick) ∨ p.stage = .panicked
  unstopped : p.cancelled = false → p.stage ≠ .stopping ∧ p.stage ≠ .stopped
  /-- The clock runs out where a sweep is late and the clock lacks the instant a period on. -/
  panicked : p.stage = .panicked → ∃ tick t, p.Awaits tick ∧ tick + Sweeper.lateness < t ∧
    t ≤ p.now ∧ Clock.after? t p.period = none
  /-- Once it is due, a sweep can begin. -/
  begins : ∀ tick, p.stage = .waiting tick → tick ≤ p.now →
    (tick + Sweeper.lateness < p.now → (Clock.after? p.now p.period).isSome = true) →
    ∃ q, p.perform (.step false) = some q ∧
      q.sweeps = p.sweeps ++ [{ due := tick, begun := p.now }]
  /-- A sweep under way ends if only the sweeper goes on. -/
  ends : ∀ r next, p.stage = .sweeping r next →
    ∃ n q, p.run (List.replicate n (.step false)) = some q ∧ q.stage = .waiting next
  /-- The first sweep is due when the loop begins to run. -/
  first : ∀ w, p.sweeps[0]? = some w → p.started = some w.due
  follows : ∀ i w w', p.sweeps[i]? = some w → p.sweeps[i + 1]? = some w' →
    w.Precedes p.period w'.due
  waits : ∀ tick, p.stage = .waiting tick → p.Awaits tick
  begun : ∀ w ∈ p.sweeps, w.due ≤ w.begun ∧ w.begun ≤ p.now
  spaced : 0 < p.period.nanos
  regular : p.Punctual → ∀ i w, p.sweeps[i]? = some w →
    ∃ t, p.started = some t ∧ w.due = t + i * p.period.nanos
  /-- The claims that were moved are at the tail of the backlog, each of them once, and nothing else
  has changed. -/
  moved : PutBack p₀.keys p.moved p₀.memory.contents p.memory.contents
  unique : p.moved.Nodup
  claimed : ∀ x ∈ p.moved, (p₀.score? x).isSome = true
  counted : p.current = none → (p.ended.map Sweep.count).sum = p.moved.length
  kept : ∀ x s, p₀.score? x = some s → x ∉ p₀.backlog →
    (p.score? x = some s ∧ x ∉ p.backlog) ∨ (p.score? x = none ∧ p.backlog.count x = 1)
  /-- A sweep in which nothing fails leaves nothing that the first one took for abandoned. -/
  cleared : ∀ w₁ t, p.sweeps[0]? = some w₁ → w₁.looked = some t →
    (∃ w ∈ p.ended, w.failures = 0) →
      ∀ x s, p₀.score? x = some s → s.le (p₀.cutoffAt t) = true → p.score? x = none
  /-- Failures come to an end. -/
  settled : p.injected < p.ended.length → ∃ w ∈ p.ended, w.failures = 0

theorem Kept.live (kept : Kept p₀ p) (going : p.cancelled = false)
    (halts : p.perform (.step false) = none) :
    (∃ tick, p.stage = .waiting tick ∧ p.now < tick) ∨ p.stage = .panicked := by
  cases kept.stands with
  | starting stage =>
      have at_stage : p.sweeper.stage = .starting := stage
      simp [Patrol.perform, Sweeper.step, at_stage] at halts
  | @waiting tick stage =>
      have at_stage : p.sweeper.stage = .waiting tick := stage
      refine .inl ⟨tick, stage, Nat.lt_of_not_le fun come => ?_⟩
      simp only [Patrol.perform, Bool.false_and, Bool.false_eq_true, if_false, Sweeper.step,
        at_stage, if_pos come] at halts
      split at halts
      · cases halts
      · next idle => split at idle <;> cases idle
  | sweeping stage current =>
      cases recovery : p.recover _ with | mk o rest =>
      rw [perform_sweeping stage current (fair_of_unheeded p) recovery] at halts
      cases halts
  | leaving stage current cancelled => exact absurd cancelled (by simp [going])
  | panicked stage => exact .inr stage

theorem Kept.panicked (kept : Kept p₀ p) (stage : p.stage = .panicked) :
    ∃ tick t, p.Awaits tick ∧ tick + Sweeper.lateness < t ∧ t ≤ p.now ∧
      Clock.after? t p.period = none := by
  cases kept.stands with
  | @panicked tick t at_stage current due past lost =>
      obtain ⟨late, lacks⟩ := Sweeper.nextTick_eq_none_iff.mp lost
      exact ⟨tick, t, due.awaits, late, past, lacks⟩
  | starting at_stage | waiting at_stage | sweeping at_stage => cases at_stage.symm.trans stage
  | leaving at_stage =>
      rcases at_stage with at_stage | at_stage
      all_goals cases at_stage.symm.trans stage

theorem Kept.follows (kept : Kept p₀ p) (i : Nat) (w w' : Sweep) (at_i : p.sweeps[i]? = some w)
    (at_next : p.sweeps[i + 1]? = some w') : w.Precedes p.period w'.due :=
  Sweep.precedes_of_nextTick (kept.timed.follows i w w' at_i at_next)

theorem Kept.regular (kept : Kept p₀ p) (punctual : p.Punctual) (i : Nat) (w : Sweep)
    (at_i : p.sweeps[i]? = some w) : ∃ t, p.started = some t ∧ w.due = t + i * p.period.nanos := by
  induction i generalizing w with
  | zero => exact ⟨w.due, kept.timed.first w at_i, by rw [Nat.zero_mul, Nat.add_zero]⟩
  | succ i ih =>
      have short := (List.getElem?_eq_some_iff.mp at_i).1
      have before : p.sweeps[i]? = some p.sweeps[i] := List.getElem?_eq_getElem (by omega)
      obtain ⟨t, started, due⟩ := ih _ before
      obtain ⟨early, fits⟩ := punctual _ (List.mem_of_getElem? before)
      have next := (kept.follows i _ w before at_i).on_time early fits
      refine ⟨t, started, ?_⟩
      rw [next, due, Nat.succ_mul, Nat.add_assoc]

theorem Kept.cleared (kept : Kept p₀ p)
    (bounded : p₀.sweeper.config.maxAge.seconds < UInt64.size) {w₁ : Sweep} {t : Instant}
    (first : p.sweeps[0]? = some w₁) (looked : w₁.looked = some t)
    (clean : ∃ w ∈ p.ended, w.failures = 0) {x : String} {s : Binary64}
    (claimed : p₀.score? x = some s) (low : s.le (p₀.cutoffAt t) = true) : p.score? x = none := by
  obtain ⟨w, hw, none⟩ := clean
  obtain ⟨u, looked', clear⟩ := (kept.ended w hw).cleared none
  have mem : w ∈ p.sweeps := List.mem_append_left _ hw
  have later : t ≤ u := kept.timed.le_of_first first looked mem looked'
  have cutoffs : (p₀.cutoffAt t).le (p.cutoffAt u) = true := by
    rw [cutoffAt, cutoffAt, kept.epoch, kept.config]
    exact cutoff_mono (Nat.div_le_div_right (Nat.add_le_add_left later _)) bounded
  have now := kept.score?_eq x
  split at now
  · exact now
  · rw [claimed] at now
    exact absurd (Binary64.le_trans low cutoffs) (by simp [clear x s now])

theorem Kept.settled (kept : Kept p₀ p) (more : p.injected < p.ended.length) :
    ∃ w ∈ p.ended, w.failures = 0 := by
  by_contra failing
  have each : ∀ n ∈ p.ended.map Sweep.failures, 1 ≤ n := by
    intro n hn
    obtain ⟨w, hw, rfl⟩ := List.mem_map.mp hn
    exact Nat.one_le_iff_ne_zero.mpr fun none => failing ⟨w, hw, none⟩
  have least := List.length_le_sum_of_one_le _ each
  have most := kept.failures
  rw [sweeps, List.map_append, List.sum_append] at most
  rw [List.length_map] at least
  omega

theorem Kept.unstopped (kept : Kept p₀ p) (going : p.cancelled = false) :
    p.stage ≠ .stopping ∧ p.stage ≠ .stopped := by
  cases kept.stands with
  | starting stage | waiting stage | sweeping stage | panicked stage => simp [stage]
  | leaving stage current cancelled => exact absurd cancelled (by simp [going])

theorem Kept.begins (kept : Kept p₀ p) (tick : Instant) (stage : p.stage = .waiting tick)
    (come : tick ≤ p.now)
    (fits : tick + Sweeper.lateness < p.now → (Clock.after? p.now p.period).isSome = true) :
    ∃ q, p.perform (.step false) = some q ∧
      q.sweeps = p.sweeps ++ [{ due := tick, begun := p.now }] := by
  have at_stage : p.sweeper.stage = .waiting tick := stage
  have idle : p.current = none := by
    cases kept.stands with
    | waiting at_stage idle | starting at_stage ended idle | leaving at_stage idle
    | panicked at_stage idle => exact idle
    | sweeping at_stage => cases at_stage.symm.trans stage
  obtain ⟨next, then_due⟩ : ∃ next, Sweeper.nextTick p.period tick p.now = some next := by
    refine Option.ne_none_iff_exists'.mp fun lost => ?_
    obtain ⟨late, lacks⟩ := Sweeper.nextTick_eq_none_iff.mp lost
    have some := fits late
    rw [lacks] at some
    cases some
  have begins : p.sweeper.step p.keys p.epoch p.now false p.memory =
      some (.sweeping .ranging next, p.memory, []) := by
    rw [Sweeper.step, at_stage]
    simp only [Bool.false_eq_true, if_false, if_pos come]
    rw [show Sweeper.nextTick p.sweeper.config.period tick p.now = some next from then_due]
  refine ⟨p.moveTo (.sweeping .ranging next) p.memory, ?_, ?_⟩
  · simp only [Patrol.perform, Bool.false_and, Bool.false_eq_true, if_false, begins]
  · simp only [moveTo, stage, sweeps, idle, Option.toList_some, Option.toList_none, List.append_nil]

theorem Kept.ends (kept : Kept p₀ p) (r : Recovery) (next : Instant)
    (stage : p.stage = .sweeping r next) :
    ∃ n q, p.run (List.replicate n (.step false)) = some q ∧ q.stage = .waiting next := by
  cases kept.stands with
  | sweeping at_stage current => exact ends_sweeping stage current
  | starting at_stage | waiting at_stage | panicked at_stage => cases at_stage.symm.trans stage
  | leaving at_stage =>
      rcases at_stage with at_stage | at_stage
      all_goals cases at_stage.symm.trans stage

theorem Kept.waits (kept : Kept p₀ p) (tick : Instant) (stage : p.stage = .waiting tick) :
    p.Awaits tick := by
  cases kept.stands with
  | waiting at_stage current due =>
      cases at_stage.symm.trans stage
      exact due.awaits
  | starting at_stage | sweeping at_stage | panicked at_stage => cases at_stage.symm.trans stage
  | leaving at_stage =>
      rcases at_stage with at_stage | at_stage
      all_goals cases at_stage.symm.trans stage

theorem Kept.counted (kept : Kept p₀ p) (idle : p.current = none) :
    (p.ended.map Sweep.count).sum = p.moved.length := by
  rw [moved, sweeps, idle, Option.toList_none, List.append_nil, List.length_flatMap]
  exact congrArg List.sum (List.map_congr_left fun w hw => (kept.ended w hw).counted)

theorem Kept.once (kept : Kept p₀ p) {x : String} {s : Binary64} (claimed : p₀.score? x = some s)
    (absent : x ∉ p₀.backlog) :
    (p.score? x = some s ∧ x ∉ p.backlog) ∨ (p.score? x = none ∧ p.backlog.count x = 1) := by
  have now := kept.score?_eq x
  have backlog : p.backlog = p₀.backlog ++ p.moved := by
    rw [Patrol.backlog, Patrol.backlog, ← kept.keys]
    exact kept.contents.backlog
  rw [backlog, List.mem_append, List.count_append, List.count_eq_zero.mpr absent]
  split at now
  · next gone =>
      refine .inr ⟨now, ?_⟩
      rw [kept.unique.count, if_pos gone]
  · next stays => exact .inl ⟨now.trans claimed, by simp [absent, stays]⟩

theorem Kept.patrolled (kept : Kept p₀ p)
    (bounded : p₀.sweeper.config.maxAge.seconds < UInt64.size) : Patrolled p₀ p where
  live := kept.live
  unstopped := kept.unstopped
  panicked := kept.panicked
  begins := kept.begins
  ends := kept.ends
  first := kept.timed.first
  follows := kept.follows
  waits := kept.waits
  begun := kept.timed.begun
  spaced := p.sweeper.config.period_pos
  regular := kept.regular
  moved := kept.keys ▸ kept.contents
  unique := kept.unique
  claimed := kept.claimed
  counted := kept.counted
  kept _ _ := kept.once
  cleared _ _ first looked clean _ _ := kept.cleared bounded first looked clean
  settled := kept.settled

end Patrol

/-! ### In a cluster -/

theorem Patrol.run_append {p q r : Patrol} {beats beats' : List Beat}
    (h : p.run beats = some q) (h' : q.run beats' = some r) :
    p.run (beats ++ beats') = some r := by
  induction beats generalizing p with
  | nil =>
      cases h
      exact h'
  | cons beat rest ih =>
      obtain ⟨next, step, rest⟩ := Option.bind_eq_some_iff.mp h
      rw [List.cons_append, run, step]
      exact ih rest

/-- An act that leaves the store to sweeper `k`. -/
def Act.leavesTo (k : Nat) : Act → Bool
  | .step (.sweeper n _) => n = k
  | .elapse _ | .cancel _ | .newToken | .failNext .. => true
  | .step _ | .build .. | .invoke .. | .abandon _ | .drop _ | .executorReturns ..
  | .sweep .. => false

namespace Cluster

variable {c d : Cluster} {k : Nat} {a : Act} {p : Patrol}

/-- Sweeper `k` of a cluster stands where a patrol stands. -/
structure Patrols (c : Cluster) (k : Nat) (p : Patrol) : Prop where
  sweeper : c.sweepers[k]? = some p.sweeper
  handle : ∃ h, c.handles[p.sweeper.handle]? = some h ∧ h.keys = p.keys
  epoch : c.epoch = p.epoch
  now : c.now = p.now
  memory : c.memory = p.memory
  cancelled : c.tokens.isCancelled p.sweeper.token = p.cancelled

theorem Patrols.moveTo (at_p : c.Patrols k p) (stage : Sweeper.Stage) (memory : Memory)
    (es : List Event) : (({ c with memory, sweepers := c.sweepers.set k { p.sweeper with stage } } :
      Cluster).record p.sweeper.handle es).Patrols k (p.moveTo stage memory) := by
  have bound := (List.getElem?_eq_some_iff.mp at_p.sweeper).1
  obtain ⟨started, ended, current, eq⟩ : ∃ started ended current, p.moveTo stage memory =
      { p with memory, sweeper := { p.sweeper with stage }, started, ended, current } := by
    unfold Patrol.moveTo
    split
    · exact ⟨_, _, _, rfl⟩
    · exact ⟨_, _, _, rfl⟩
    · dsimp only
      split <;> exact ⟨_, _, _, rfl⟩
    · exact ⟨_, _, _, rfl⟩
  rw [eq]
  exact ⟨List.getElem?_set_self bound, at_p.handle, at_p.epoch, at_p.now, rfl, at_p.cancelled⟩

theorem Patrols.perform (at_p : c.Patrols k p) (alone : a.leavesTo k = true)
    (h : c.perform a = some d) : ∃ beats q, p.run beats = some q ∧ d.Patrols k q := by
  cases a with
  | step process =>
      obtain ⟨heeds, rfl⟩ : ∃ heeds, process = .sweeper k heeds := by
        cases process with
        | sweeper n heeds =>
            obtain rfl : n = k := of_decide_eq_true alone
            exact ⟨heeds, rfl⟩
        | fetcher | worker | call | disposal => cases alone
      obtain ⟨s, hd, stage, memory, es, at_k, at_handle, fair, step, rfl⟩ := stepSweeper_cases h
      obtain ⟨hd', at_handle', keys⟩ := at_p.handle
      cases at_p.sweeper.symm.trans at_k
      cases at_handle'.symm.trans at_handle
      rw [keys, at_p.epoch, at_p.now, at_p.memory] at step
      rw [at_p.cancelled] at fair
      refine ⟨[.step heeds], _, ?_, at_p.moveTo stage memory es⟩
      simp [Patrol.run, Patrol.perform, fair, step]
  | elapse t =>
      cases h
      exact ⟨[.elapse t], _, rfl, at_p.sweeper, at_p.handle, at_p.epoch,
        congrArg (max · t) at_p.now, at_p.memory, at_p.cancelled⟩
  | cancel t =>
      cases h
      cases after : (c.tokens.cancel t).isCancelled p.sweeper.token with
      | true =>
          exact ⟨[.cancel], _, rfl, at_p.sweeper, at_p.handle, at_p.epoch, at_p.now, at_p.memory,
            after⟩
      | false =>
          have before : c.tokens.isCancelled p.sweeper.token = false := by
            rw [Bool.eq_false_iff]
            exact fun gone => absurd (Cancellation.grows_cancel c.tokens t _ gone) (by simp [after])
          exact ⟨[], p, rfl, at_p.sweeper, at_p.handle, at_p.epoch, at_p.now, at_p.memory,
            after.trans (before.symm.trans at_p.cancelled)⟩
  | newToken =>
      cases h
      exact ⟨[], p, rfl, at_p.sweeper, at_p.handle, at_p.epoch, at_p.now, at_p.memory,
        at_p.cancelled⟩
  | failNext point count =>
      cases h
      exact ⟨[.failNext point count], _, rfl, at_p.sweeper, at_p.handle, at_p.epoch, at_p.now,
        congrArg (Memory.failNext · point count) at_p.memory, at_p.cancelled⟩
  | build | invoke | abandon | drop | executorReturns | sweep => cases alone

/-- As long as a cluster leaves the store to one sweeper, it does what a patrol does. -/
theorem Patrols.run (at_p : c.Patrols k p) {acts : List Act}
    (alone : ∀ a ∈ acts, a.leavesTo k = true) (h : c.run acts = some d) :
    ∃ beats q, p.run beats = some q ∧ d.Patrols k q := by
  induction acts generalizing c p with
  | nil =>
      cases h
      exact ⟨[], p, rfl, at_p⟩
  | cons a rest ih =>
      obtain ⟨next, step, rest⟩ := Option.bind_eq_some_iff.mp h
      obtain ⟨beats, q, runs, at_q⟩ := at_p.perform (alone a List.mem_cons_self) step
      obtain ⟨beats', q', runs', at_q'⟩ :=
        ih at_q (fun b hb => alone b (List.mem_cons_of_mem _ hb)) rest
      exact ⟨beats ++ beats', q', Patrol.run_append runs runs', at_q'⟩

/-- A sweeper that a cluster sets going begins a patrol. -/
theorem patrols_of_addSweeper {i : Nat} {token : Token} {config : Sweeper.Config} {h : Handle}
    (at_i : c.handles[i]? = some h) (accepted : c.addSweeper i token config = .ok d) :
    d.Patrols c.sweepers.length (.begin h.keys c.epoch ⟨i, token, config, .starting⟩ c.now c.memory
      (c.tokens.isCancelled token)) := by
  simp only [addSweeper, at_i] at accepted
  split at accepted
  · cases accepted
  · cases accepted
    exact ⟨List.getElem?_concat_length, ⟨h, at_i, rfl⟩, rfl, rfl, rfl, rfl⟩

/-- So a sweeper that is alone with its store in a cluster loses no abandoned claim. -/
theorem patrolled_of_addSweeper {c' : Cluster} {i : Nat} {token : Token} {config : Sweeper.Config}
    {h : Handle} {acts : List Act} (at_i : c.handles[i]? = some h)
    (bounded : config.maxAge.seconds < UInt64.size)
    (accepted : c.addSweeper i token config = .ok c')
    (alone : ∀ a ∈ acts, a.leavesTo c.sweepers.length = true) (runs : c'.run acts = some d) :
    ∃ beats p, (Patrol.begin h.keys c.epoch ⟨i, token, config, .starting⟩ c.now c.memory
        (c.tokens.isCancelled token)).run beats = some p ∧ d.Patrols c.sweepers.length p ∧
      Patrol.Patrolled (.begin h.keys c.epoch ⟨i, token, config, .starting⟩ c.now c.memory
        (c.tokens.isCancelled token)) p := by
  obtain ⟨beats, p, ran, at_p⟩ := (patrols_of_addSweeper at_i accepted).run alone runs
  exact ⟨beats, p, ran, at_p, ((Patrol.kept_begin rfl).run ran).patrolled bounded⟩

end Cluster

end ReliableQueue.Queue
