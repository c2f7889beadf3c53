import ReliableQueue.Proofs.Retry.Attempts
import ReliableQueue.Scenario.RetryTrial

/-!
A scripted call under a retry policy is a session. What the trial does, step by step and from
one instant at which something is due to the next, a session can do, so all that holds of
sessions holds of what the trial records.
-/

namespace ReliableQueue

/-- The starts of the attempts made, the one under way included. -/
def Retry.Session.starts (s : Session) : List Instant :=
  s.attempts.map Attempt.started ++
    match s.course with
    | .attempt _ => [s.since]
    | _ => []

/-- After an attempt comes the end or a pause. -/
theorem Retry.Course.afterAttempt_cases (p : Policy) (now : Instant) (cancelled : Bool) (a : Nat)
    (result : Except String Unit) :
    (∃ resume error, (afterAttempt p now cancelled a result).1 = .pause a resume error) ∨
      (afterAttempt p now cancelled a result).1 = .succeeded ∨
      (∃ cause, (afterAttempt p now cancelled a result).1 = .exhausted cause) ∨
      ∃ cause, (afterAttempt p now cancelled a result).1 = .panicked cause := by
  unfold afterAttempt
  split
  · exact .inr (.inl rfl)
  · split
    · exact .inr (.inr (.inl ⟨_, rfl⟩))
    · split
      · exact .inr (.inr (.inr ⟨_, rfl⟩))
      · exact .inl ⟨_, _, rfl⟩

theorem Retry.Session.Kept.retry_of_pause {p : Retry.Policy} {start resume : Instant} {s : Session}
    {a : Nat} {error : String} (kept : Kept p start s) (paused : s.course = .pause a resume error) :
    a < p.maxRetries := by
  cases kept.stands with
  | pausing last at_last course failed retry =>
      rw [course] at paused
      cases paused
      exact retry
  | attempting other | succeeded _ _ other | exhausted _ _ other | panicked _ _ other =>
      rw [other] at paused
      cases paused

namespace Scenario

open Retry (Course Policy Session)

def Fate.ofResult : Except String Unit → Fate
  | .ok () => .ok
  | .error _ => .err

/-- What is reported at the end of a course. -/
def Verdict.ofCourse? : Course → Option Verdict
  | .attempt _ | .pause .. => none
  | .succeeded => some .succeeded
  | .exhausted cause => some (.exhausted cause)
  | .panicked _ => some .panicked

variable {now : Instant} {cancelled : Bool} {p : Performance} {r : Performance ⊕ Verdict}

namespace Executor

variable {ex ex' : Executor} {policy : Policy}

/-- A call goes on after an attempt or after a pause, or its script panics. -/
theorem advance_cases (under : ex.policy = some policy)
    (h : ex.advance now cancelled p = some (r, ex')) :
    (∃ a behaviour started result, p.activity = .acting a behaviour started ∧
        (r, ex') = ((ex.ended now p.id (.ofResult result)).noted now p.id
          (Course.afterAttempt policy now cancelled a result).2).follow now cancelled p
            (Course.afterAttempt policy now cancelled a result).1) ∨
      (∃ a resume error course notices, p.activity = .pausing a resume error ∧
        Course.afterPause now cancelled a resume error = some (course, notices) ∧
          (r, ex') = (ex.noted now p.id notices).follow now cancelled p course) ∨
      r = .inr .panicked := by
  have after (fate : Fate) (a : Nat) (result : Except String Unit) :
      (ex.ended now p.id fate).afterAttempt now cancelled p a result =
        ((ex.ended now p.id fate).noted now p.id
          (Course.afterAttempt policy now cancelled a result).2).follow now cancelled p
            (Course.afterAttempt policy now cancelled a result).1 := by
    simp only [Executor.afterAttempt, Executor.ended, under]
  simp only [advance] at h
  split at h
  · next a behaviour started activity =>
      split at h
      · cases h
      · exact .inl ⟨a, behaviour, started, .ok (), activity,
          (Option.some.inj h).symm.trans (after .ok a _)⟩
      · next message _ =>
          exact .inl ⟨a, behaviour, started, .error message, activity,
            (Option.some.inj h).symm.trans (after .err a _)⟩
      · cases h
        exact .inr (.inr rfl)
  · next a resume error activity =>
      split at h
      · cases h
      · next course notices paused =>
          exact .inr (.inl ⟨a, resume, error, course, notices, activity, paused,
            (Option.some.inj h).symm⟩)

end Executor

namespace Schedule

variable {σ : Type} {S : Schedule σ} {x : σ}

theorem nextInstant_le {w : Instant} (due : w ∈ S.wakeUps x) (later : S.now x < Clock.tick w) :
    ∃ v, S.nextInstant x = some v ∧ v ≤ Clock.tick w := by
  have mem : Clock.tick w ∈ ((S.wakeUps x).map Clock.tick).filter (S.now x < ·) :=
    List.mem_filter.mpr ⟨List.mem_map_of_mem due, decide_eq_true later⟩
  obtain ⟨v, first⟩ := Option.isSome_iff_exists.mp (List.isSome_min?_of_mem mem)
  exact ⟨v, first, (List.min?_eq_some_iff.mp first).2 _ mem⟩

theorem nextInstant_cases {v : Instant} (h : S.nextInstant x = some v) :
    Clock.tick v = v ∧ S.now x < v := by
  obtain ⟨mem, later⟩ := List.mem_filter.mp (List.min?_eq_some_iff.mp h).1
  obtain ⟨w, -, rfl⟩ := List.mem_map.mp mem
  exact ⟨Clock.tick_tick w, of_decide_eq_true later⟩

end Schedule

namespace RetryTrial

/-- An end is recorded with its instant. -/
def timed (now : Instant) : Performance ⊕ Verdict → Performance ⊕ (Instant × Verdict)
  | .inl p => .inl p
  | .inr v => .inr (now, v)

/-- How far a session is, and how far the trial is. -/
def Shows (s : Session) : Performance ⊕ (Instant × Verdict) → Prop
  | .inl p =>
      match p.activity with
      | .acting a _ started => s.course = .attempt a ∧ s.since = started
      | .pausing a resume error => s.course = .pause a resume error
  | .inr (t, v) => s.now = t ∧ Verdict.ofCourse? s.course = some v

/-- What the executor of a trial has recorded is what the session has done. -/
structure Records (policy : Policy) (s : Session) (ex : Executor) : Prop where
  policy : ex.policy = some policy
  starts : ex.starts.map Start.time = s.starts.reverse
  ends : ex.ends.map (fun e => (e.time, e.fate)) =
    (s.attempts.map fun m => (m.ended, Fate.ofResult m.result)).reverse

/-- A trial is where a session is. -/
structure Mirrors (trial : RetryTrial) (t : State) (s : Session) : Prop where
  reached : Session.Reaches trial.policy 0 s
  now : s.now = t.now
  whole : Clock.tick t.now = t.now
  cancelled : s.isCancelled = isPast t.now trial.cancelAt
  shows : Shows s t.progress
  records : Records trial.policy s t.executor

variable {trial : RetryTrial} {t t' : State} {s : Session} {policy : Policy} {ex ex' : Executor}

theorem getRight?_of_shows {progress : Performance ⊕ (Instant × Verdict)}
    (shows : Shows s progress) :
    progress.getRight? = (Verdict.ofCourse? s.course).map (s.now, ·) := by
  cases progress with
  | inl p =>
      cases activity : p.activity with
      | acting a behaviour started =>
          simp only [Shows, activity] at shows
          rw [shows.1]
          rfl
      | pausing a resume error =>
          simp only [Shows, activity] at shows
          rw [shows]
          rfl
  | inr report =>
      obtain ⟨at_now, verdict⟩ := shows
      rw [verdict, at_now]
      rfl

/-- What a course leads to is on show, and a new attempt is on record. -/
theorem shows_follow (at_now : s.now = now) (fresh : ∀ a, s.course = .attempt a → s.since = now)
    (h : (r, ex') = ex.follow now cancelled p s.course) (under : ex.policy = some policy)
    (starts : ex.starts.map Start.time = (s.attempts.map Retry.Attempt.started).reverse)
    (ends : ex.ends.map (fun e => (e.time, e.fate)) =
      (s.attempts.map fun m => (m.ended, Fate.ofResult m.result)).reverse) :
    Shows s (timed now r) ∧ Records policy s ex' := by
  cases course : s.course with
  | attempt a =>
      rw [course] at h
      cases h
      refine ⟨⟨course, fresh a course⟩, under, ?_, ends⟩
      simp [Session.starts, course, fresh a course, starts]
  | pause a resume error =>
      rw [course] at h
      cases h
      exact ⟨course, under, by simpa [Session.starts, course] using starts, ends⟩
  | succeeded | exhausted cause | panicked cause =>
      rw [course] at h
      cases h
      exact ⟨⟨at_now, by rw [course]; rfl⟩, under, by simpa [Session.starts, course] using starts,
        ends⟩

/-- The executor as it is at the time. -/
def executorNow (trial : RetryTrial) (t : State) : Executor :=
  { t.executor with gateOpen := isPast t.now trial.openGateAt }

theorem step_cases (h : trial.schedule.step t = some t') :
    ∃ p r ex', t.progress = .inl p ∧
      (trial.executorNow t).advance t.now (isPast t.now trial.cancelAt) p = some (r, ex') ∧
      t' = ⟨t.now, ex', timed t.now r⟩ := by
  simp only [schedule] at h
  split at h
  · cases h
  · next p progress =>
      split at h
      · cases h
      · next p' ex' advanced =>
          cases h
          exact ⟨p, .inl p', ex', progress, advanced, rfl⟩
      · next v ex' advanced =>
          cases h
          exact ⟨p, .inr v, ex', progress, advanced, rfl⟩

/-- The script has panicked. -/
def Broken (t : State) : Prop := ∃ at_time, t.progress = .inr (at_time, .panicked)

theorem Mirrors.returned {a : Nat} {result : Except String Unit} (mirrors : Mirrors trial t s)
    (course : s.course = .attempt a)
    (followed : (r, ex') = (((trial.executorNow t).ended s.now p.id (.ofResult result)).noted s.now
      p.id (Course.afterAttempt trial.policy s.now s.isCancelled a result).2).follow s.now
        s.isCancelled p (Course.afterAttempt trial.policy s.now s.isCancelled a result).1) :
    ∃ s', Mirrors trial ⟨s.now, ex', timed s.now r⟩ s' := by
  obtain ⟨under, starts, ends⟩ := mirrors.records
  have fresh (a' : Nat) (again : (Course.afterAttempt trial.policy s.now s.isCancelled a result).1 =
      .attempt a') : s.since = s.now := by
    rcases Course.afterAttempt_cases trial.policy s.now s.isCancelled a result with
      ⟨_, _, other⟩ | other | ⟨_, other⟩ | ⟨_, other⟩ <;> cases other.symm.trans again
  obtain ⟨shows, records⟩ := shows_follow
    (s := { s with
      course := (Course.afterAttempt trial.policy s.now s.isCancelled a result).1
      attempts := s.attempts ++ [⟨s.since, s.now, s.isCancelled, result⟩] })
    rfl fresh followed under
    (by simpa [Session.starts, course, Executor.noted, Executor.ended, executorNow] using starts)
    (by simpa [Executor.noted, Executor.ended, executorNow] using ends)
  exact ⟨_, mirrors.reached.step (.returned result course), rfl, mirrors.now ▸ mirrors.whole,
    mirrors.now ▸ mirrors.cancelled, shows, records⟩

theorem Mirrors.resumed {a : Nat} {resume : Instant} {error : String} {course : Course}
    {notices : List Retry.Notice} (mirrors : Mirrors trial t s)
    (paused : s.course = .pause a resume error)
    (after : Course.afterPause s.now s.isCancelled a resume error = some (course, notices))
    (followed : (r, ex') = ((trial.executorNow t).noted s.now p.id notices).follow s.now
      s.isCancelled p course) :
    ∃ s', Mirrors trial ⟨s.now, ex', timed s.now r⟩ s' := by
  obtain ⟨under, starts, ends⟩ := mirrors.records
  have whole : Clock.tick s.now = s.now := mirrors.now ▸ mirrors.whole
  have waited (unheard : s.isCancelled = false) : Clock.tick resume ≤ s.now := by
    simp only [Course.afterPause, unheard, Bool.false_eq_true, if_false] at after
    split at after
    · next due => exact Nat.le_trans (Clock.tick_mono due) (Nat.le_of_eq whole)
    · cases after
  obtain ⟨shows, records⟩ := shows_follow
    (s := { s with course := course, since := s.now }) rfl (fun _ _ => rfl) followed under
    (by simpa [Session.starts, paused, Executor.noted, executorNow] using starts) ends
  exact ⟨_, mirrors.reached.step (.resumed paused (fun heard => heard) waited after), rfl, whole,
    mirrors.now ▸ mirrors.cancelled, shows, records⟩

/-- What a trial does without the clock moving, the session does. -/
theorem Mirrors.step (mirrors : Mirrors trial t s) (h : trial.schedule.step t = some t') :
    Broken t' ∨ ∃ s', Mirrors trial t' s' := by
  obtain ⟨p, r, ex', progress, advanced, rfl⟩ := step_cases h
  have shows := mirrors.shows
  have under : (trial.executorNow t).policy = some trial.policy := mirrors.records.policy
  rw [progress] at shows
  rw [← mirrors.cancelled, ← mirrors.now] at advanced
  rw [← mirrors.now]
  rcases Executor.advance_cases under advanced with
    ⟨a, behaviour, started, result, activity, followed⟩ |
      ⟨a, resume, error, course, notices, activity, after, followed⟩ | rfl
  · simp only [Shows, activity] at shows
    exact .inr (mirrors.returned shows.1 followed)
  · simp only [Shows, activity] at shows
    exact .inr (mirrors.resumed shows after followed)
  · exact .inl ⟨s.now, rfl⟩

/-! ### The clock -/

theorem isPast_mono {u v : Instant} {due : Option Span} (le : u ≤ v) (h : isPast u due = true) :
    isPast v due = true := by
  cases due with
  | none => cases h
  | some d => exact decide_eq_true (Nat.le_trans (of_decide_eq_true h) le)

/-- While nothing can go on, a pause is neither over nor cancelled. -/
theorem Mirrors.pausing {p : Performance} {a : Nat} {resume : Instant} {error : String}
    (mirrors : Mirrors trial t s) (stuck : trial.schedule.step t = none)
    (progress : t.progress = .inl p) (activity : p.activity = .pausing a resume error) :
    s.isCancelled = false ∧ t.now < resume := by
  simp only [schedule, progress] at stuck
  split at stuck
  · next held =>
      simp only [Executor.advance, activity, ← mirrors.cancelled] at held
      split at held
      · next lasts =>
          simp only [Course.afterPause] at lasts
          split at lasts
          · cases lasts
          · next unheard =>
              split at lasts
              · cases lasts
              · next early => exact ⟨Bool.eq_false_iff.mpr unheard, Nat.lt_of_not_le early⟩
      · cases held
  · cases stuck
  · cases stuck

theorem Mirrors.waits {u : Instant} (mirrors : Mirrors trial t s)
    (stuck : trial.schedule.step t = none) {p : Performance} (progress : t.progress = .inl p)
    (next : ∀ v ∈ trial.schedule.nextInstant t, u ≤ v) : s.Waits u := by
  have shows := mirrors.shows
  rw [progress] at shows
  cases activity : p.activity with
  | acting a behaviour started =>
      simp only [Shows, activity] at shows
      simp only [Session.Waits, shows.1]
  | pausing a resume error =>
      obtain ⟨unheard, early⟩ := mirrors.pausing stuck progress activity
      simp only [Shows, activity] at shows
      simp only [Session.Waits, shows]
      refine ⟨Option.isNone_iff_eq_none.mp ?_, ?_⟩
      · simpa [Session.isCancelled] using unheard
      · have due : resume ∈ trial.schedule.wakeUps t := by
          simp [schedule, progress, Performance.wakeUp?, activity]
        obtain ⟨v, first, le⟩ := Schedule.nextInstant_le due
          (Nat.lt_of_lt_of_le early (Clock.le_tick resume))
        exact Nat.le_trans (next v first) le

/-- The clock moves for a session as it does for a trial, which may be cancelled by then. -/
theorem Mirrors.elapse {u : Instant} {p : Performance} (mirrors : Mirrors trial t s)
    (stuck : trial.schedule.step t = none) (progress : t.progress = .inl p)
    (later : t.now ≤ u) (whole : Clock.tick u = u)
    (next : ∀ v ∈ trial.schedule.nextInstant t, u ≤ v) :
    ∃ s', Mirrors trial (trial.schedule.elapse t u) s' := by
  have elapsed := mirrors.reached.step
    (.elapsed (mirrors.now ▸ later) (mirrors.waits stuck progress next))
  have shows := mirrors.shows
  rw [progress] at shows
  have same : Shows { s with now := u } t.progress := progress ▸ shows
  obtain ⟨under, starts, ends⟩ := mirrors.records
  cases heard : s.isCancelled with
  | true =>
      refine ⟨_, elapsed, rfl, whole, heard.trans (isPast_mono later ?_).symm, same,
        under, starts, ends⟩
      exact mirrors.cancelled.symm.trans heard
  | false =>
      cases past : isPast u trial.cancelAt with
      | false => exact ⟨_, elapsed, rfl, whole, heard.trans past.symm, same, under, starts, ends⟩
      | true =>
          have fresh : s.cancelledAt = none := by simpa [Session.isCancelled] using heard
          exact ⟨_, elapsed.step (.cancelled fresh), rfl, whole, past.symm, progress ▸ shows,
            under, starts, ends⟩

/-! ### Whole trials -/

/-- A trial is where some session is, or its script has panicked. -/
def Mirrored (trial : RetryTrial) (t : State) : Prop := Broken t ∨ ∃ s, Mirrors trial t s

/-- A trial whose call has just begun. -/
def start (trial : RetryTrial) : State :=
  let ex : Executor := { script := trial.script, policy := some trial.policy }
  let begun := ex.begin 0 (isPast 0 trial.cancelAt) trial.id trial.payload
    (trial.deadline.bind (Clock.after? 0))
  { now := 0, executor := begun.2, progress := .inl begun.1 }

theorem mirrored_start (trial : RetryTrial) : Mirrored trial trial.start := by
  refine .inr ⟨{ now := 0, cancelledAt := if isPast 0 trial.cancelAt then some 0 else none },
    .started ?_, rfl, (by decide : Clock.tick 0 = 0), ?_, ⟨rfl, rfl⟩, rfl, rfl, rfl⟩
  · intro t ht
    split at ht <;> cases ht
    exact Nat.le_refl _
  · show Option.isSome (if isPast 0 trial.cancelAt then some 0 else none) = isPast 0 trial.cancelAt
    cases isPast 0 trial.cancelAt <;> rfl

theorem Mirrored.step (h : Mirrored trial t) (step : trial.schedule.step t = some t') :
    Mirrored trial t' := by
  rcases h with ⟨u, broken⟩ | ⟨s, mirrors⟩
  · simp [schedule, broken] at step
  · exact mirrors.step step

/-- At least the steps that a trial can take before the clock has to move. -/
def rank (trial : RetryTrial) (t : State) : Nat :=
  match t.progress with
  | .inr _ => 0
  | .inl p =>
      match p.activity with
      | .acting a .. => 2 * (trial.policy.maxRetries - a) + 2
      | .pausing a .. => 2 * (trial.policy.maxRetries - a) + 1

theorem rank_step (h : Mirrored trial t) (step : trial.schedule.step t = some t') :
    rank trial t' < rank trial t := by
  rcases h with ⟨u, broken⟩ | ⟨s, mirrors⟩
  · simp [schedule, broken] at step
  obtain ⟨p, r, ex', progress, advanced, rfl⟩ := step_cases step
  have under : (trial.executorNow t).policy = some trial.policy := mirrors.records.policy
  have shows := mirrors.shows
  rw [progress] at shows
  rcases Executor.advance_cases under advanced with
    ⟨a, behaviour, started, result, activity, followed⟩ |
      ⟨a, resume, error, course, notices, activity, after, followed⟩ | rfl
  · rcases Course.afterAttempt_cases trial.policy t.now (isPast t.now trial.cancelAt) a result with
      ⟨resume, error, next⟩ | next | ⟨cause, next⟩ | ⟨cause, next⟩ <;>
      rw [next] at followed <;> cases followed <;> simp [rank, timed, progress, activity]
  · -- The number of the attempt grows, and it stays below that of the repetitions.
    simp only [Shows, activity] at shows
    have retry := (Session.kept_of_reaches mirrors.reached).retry_of_pause shows
    simp only [Course.afterPause] at after
    split at after
    · cases after
      cases followed
      simp [rank, timed, progress, activity]
    · split at after
      · cases after
        cases followed
        simp only [rank, timed, progress, activity]
        omega
      · cases after
  · simp only [rank, timed, progress]
    split <;> exact Nat.succ_pos _

theorem mirrored_settle (n : Nat) (h : Mirrored trial t) :
    Mirrored trial (trial.schedule.settle n t) ∧
      (rank trial t ≤ n → trial.schedule.step (trial.schedule.settle n t) = none) := by
  induction n generalizing t with
  | zero =>
      refine ⟨h, fun none => Option.eq_none_iff_forall_not_mem.mpr fun t' step => ?_⟩
      exact absurd (rank_step h step) (Nat.not_lt.mpr (Nat.le_trans none (Nat.zero_le _)))
  | succ n ih =>
      rw [Schedule.settle]
      split
      · next stuck => exact ⟨h, fun _ => stuck⟩
      · next t' step =>
          have less := rank_step h step
          exact (ih (h.step step)).imp_right fun stuck most => stuck (by omega)

/-- The clock moves to the next instant at which something is due, but not beyond `limit`. -/
theorem Mirrored.elapse_next {limit : Instant} {p : Performance} (h : Mirrored trial t)
    (whole : Clock.tick limit = limit) (stuck : trial.schedule.step t = none)
    (progress : t.progress = .inl p) (early : t.now < limit) :
    Mirrored trial (trial.schedule.elapse t
      (min ((trial.schedule.nextInstant t).getD limit) limit)) := by
  rcases h with ⟨u, broken⟩ | ⟨s, mirrors⟩
  · rw [broken] at progress
    cases progress
  right
  cases next : trial.schedule.nextInstant t with
  | none =>
      refine mirrors.elapse stuck progress ?_ ?_ (fun v first => by rw [next] at first; cases first)
      · rw [Option.getD_none, Nat.min_self]
        exact Nat.le_of_lt early
      · rw [Option.getD_none, Nat.min_self]
        exact whole
  | some v =>
      obtain ⟨whole_v, later⟩ := Schedule.nextInstant_cases next
      refine mirrors.elapse stuck progress ?_ ?_ (fun w first => ?_)
      · exact Nat.le_min.mpr ⟨Nat.le_of_lt later, Nat.le_of_lt early⟩
      · rcases Nat.le_total v limit with le | le
        · rw [Option.getD_some, Nat.min_eq_left le, whole_v]
        · rw [Option.getD_some, Nat.min_eq_right le, whole]
      · cases next.symm.trans first
        exact Nat.min_le_left _ _

/-- As long as the steps at one instant can be taken, a trial is where a session is. -/
theorem mirrored_runTo {limit : Instant} (whole : Clock.tick limit = limit)
    (few : 2 * trial.policy.maxRetries + 2 ≤ stepLimit) (fuel : Nat) (h : Mirrored trial t) :
    Mirrored trial (trial.schedule.runTo (·.progress.isRight) limit fuel t) := by
  induction fuel generalizing t with
  | zero => exact h
  | succ fuel ih =>
      have most : rank trial t ≤ stepLimit := by
        simp only [rank]
        split
        · exact Nat.zero_le _
        · split <;> omega
      obtain ⟨settled, stuck⟩ := mirrored_settle stepLimit h
      simp only [Schedule.runTo]
      split
      · exact settled
      · next goes_on =>
          simp only [Bool.or_eq_true, decide_eq_true_eq, not_or, Bool.not_eq_true,
            Nat.not_le] at goes_on
          obtain ⟨running, early⟩ := goes_on
          obtain ⟨p, progress⟩ := Sum.isLeft_iff.mp (Sum.isRight_eq_false.mp running)
          exact ih (settled.elapse_next whole (stuck most) progress early)

/-- What the trial of a call under a policy records, a session does, if the script does not
panic and the repetitions can be taken at one instant. -/
theorem run_mirrors (trial : RetryTrial) (few : 2 * trial.policy.maxRetries + 2 ≤ stepLimit) :
    (∃ at_time, trial.run.1 = some (at_time, .panicked)) ∨
      ∃ s, Session.Reaches trial.policy 0 s ∧ Records trial.policy s trial.run.2 ∧
        trial.run.1 = (Verdict.ofCourse? s.course).map (s.now, ·) := by
  have whole : Clock.tick (0 + patience.nanos) = 0 + patience.nanos := by decide
  rcases mirrored_runTo whole few stepLimit (mirrored_start trial) with ⟨u, broken⟩ | ⟨s, mirrors⟩
  · exact .inl ⟨u, congrArg Sum.getRight? broken⟩
  · exact .inr ⟨s, mirrors.reached, mirrors.records, getRight?_of_shows mirrors.shows⟩

end RetryTrial

end Scenario

end ReliableQueue
