import ReliableQueue.Proofs.Clock
import ReliableQueue.Retry.Attempts

/-!
What one call under a retry policy does, whatever the executor answers, however long it takes and
whenever the call is cancelled: how many attempts are made, when each of them starts and what is
reported.
-/

namespace ReliableQueue

namespace Retry

/-- An attempt that has ended. -/
structure Attempt where
  started : Instant
  ended : Instant
  /-- The call was cancelled when the attempt ended. -/
  cancelled : Bool
  result : Except String Unit

/-- A call under way, with what was done so far. -/
structure Session where
  now : Instant
  /-- When the call was cancelled, if it was. -/
  cancelledAt : Option Instant := none
  course : Course := .attempt 0
  /-- When the last attempt started. -/
  since : Instant := now
  /-- The attempts that have ended, in order. -/
  attempts : List Attempt := []

namespace Session

def isCancelled (s : Session) : Bool := s.cancelledAt.isSome

/-- Time may pass until `t`: at will during an attempt, but a pause lasts no longer than to the
first whole millisecond after it or to the cancellation. -/
def Waits (s : Session) (t : Instant) : Prop :=
  match s.course with
  | .attempt _ => True
  | .pause _ resume _ => s.cancelledAt = none ∧ t ≤ Clock.tick resume
  | .succeeded | .exhausted _ | .panicked _ => False

/-- What can happen next. At the end of a pause a cancellation at the same instant may be
overlooked. -/
inductive Step (p : Policy) : Session → Session → Prop where
  | elapsed {s : Session} {t : Instant} (later : s.now ≤ t) (waits : s.Waits t) :
      Step p s { s with now := t }
  | cancelled {s : Session} (first : s.cancelledAt = none) :
      Step p s { s with cancelledAt := some s.now }
  | returned {s : Session} {a : Nat} (result : Except String Unit)
      (course : s.course = .attempt a) :
      Step p s { s with
        course := (Course.afterAttempt p s.now s.isCancelled a result).1
        attempts := s.attempts ++ [⟨s.since, s.now, s.isCancelled, result⟩] }
  | resumed {s : Session} {a : Nat} {resume : Instant} {error : String} {seen : Bool}
      {next : Course} {notices : List Notice} (course : s.course = .pause a resume error)
      (heeds : seen = true → s.isCancelled = true)
      (waited : seen = false → Clock.tick resume ≤ s.now)
      (after : Course.afterPause s.now seen a resume error = some (next, notices)) :
      Step p s { s with course := next, since := s.now }

/-- The sessions that a call started at `start` can come to, cancelled beforehand or not. -/
inductive Reaches (p : Policy) (start : Instant) : Session → Prop where
  | started {cancelledAt : Option Instant} (before : ∀ t ∈ cancelledAt, t ≤ start) :
      Reaches p start { now := start, cancelledAt }
  | step {s s' : Session} (before : Reaches p start s) (next : Step p s s') : Reaches p start s'

variable {p : Policy} {start : Instant} {s s' : Session}

/-- An attempt that starts at `started` is due after attempt number `i`. -/
structure Follows (p : Policy) (cancelledAt : Option Instant) (i : Nat) (m : Attempt)
    (started : Instant) : Prop where
  failed : ∃ error, m.result = .error error
  retry : i < p.maxRetries
  uncancelled : m.cancelled = false
  on_time : ∃ d, p.delay i = .ok d ∧ started = Clock.tick (Clock.sleepEnd m.ended d)
  until_then : ∀ t ∈ cancelledAt, started ≤ t

/-- How the course of a session comes from its last attempt. -/
inductive Stands (p : Policy) (s : Session) : Prop where
  | attempting (course : s.course = .attempt s.attempts.length)
      (follows : ∀ i m, i + 1 = s.attempts.length → s.attempts[i]? = some m →
        Follows p s.cancelledAt i m s.since)
  | pausing {i : Nat} {m : Attempt} {error : String} {d : Span}
      (last : i + 1 = s.attempts.length) (at_last : s.attempts[i]? = some m)
      (course : s.course = .pause i (Clock.sleepEnd m.ended d) error)
      (failed : m.result = .error error) (retry : i < p.maxRetries)
      (uncancelled : m.cancelled = false) (delay : p.delay i = .ok d)
      (lasts : s.now ≤ Clock.tick (Clock.sleepEnd m.ended d))
      (fresh : ∀ t ∈ s.cancelledAt, t = s.now)
  | succeeded {i : Nat} {m : Attempt} (last : i + 1 = s.attempts.length)
      (at_last : s.attempts[i]? = some m) (course : s.course = .succeeded)
      (result : m.result = .ok ())
  | exhausted {i : Nat} {m : Attempt} {error : String} (last : i + 1 = s.attempts.length)
      (at_last : s.attempts[i]? = some m) (course : s.course = .exhausted ⟨i + 1, error⟩)
      (failed : m.result = .error error) (early : i < p.maxRetries → s.isCancelled = true)
  | panicked {i : Nat} {m : Attempt} {cause : Binary64.SpanError}
      (last : i + 1 = s.attempts.length) (at_last : s.attempts[i]? = some m)
      (course : s.course = .panicked cause) (retry : i < p.maxRetries)
      (none : p.delay i = .error cause)

/-- What holds of a session all along. -/
structure Kept (p : Policy) (start : Instant) (s : Session) : Prop where
  stands : Stands p s
  linked : ∀ i m m', s.attempts[i]? = some m → s.attempts[i + 1]? = some m' →
    Follows p s.cancelledAt i m m'.started
  first : ∀ m, s.attempts[0]? = some m → m.started = start
  begun : s.attempts = [] → s.since = start
  past : ∀ m ∈ s.attempts, m.started ≤ s.now
  since : s.since ≤ s.now
  cancelled : ∀ t ∈ s.cancelledAt, t ≤ s.now

theorem kept_started {cancelledAt : Option Instant} (before : ∀ t ∈ cancelledAt, t ≤ start) :
    Kept p start { now := start, cancelledAt } where
  stands := .attempting rfl (fun _ _ last => by cases last)
  linked _ _ _ at_i := by cases at_i
  first _ at_first := by cases at_first
  begun _ := rfl
  past _ hm := by cases hm
  since := Nat.le_refl _
  cancelled := before

theorem Kept.elapsed {t : Instant} (kept : Kept p start s) (later : s.now ≤ t)
    (waits : s.Waits t) : Kept p start { s with now := t } where
  stands := by
    simp only [Waits] at waits
    cases kept.stands with
    | attempting course follows => exact .attempting course follows
    | pausing last at_last course failed retry uncancelled delay lasts fresh =>
        rw [course] at waits
        refine .pausing last at_last course failed retry uncancelled delay waits.2 fun u hu => ?_
        rw [waits.1] at hu
        cases hu
    | succeeded last at_last course | exhausted last at_last course
    | panicked last at_last course =>
        rw [course] at waits
        cases waits
  linked := kept.linked
  first := kept.first
  begun := kept.begun
  past m hm := Nat.le_trans (kept.past m hm) later
  since := Nat.le_trans kept.since later
  cancelled u hu := Nat.le_trans (kept.cancelled u hu) later

theorem Follows.of_now {cancelledAt : Option Instant} {i : Nat} {m : Attempt}
    {started now : Instant} (h : Follows p cancelledAt i m started) (past : started ≤ now) :
    Follows p (some now) i m started :=
  { h with until_then := by rintro t ⟨⟩; exact past }

theorem Kept.cancelling (kept : Kept p start s) :
    Kept p start { s with cancelledAt := some s.now } where
  stands := by
    cases kept.stands with
    | attempting course follows =>
        exact .attempting course fun i m last at_i => (follows i m last at_i).of_now kept.since
    | pausing last at_last course failed retry uncancelled delay lasts =>
        exact .pausing last at_last course failed retry uncancelled delay lasts
          (by rintro t ⟨⟩; rfl)
    | succeeded last at_last course result => exact .succeeded last at_last course result
    | exhausted last at_last course failed =>
        exact .exhausted last at_last course failed fun _ => rfl
    | panicked last at_last course retry none => exact .panicked last at_last course retry none
  linked i m m' at_i at_next :=
    (kept.linked i m m' at_i at_next).of_now (kept.past m' (List.mem_of_getElem? at_next))
  first := kept.first
  begun := kept.begun
  past := kept.past
  since := kept.since
  cancelled := by rintro t ⟨⟩; exact Nat.le_refl _

theorem Stands.of_attempt {a : Nat} (stands : Stands p s) (course : s.course = .attempt a) :
    a = s.attempts.length ∧ ∀ i m, i + 1 = s.attempts.length → s.attempts[i]? = some m →
      Follows p s.cancelledAt i m s.since := by
  cases stands with
  | attempting at_length follows =>
      rw [at_length] at course
      cases course
      exact ⟨rfl, follows⟩
  | pausing last at_last other | succeeded last at_last other | exhausted last at_last other
  | panicked last at_last other =>
      rw [other] at course
      cases course

/-- What follows the latest attempt. -/
theorem stands_returned {next : Session} {m : Attempt} {i : Nat}
    (last : i + 1 = next.attempts.length) (at_last : next.attempts[i]? = some m)
    (course : next.course = (Course.afterAttempt p next.now next.isCancelled i m.result).1)
    (ended : m.ended = next.now) (cancelled : m.cancelled = next.isCancelled) :
    Stands p next := by
  cases failed : m.result with
  | ok =>
      rw [failed] at course
      exact .succeeded last at_last course failed
  | error error =>
      simp only [failed, Course.afterAttempt] at course
      split at course
      · next given_up =>
          refine .exhausted last at_last course failed fun retry => ?_
          simpa [Policy.shouldRetry, retry] using given_up
      · next goes_on =>
          simp only [Policy.shouldRetry, Bool.or_eq_true, Bool.not_eq_true',
            decide_eq_false_iff_not, not_or, Nat.not_lt, Nat.not_le, Bool.not_eq_true] at goes_on
          obtain ⟨retry, uncancelled⟩ := goes_on
          split at course
          · next none => exact .panicked last at_last course retry none
          · next d delay =>
              rw [← ended] at course
              refine .pausing last at_last course failed retry (cancelled.trans uncancelled) delay
                ?_ ?_
              · rw [ended]
                exact Nat.le_trans (Clock.le_sleepEnd _ _) (Clock.le_tick _)
              · intro t ht
                rw [isCancelled, ht] at uncancelled
                cases uncancelled

theorem Kept.returned {a : Nat} (kept : Kept p start s) (course : s.course = .attempt a)
    (result : Except String Unit) :
    Kept p start { s with
      course := (Course.afterAttempt p s.now s.isCancelled a result).1
      attempts := s.attempts ++ [⟨s.since, s.now, s.isCancelled, result⟩] } where
  stands := by
    obtain ⟨rfl, -⟩ := kept.stands.of_attempt course
    exact stands_returned (i := s.attempts.length) (by simp) List.getElem?_concat_length rfl rfl
      rfl
  linked i m m' at_i at_next := by
    obtain ⟨-, follows⟩ := kept.stands.of_attempt course
    have bound := (List.getElem?_eq_some_iff.mp at_next).1
    rw [List.length_append, List.length_singleton] at bound
    rw [List.getElem?_append_left (by omega)] at at_i
    rcases Nat.lt_or_ge (i + 1) s.attempts.length with old | new
    · rw [List.getElem?_append_left old] at at_next
      exact kept.linked i m m' at_i at_next
    · have last : i + 1 = s.attempts.length := by omega
      rw [last, List.getElem?_concat_length] at at_next
      cases at_next
      exact follows i m last at_i
  first m at_first := by
    cases none : s.attempts with
    | nil =>
        rw [none] at at_first
        cases at_first
        exact kept.begun none
    | cons m' rest =>
        rw [none] at at_first
        exact kept.first m (by rw [none]; exact at_first)
  begun none := by
    simp at none
  past m hm := by
    rcases List.mem_append.mp hm with old | new
    · exact kept.past m old
    · rw [List.mem_singleton.mp new]
      exact kept.since
  since := kept.since
  cancelled := kept.cancelled

theorem Kept.resumed {a : Nat} {resume : Instant} {error : String} {seen : Bool} {next : Course}
    {notices : List Notice} (kept : Kept p start s) (course : s.course = .pause a resume error)
    (heeds : seen = true → s.isCancelled = true) (waited : seen = false → Clock.tick resume ≤ s.now)
    (after : Course.afterPause s.now seen a resume error = some (next, notices)) :
    Kept p start { s with course := next, since := s.now } := by
  cases kept.stands with
  | @pausing i m e d last at_last other failed retry uncancelled delay lasts fresh =>
      rw [other] at course
      cases course
      refine
        { stands := ?_
          linked := kept.linked
          first := kept.first
          begun := fun none => ?_
          past := kept.past
          since := Nat.le_refl _
          cancelled := kept.cancelled }
      · simp only [Course.afterPause] at after
        split at after
        · next heard =>
            cases after
            exact .exhausted last at_last rfl failed fun _ => heeds heard
        · next overlooked =>
            split at after
            · cases after
              have ends := Nat.le_antisymm lasts (waited (Bool.eq_false_iff.mpr overlooked))
              refine .attempting (congrArg _ last) fun j m' last' at_j => ?_
              cases Nat.succ.inj (last'.trans last.symm)
              cases at_last.symm.trans at_j
              exact
                { failed := ⟨_, failed⟩
                  retry := retry
                  uncancelled := uncancelled
                  on_time := ⟨d, delay, ends⟩
                  until_then := fun t ht => Nat.le_of_eq (fresh t ht).symm }
            · cases after
      · rw [none] at last
        cases last
  | attempting other | succeeded _ _ other | exhausted _ _ other | panicked _ _ other =>
      rw [other] at course
      cases course

theorem Kept.step (kept : Kept p start s) (next : Step p s s') : Kept p start s' := by
  cases next with
  | elapsed later waits => exact kept.elapsed later waits
  | cancelled => exact kept.cancelling
  | returned result course => exact kept.returned course result
  | resumed course heeds waited after => exact kept.resumed course heeds waited after

theorem kept_of_reaches (h : Reaches p start s) : Kept p start s := by
  induction h with
  | started before => exact kept_started before
  | step _ next ih => exact ih.step next

/-- The call has returned or panicked. -/
def isOver (s : Session) : Bool :=
  match s.course with
  | .attempt _ | .pause .. => false
  | .succeeded | .exhausted _ | .panicked _ => true

/-- The pauses after the attempts made are spans that the clock can add. -/
def Pauses (p : Policy) (s : Session) : Prop :=
  ∀ i m, s.attempts[i]? = some m → i < p.maxRetries →
    ∃ d, p.delay i = .ok d ∧ (Clock.after? m.ended d).isSome = true

/-- What a call started at `start` has done and reported once it is over. -/
structure Performed (p : Policy) (start : Instant) (s : Session) : Prop where
  least : 1 ≤ s.attempts.length
  most : s.attempts.length ≤ p.maxRetries + 1
  first : ∀ m, s.attempts[0]? = some m → m.started = start
  failed : ∀ i m, s.attempts[i]? = some m → i + 1 < s.attempts.length →
    ∃ error, m.result = .error error
  reported : ∃ m, s.attempts.getLast? = some m ∧
    ((m.result = .ok () ∧ s.course = .succeeded) ∨
      ∃ error, m.result = .error error ∧ s.course = .exhausted ⟨s.attempts.length, error⟩)
  early : s.course ≠ .succeeded → s.attempts.length ≤ p.maxRetries →
    ∃ t ∈ s.cancelledAt, t ≤ s.now
  on_time : ∀ i m m', s.attempts[i]? = some m → s.attempts[i + 1]? = some m' →
    ∃ d, p.delay i = .ok d ∧ m'.started = Clock.tick (m.ended + d.nanos)
  /-- Neither did the cancellation come during an attempt nor before the end of the pause after
  it if another one was made. -/
  heeded : ∀ i m m', s.attempts[i]? = some m → s.attempts[i + 1]? = some m' →
    m.cancelled = false ∧ ∀ t ∈ s.cancelledAt, m'.started ≤ t

theorem Kept.follows (kept : Kept p start s) {i : Nat} {m : Attempt}
    (at_i : s.attempts[i]? = some m) (more : i + 1 < s.attempts.length) :
    ∃ m', s.attempts[i + 1]? = some m' ∧ Follows p s.cancelledAt i m m'.started :=
  ⟨s.attempts[i + 1], List.getElem?_eq_getElem more,
    kept.linked i m _ at_i (List.getElem?_eq_getElem more)⟩

/-- An attempt but the first one is a repetition. -/
theorem Kept.most (kept : Kept p start s) : s.attempts.length ≤ p.maxRetries + 1 := by
  rcases Nat.lt_or_ge s.attempts.length 2 with few | many
  · omega
  · obtain ⟨j, length⟩ := Nat.exists_eq_add_of_le' many
    have before : j < s.attempts.length := by omega
    obtain ⟨_, -, follows⟩ := kept.follows (List.getElem?_eq_getElem before) (by omega)
    have retry := follows.retry
    omega

/-- Whatever the executor answers and whenever the call is cancelled, a policy makes the attempts
that it should and reports them. -/
theorem performed_of_reaches (p : Policy) (start : Instant) (s : Session)
    (reached : Reaches p start s) (is_over : s.isOver = true) (pauses : Pauses p s) :
    Performed p start s := by
  have kept := kept_of_reaches reached
  obtain ⟨i, m, last, at_last, reported, early⟩ : ∃ i m, i + 1 = s.attempts.length ∧
      s.attempts[i]? = some m ∧
      ((m.result = .ok () ∧ s.course = .succeeded) ∨ ∃ error, m.result = .error error ∧
        s.course = .exhausted ⟨s.attempts.length, error⟩) ∧
      (s.course ≠ .succeeded → i < p.maxRetries → s.isCancelled = true) := by
    cases kept.stands with
    | attempting course | pausing last at_last course => simp [isOver, course] at is_over
    | succeeded last at_last course result =>
        exact ⟨_, _, last, at_last, .inl ⟨result, course⟩, fun failed => absurd course failed⟩
    | exhausted last at_last course failed early =>
        exact ⟨_, _, last, at_last, .inr ⟨_, failed, by rw [course, last]⟩, fun _ => early⟩
    | panicked last at_last course retry none =>
        obtain ⟨d, delay, -⟩ := pauses _ _ at_last retry
        rw [none] at delay
        cases delay
  exact
    { least := by omega
      most := kept.most
      first := kept.first
      failed := fun i m at_i more =>
        let ⟨_, _, follows⟩ := kept.follows at_i more
        follows.failed
      reported := by
        refine ⟨m, ?_, reported⟩
        rw [List.getLast?_eq_getElem?, ← last, Nat.add_sub_cancel, at_last]
      early := fun failed few => by
        obtain ⟨t, cancelled⟩ := Option.isSome_iff_exists.mp (early failed (by omega))
        exact ⟨t, cancelled, kept.cancelled t cancelled⟩
      on_time := fun i m m' at_i at_next => by
        have follows := kept.linked i m m' at_i at_next
        obtain ⟨d, delay, started⟩ := follows.on_time
        obtain ⟨d', delay', fits⟩ := pauses i m at_i follows.retry
        cases delay.symm.trans delay'
        exact ⟨d, delay, by rw [started, Clock.sleepEnd_of_fits fits]⟩
      heeded := fun i m m' at_i at_next =>
        have follows := kept.linked i m m' at_i at_next
        ⟨follows.uncancelled, follows.until_then⟩ }

/-- One repetition, a millisecond later. -/
def onceMore : Policy := { maxRetries := 1, initialDelay := .ofMillis 1, maxDelay := .ofMillis 5 }

/-- An attempt that fails and one, in time, that does not. -/
def secondSucceeded : Session where
  now := 1000000
  course := .succeeded
  since := 1000000
  attempts := [⟨0, 0, false, .error "busy"⟩, ⟨1000000, 1000000, false, .ok ()⟩]

theorem reaches_secondSucceeded : Reaches onceMore 0 secondSucceeded := by
  have paused : (Course.afterAttempt onceMore 0 false 0 (.error "busy")).1 =
      .pause 0 1000000 "busy" := by decide +kernel
  have begun : Reaches onceMore 0 { now := 0 } := .started (by rintro t ⟨⟩)
  have failed := begun.step (.returned (.error "busy") rfl)
  simp only [isCancelled, Option.isSome_none, List.nil_append, paused] at failed
  have waited := failed.step (.elapsed (t := 1000000) (Nat.zero_le _) ⟨rfl, by decide⟩)
  have resumed : Course.afterPause 1000000 false 0 1000000 "busy" = some (.attempt 1, []) := rfl
  have again := waited.step (.resumed rfl (by rintro ⟨⟩) (fun _ => by decide) resumed)
  exact again.step (.returned (.ok ()) rfl)

theorem performed_secondSucceeded : Reaches onceMore 0 secondSucceeded ∧
    secondSucceeded.isOver = true ∧ Pauses onceMore secondSucceeded ∧
      Performed onceMore 0 secondSucceeded := by
  have delay : (onceMore.delay 0).toOption = some (.ofMillis 1) := by decide +kernel
  have pauses : Pauses onceMore secondSucceeded := by
    intro i m at_i retry
    obtain rfl : i = 0 := Nat.lt_one_iff.mp retry
    cases at_i
    refine ⟨.ofMillis 1, ?_, by decide +kernel⟩
    cases computed : onceMore.delay 0 with
    | error e =>
        rw [computed] at delay
        cases delay
    | ok d =>
        rw [computed] at delay
        cases delay
        rfl
  exact ⟨reaches_secondSucceeded, rfl, pauses,
    performed_of_reaches onceMore 0 secondSucceeded reaches_secondSucceeded rfl pauses⟩

end Session

end Retry

end ReliableQueue
