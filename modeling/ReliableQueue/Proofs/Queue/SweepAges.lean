import ReliableQueue.Proofs.Queue.Patrols
import ReliableQueue.Proofs.Queue.Turning

/-!
The ages of sweepers. A sweeper is set going with an age that its handle accepts, and neither the
age nor the options of the handle change afterwards. So the check of the age that begins every
recovery would not refuse any of its sweeps, and the sweeper does without it.
-/

namespace ReliableQueue.Queue

theorem checkMaxAge_ok_iff {h : Handle} {maxAge : Span} :
    checkMaxAge h.options maxAge = .ok () ↔ h.timeout < maxAge := by
  refine ⟨fun accepted => ?_, checkMaxAge_of_lt⟩
  rcases Nat.lt_or_ge h.timeout.nanos maxAge.nanos with before | within
  · exact before
  · rw [checkMaxAge_of_le within] at accepted
    cases accepted

/-- A recovery leaves it to the sweeper to say that it failed. -/
theorem Recovery.Steps.not_sweepFailed {k : Keys} {maxAge : Span} {second : Nat}
    {m m' : Store.Memory} {r : Recovery} {o : Outcome} {es : List Event}
    (h : Steps k maxAge second m r o m' es) {e : Error} : .sweepFailed e ∉ es := by
  cases h with
  | unranged | ranged | kept | moved => simp
  | restored count => split <;> simp

namespace Sweeper

/-- A step of a sweeper whose sweeps begin like calls for a recovery, with a check of the age. -/
def checkedStep (s : Sweeper) (o : Options) (keys : Keys) (epoch : Nat) (now : Instant)
    (heeds : Bool) (m : Store.Memory) : Option (Stage × Store.Memory × List Event) :=
  match checkMaxAge o s.config.maxAge with
  | .ok () => s.step keys epoch now heeds m
  | .error e =>
      match s.stage with
      | .waiting tick =>
          if heeds then some (.stopping, m, [])
          else if tick ≤ now then
            match nextTick s.config.period tick now with
            | some next => some (.waiting next, m, [.sweepFailed e])
            | none => some (.panicked, m, [])
          else none
      | _ => s.step keys epoch now heeds m

/-- No sweep fails for its age. -/
structure NeverRefused (s : Sweeper) (h : Handle) : Prop where
  accepted : checkMaxAge h.options s.config.maxAge = .ok ()
  steps : ∀ epoch now heeds m,
    s.checkedStep h.options h.keys epoch now heeds m = s.step h.keys epoch now heeds m
  events : ∀ epoch now heeds m stage m' es,
    s.checkedStep h.options h.keys epoch now heeds m = some (stage, m', es) →
    ∀ maxAge timeout, .sweepFailed (.maxAgeTooSmall maxAge timeout) ∉ es

variable {s : Sweeper} {h : Handle} {keys : Keys} {epoch : Nat} {now : Instant} {heeds : Bool}
  {m m' : Store.Memory} {stage : Stage} {es : List Event}

/-- The sweeps of a sweeper fail only with the store. -/
theorem cause_of_step (h : s.step keys epoch now heeds m = some (stage, m', es)) {e : Error}
    (failed : .sweepFailed e ∈ es) : ∃ cause, e = .store cause := by
  unfold step at h
  split at h
  · cases h
    simp at failed
  · repeat' split at h
    all_goals cases h
    all_goals simp at failed
  · split at h
    · next going =>
        cases h
        exact absurd failed (Recovery.steps going).not_sweepFailed
    · next ended =>
        cases h
        rcases List.mem_append.mp failed with failed | failed
        · exact absurd failed (Recovery.steps ended).not_sweepFailed
        · split at failed <;> simp at failed
    · next ended =>
        cases h
        rcases List.mem_append.mp failed with failed | failed
        · exact absurd failed (Recovery.steps ended).not_sweepFailed
        · rw [List.mem_singleton] at failed
          cases failed
          exact ⟨_, rfl⟩
  · cases h
    simp at failed
  · cases h
  · cases h

theorem neverRefused_of_lt (accepted : h.timeout < s.config.maxAge) : s.NeverRefused h := by
  have check := checkMaxAge_of_lt accepted
  have steps (epoch : Nat) (now : Instant) (heeds : Bool) (m : Store.Memory) :
      s.checkedStep h.options h.keys epoch now heeds m =
        s.step h.keys epoch now heeds m := by
    rw [checkedStep, check]
  refine ⟨check, steps, fun epoch now heeds m stage m' es step maxAge timeout failed => ?_⟩
  rw [steps] at step
  obtain ⟨cause, eq⟩ := cause_of_step step failed
  cases eq

end Sweeper

namespace Cluster

variable {a : Act} {c d : Cluster}

theorem addSweeper_of_lt {i : Nat} {h : Handle} {config : Sweeper.Config}
    (handle : c.handles[i]? = some h) (accepted : h.timeout < config.maxAge) (t : Token) :
    c.addSweeper i t config =
      .ok { c with sweepers := c.sweepers ++ [{ handle := i, token := t, config }] } := by
  simp only [addSweeper, handle, checkMaxAge_of_lt accepted]

theorem addSweeper_of_le {i : Nat} {h : Handle} {config : Sweeper.Config}
    (handle : c.handles[i]? = some h) (refused : config.maxAge ≤ h.timeout) (t : Token) :
    c.addSweeper i t config = .error (.maxAgeTooSmall config.maxAge h.timeout) := by
  simp only [addSweeper, handle, checkMaxAge_of_le refused]

/-- Every sweeper has an age that its handle accepts. -/
def Accepted (c : Cluster) : Prop :=
  ∀ s ∈ c.sweepers, ∃ h, c.handles[s.handle]? = some h ∧ h.timeout < s.config.maxAge

theorem Accepted.perform (accepted : c.Accepted) (h : c.perform a = some d) : d.Accepted := by
  -- A handle keeps its options, and with them the least age that it accepts.
  have kept {s : Sweeper} {hd : Handle} (handle : c.handles[s.handle]? = some hd)
      (before : hd.timeout < s.config.maxAge) :
      ∃ hd', d.handles[s.handle]? = some hd' ∧ hd'.timeout < s.config.maxAge := by
    obtain ⟨hd', handle', options, -⟩ := handle_of_perform h handle
    refine ⟨hd', handle', ?_⟩
    rw [Handle.timeout, options]
    exact before
  have old {s : Sweeper} (hs : s ∈ c.sweepers) :
      ∃ hd', d.handles[s.handle]? = some hd' ∧ hd'.timeout < s.config.maxAge := by
    obtain ⟨hd, handle, before⟩ := accepted s hs
    exact kept handle before
  intro s hs
  cases sweepers_of_perform h with
  | same sweepers => exact old (sweepers ▸ hs)
  | moved k s stage at_k sweepers =>
      rw [sweepers] at hs
      rcases List.mem_or_eq_of_mem_set hs with hs | rfl
      · exact old hs
      · exact old (s := s) (List.mem_of_getElem? at_k)
  | added i t config hd _ handle before sweepers =>
      rw [sweepers] at hs
      rcases List.mem_append.mp hs with hs | hs
      · exact old hs
      · obtain rfl := List.mem_singleton.mp hs
        exact kept handle (checkMaxAge_ok_iff.mp before)

theorem Accepted.of_reaches {ok : Cluster → Act → Prop} (accepted : c.Accepted)
    (h : Reaches ok c d) : d.Accepted :=
  h.invariant accepted fun _ _ _ accepted _ step => accepted.perform step

theorem Accepted.neverRefused (accepted : c.Accepted) {s : Sweeper} (hs : s ∈ c.sweepers) :
    ∃ h, c.handles[s.handle]? = some h ∧ s.NeverRefused h := by
  obtain ⟨h, handle, before⟩ := accepted s hs
  exact ⟨h, handle, Sweeper.neverRefused_of_lt before⟩

end Cluster

end ReliableQueue.Queue
