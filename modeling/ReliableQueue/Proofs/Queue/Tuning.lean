import ReliableQueue.Config.Settings

/-!
What calls of setters make of options. Every field holds the last value that it was given, zeros
not counted, so calls for different fields may come in any order, and the options of a
configuration are those of its four values in whatever order they are set.
-/

namespace ReliableQueue

theorem Span.nanos_pos {d : Span} (h : ¬d.isZero = true) : 0 < d.nanos :=
  Nat.pos_of_ne_zero fun zero => h (decide_eq_true zero)

namespace Queue.Options

variable {o : Options} {a b : Setting}

/-! ### Fields -/

inductive Field where
  | workers
  | bufferSize
  | executionTimeout
  | pollInterval
deriving DecidableEq

/-- What a field holds. -/
abbrev Field.Value : Field → Type
  | workers | bufferSize => Nat
  | executionTimeout => Option Span
  | pollInterval => Span

def get (o : Options) : (f : Field) → f.Value
  | .workers => o.workers
  | .bufferSize => o.bufferSize
  | .executionTimeout => o.executionTimeout
  | .pollInterval => o.pollInterval

theorem ext_get {o o' : Options} (h : ∀ f, o.get f = o'.get f) : o = o' := by
  obtain ⟨workers, bufferSize, executionTimeout, pollInterval⟩ := o
  obtain rfl : workers = _ := h .workers
  obtain rfl : bufferSize = _ := h .bufferSize
  obtain rfl : executionTimeout = _ := h .executionTimeout
  obtain rfl : pollInterval = _ := h .pollInterval
  rfl

namespace Setting

/-- The field that a call is for. -/
def field : Setting → Field
  | workers _ => .workers
  | bufferSize _ => .bufferSize
  | executionTimeout _ | noExecutionTimeout => .executionTimeout
  | pollInterval _ => .pollInterval

/-- The value that a call gives a field; a zero is none. -/
def given : Setting → (f : Field) → Option f.Value
  | workers n, .workers => if n = 0 then none else some n
  | bufferSize n, .bufferSize => if n = 0 then none else some n
  | executionTimeout d, .executionTimeout => if d.isZero then none else some (some d)
  | noExecutionTimeout, .executionTimeout => some none
  | pollInterval d, .pollInterval => if d.isZero then none else some d
  | _, _ => none

theorem given_of_ne {f : Field} (other : a.field ≠ f) : a.given f = none := by
  cases a <;> cases f <;> first | rfl | exact absurd rfl other

end Setting

/-! ### Calls -/

/-- A call gives its field a value and leaves all else. -/
theorem get_set (o : Options) (c : Setting) (f : Field) :
    (o.set c).get f = (c.given f).getD (o.get f) := by
  cases c with
  | workers n =>
      simp only [set, setWorkers]
      cases f <;> simp only [Setting.given] <;> split <;> rfl
  | bufferSize n =>
      simp only [set, setBufferSize]
      cases f <;> simp only [Setting.given] <;> split <;> rfl
  | executionTimeout d =>
      simp only [set, setExecutionTimeout]
      cases f <;> simp only [Setting.given] <;> split <;> rfl
  | pollInterval d =>
      simp only [set, setPollInterval]
      cases f <;> simp only [Setting.given] <;> split <;> rfl
  | noExecutionTimeout => cases f <;> rfl

theorem get_setAll (o : Options) (calls : List Setting) (f : Field) :
    (o.setAll calls).get f = (calls.filterMap (·.given f)).getLastD (o.get f) := by
  induction calls generalizing o with
  | nil => rfl
  | cons c rest ih =>
      have step : (o.setAll (c :: rest)).get f = ((o.set c).setAll rest).get f := rfl
      rw [step, ih, get_set]
      rw [List.filterMap_cons]
      cases c.given f with
      | none => rfl
      | some v => rw [List.getLastD_cons, Option.getD_some]

theorem set_comm (o : Options) (apart : a.field ≠ b.field) : (o.set a).set b = (o.set b).set a := by
  refine ext_get fun f => ?_
  rw [get_set, get_set, get_set, get_set]
  rcases Decidable.em (a.field = f) with rfl | other
  · rw [Setting.given_of_ne (Ne.symm apart), Option.getD_none, Option.getD_none]
  · rw [Setting.given_of_ne other, Option.getD_none, Option.getD_none]

/-- Calls for different fields may come in any order. -/
theorem setAll_perm {calls calls' : List Setting} (o : Options)
    (apart : (calls.map Setting.field).Nodup) (perm : calls.Perm calls') :
    o.setAll calls = o.setAll calls' := by
  -- A call commutes with itself and with the calls for other fields, and there are no others.
  have commute : calls.Pairwise fun a b => ∀ o : Options, (o.set a).set b = (o.set b).set a :=
    (List.pairwise_map.mp apart).imp fun apart o => set_comm o apart
  have all := commute.forall_of_forall_of_flip (fun _ _ _ => rfl)
    (commute.imp fun commute o => (commute o).symm)
  exact perm.foldl_eq' (fun a ha b hb o => all ha hb o) o

/-! ### No zeros -/

/-- No field is zero, so no loop spins and no channel is without room. -/
structure Positive (o : Options) : Prop where
  workers : 0 < o.workers
  bufferSize : 0 < o.bufferSize
  executionTimeout : ∀ d, o.executionTimeout = some d → 0 < d.nanos
  pollInterval : 0 < o.pollInterval.nanos

theorem positive_default : default.Positive where
  workers := by decide
  bufferSize := by decide
  executionTimeout d timeout := by
    cases timeout
    decide
  pollInterval := by decide

theorem Positive.set (h : o.Positive) (c : Setting) : (o.set c).Positive := by
  cases c with
  | workers n =>
      simp only [Options.set, setWorkers]
      split
      · exact h
      · next some => exact { h with workers := Nat.pos_of_ne_zero some }
  | bufferSize n =>
      simp only [Options.set, setBufferSize]
      split
      · exact h
      · next some => exact { h with bufferSize := Nat.pos_of_ne_zero some }
  | executionTimeout d =>
      simp only [Options.set, setExecutionTimeout]
      split
      · exact h
      · next some =>
          refine { h with executionTimeout := ?_ }
          rintro _ ⟨⟩
          exact Span.nanos_pos some
  | noExecutionTimeout => exact { h with executionTimeout := by rintro _ ⟨⟩ }
  | pollInterval d =>
      simp only [Options.set, setPollInterval]
      split
      · exact h
      · next some => exact { h with pollInterval := Span.nanos_pos some }

theorem Positive.setAll (h : o.Positive) (calls : List Setting) : (o.setAll calls).Positive := by
  induction calls generalizing o with
  | nil => exact h
  | cons c rest ih => exact ih (h.set c)

end Queue.Options

/-! ### Configurations -/

namespace Config.QueueSettings

open Queue (Options)

/-- The calls that set the values of a configuration. -/
def calls (s : QueueSettings) : List Options.Setting :=
  [.workers s.workers, .bufferSize s.bufferSize, .executionTimeout s.executionTimeout,
    .pollInterval s.pollInterval]

theorem options_eq_setAll (s : QueueSettings) : s.options = Options.default.setAll s.calls := by
  -- The spans are variables here: Lean would count their nanoseconds one by one.
  have steps (timeout interval : Span) :
      (((Options.default.setWorkers s.workers).setBufferSize s.bufferSize).setExecutionTimeout
          timeout).setPollInterval interval =
        Options.default.setAll [.workers s.workers, .bufferSize s.bufferSize,
          .executionTimeout timeout, .pollInterval interval] := rfl
  exact steps s.executionTimeout s.pollInterval

theorem nodup_fields (s : QueueSettings) : (s.calls.map Options.Setting.field).Nodup := by
  simp [calls, Options.Setting.field]

end Config.QueueSettings

namespace Queue.Options

/-- The last value that calls on the default options give a field, or what it holds by default. -/
def lastGiven (calls : List Setting) (f : Field) : f.Value :=
  (calls.filterMap (·.given f)).getLastD (default.get f)

/-- What the calls of setters on the default options lead to. -/
structure Folded (calls : List Setting) (o : Options) : Prop where
  last : ∀ f, o.get f = lastGiven calls f
  positive : o.Positive
  /-- Two neighbours for different fields may change places. -/
  swapped : ∀ before x y after, calls = before ++ x :: y :: after → x.field ≠ y.field →
    default.setAll (before ++ y :: x :: after) = o
  config : ∀ s : Config.QueueSettings, calls.Perm s.calls → o = s.options

theorem folded_setAll (calls : List Setting) : Folded calls (default.setAll calls) where
  last := get_setAll default calls
  positive := positive_default.setAll calls
  swapped before x y after split apart := by
    subst split
    simp only [setAll, List.foldl_append, List.foldl_cons]
    rw [set_comm _ apart]
  config s perm := by
    rw [s.options_eq_setAll]
    exact (setAll_perm default s.nodup_fields perm.symm).symm

example : default.setAll [.noExecutionTimeout, .workers 3, .executionTimeout .zero, .workers 0] =
    { workers := 3, executionTimeout := none } := by
  decide

end Queue.Options

end ReliableQueue
