import ReliableQueue.Proofs.Queue.Conservation
import ReliableQueue.Proofs.Queue.Payloads
import ReliableQueue.Proofs.Queue.Undisturbed

/-!
Deliveries of one identifier that is pushed more than once. Where nothing goes wrong, every
occurrence that was pushed is given to an executor. The payload it comes with is the one stored
for the identifier when it is looked up: deliveries that are under way together share it.
-/

namespace ReliableQueue.Queue

open Text (Bytes)

variable {k : Keys} {name x : String} {p : Bytes} {c d : Cluster} {es : List Event}

/-! ### Pairs -/

@[simp] def Event.pushedClaims : Event → List Claim
  | pushed tasks => tasks.map fun t => ⟨t.id, t.payload⟩
  | _ => []

/-- A claim of `x` with a payload such that `Q`. -/
def paired (x : String) (Q : Bytes → Bool) (claim : Claim) : Bool :=
  claim.id = x && Q claim.payload

/-- How often `x` comes with a payload such that `Q`, or such that not, is how often it comes. -/
theorem amount_paired {f : Event → List Claim} {g : Event → List String}
    (same : ∀ e, (f e).map Claim.id = g e) (Q : Bytes → Bool) (es : List Event) :
    amount (paired x Q) f es + amount (paired x fun p => !Q p) f es = tally g es x := by
  have split (claims : List Claim) : claims.countP (paired x Q) +
      claims.countP (paired x fun p => !Q p) = (claims.map Claim.id).count x := by
    induction claims with
    | nil => rfl
    | cons claim rest ih =>
        simp only [List.countP_cons, List.map_cons, List.count_cons, ← ih]
        by_cases hx : claim.id = x <;> cases hq : Q claim.payload <;>
          simp [paired, hx, hq] <;> omega
  induction es with
  | nil => rfl
  | cons e rest ih =>
      have one := split (f e)
      rw [same e] at one
      simp only [amount_cons, tally_cons]
      omega

theorem pairs_pushed (Q : Bytes → Bool) (es : List Event) :
    amount (paired x Q) Event.pushedClaims es +
      amount (paired x fun p => !Q p) Event.pushedClaims es = tally Event.pushedIds es x :=
  amount_paired (fun e => by cases e <;> simp) Q es

theorem pairs_loaded (Q : Bytes → Bool) (es : List Event) :
    amount (paired x Q) Event.loadedClaims es +
      amount (paired x fun p => !Q p) Event.loadedClaims es = tally Event.loadedIds es x :=
  amount_paired (fun e => by cases e <;> simp) Q es

theorem pairs_settled (Q : Bytes → Bool) (es : List Event) :
    amount (paired x Q) Event.settledClaims es +
      amount (paired x fun p => !Q p) Event.settledClaims es = tally Event.settledIds es x :=
  amount_paired (fun e => by cases e <;> simp) Q es

theorem pairs_called (Q : Bytes → Bool) (es : List Event) :
    amount (paired x Q) Event.calledClaims es +
      amount (paired x fun p => !Q p) Event.calledClaims es = tally Event.calledIds es x :=
  amount_paired (fun e => by cases e <;> simp) Q es

/-! ### Pushes with one payload -/

theorem countP_pushed {tasks : List Task} (same : ∀ t ∈ tasks, t.id = x → t.payload = p)
    (Q : Bytes → Bool) :
    (Event.pushed tasks).pushedClaims.countP (paired x Q) =
      if Q p then (tasks.map Task.id).count x else 0 := by
  induction tasks with
  | nil => simp
  | cons t rest ih =>
      have rest := ih fun t ht => same t (List.mem_cons_of_mem _ ht)
      simp only [Event.pushedClaims] at rest
      simp only [Event.pushedClaims, List.map_cons, List.countP_cons, rest, List.count_cons]
      by_cases hx : t.id = x
      · have payload := same t List.mem_cons_self hx
        cases hq : Q p <;> simp [paired, hx, payload, hq]
      · simp [paired, hx]

theorem lastPayload_of_empty {tasks : List Task} (none : ∀ t ∈ tasks, t.id = x → t.payload = [])
    (before : Option Bytes) : lastPayload x before tasks = before := by
  induction tasks generalizing before with
  | nil => rfl
  | cons t rest ih =>
      have rest := ih fun t ht => none t (List.mem_cons_of_mem _ ht)
      rw [lastPayload, List.filter_cons]
      split
      · next some =>
          have apart : t.id ≠ x := fun hx => by
            simp [Task.hasPayload, none t List.mem_cons_self hx] at some
          rw [List.foldl_cons, if_neg apart]
          exact rest before
      · exact rest before

/-- A push that names `x` once brings one payload for it. -/
theorem payload_of_once {tasks : List Task} (once : (tasks.map Task.id).count x = 1) :
    ∃ p, ⟨x, p⟩ ∈ tasks ∧ ∀ t ∈ tasks, t.id = x → t.payload = p := by
  induction tasks with
  | nil => cases once
  | cons t rest ih =>
      rw [List.map_cons, List.count_cons] at once
      by_cases hx : t.id = x
      · simp only [hx, beq_self_eq_true, if_true, Nat.add_eq_right] at once
        have absent := List.count_eq_zero.mp once
        refine ⟨t.payload, List.mem_cons.mpr (.inl (by rw [← hx])), fun s hs same => ?_⟩
        rcases List.mem_cons.mp hs with rfl | hs
        · rfl
        · exact absurd (List.mem_map.mpr ⟨s, hs, same⟩) absent
      · simp only [beq_iff_eq, hx, if_false, Nat.add_zero] at once
        obtain ⟨p, given, same⟩ := ih once
        refine ⟨p, List.mem_cons_of_mem _ given, fun s hs named => ?_⟩
        rcases List.mem_cons.mp hs with rfl | hs
        · exact absurd named hx
        · exact same s hs named

/-! ### Payloads that are not shared -/

/-- A push of `tasks` after the events `es`, latest first, brings `x` without a payload and finds
none, or names `x` once and finds all earlier deliveries of it settled. -/
def Alone (x : String) (tasks : List Task) (es : List Event) : Prop :=
  (payloadAfter x none es = none ∧ ∀ t ∈ tasks, t.id = x → t.payload = []) ∨
    (tasks.map Task.id).count x = 1 ∧ tally Event.settledIds es x = tally Event.pushedIds es x

instance (x : String) (tasks : List Task) (es : List Event) : Decidable (Alone x tasks es) :=
  inferInstanceAs (Decidable (_ ∨ _))

def Event.pushed? : Event → Option (List Task)
  | pushed tasks => some tasks
  | _ => none

/-- Deliveries of `x` that are under way together have no payload: each push of `x` is alone. -/
def Unshared (x : String) : List Event → Prop
  | [] => True
  | e :: earlier =>
      (∀ tasks ∈ e.pushed?, x ∈ tasks.map Task.id → Alone x tasks earlier) ∧ Unshared x earlier

instance decidableUnshared (x : String) : (es : List Event) → Decidable (Unshared x es)
  | [] => isTrue trivial
  | _ :: earlier =>
      have := decidableUnshared x earlier
      inferInstanceAs (Decidable (_ ∧ _))

theorem Unshared.earlier {rest : List Event} (h : Unshared x (rest ++ es)) : Unshared x es := by
  induction rest with
  | nil => exact h
  | cons e rest ih => exact ih h.2

/-- What was pushed of `x` is what was looked up, and what is still to be looked up will be with
the payload that is stored. A payload is stored for one delivery only. -/
structure Faithful (x : String) (es : List Event) : Prop where
  pairs : ∃ u, tally Event.pushedIds es x = tally Event.loadedIds es x + u ∧
    ∀ Q, amount (paired x Q) Event.pushedClaims es = amount (paired x Q) Event.loadedClaims es +
      if Q ((payloadAfter x none es).getD []) then u else 0
  sole : ∀ p, payloadAfter x none es = some p → p ≠ [] ∧
    ∀ Q, amount (paired x Q) Event.pushedClaims es =
      amount (paired x Q) Event.settledClaims es + if Q p then 1 else 0

namespace Faithful

theorem nil (x : String) : Faithful x [] := ⟨⟨0, by simp⟩, by rintro p ⟨⟩⟩

theorem loaded_le (h : Faithful x es) (Q : Bytes → Bool) :
    amount (paired x Q) Event.loadedClaims es ≤ amount (paired x Q) Event.pushedClaims es := by
  obtain ⟨u, -, pairs⟩ := h.pairs
  exact pairs Q ▸ Nat.le_add_right _ _

/-- The delivery that a payload is stored for is not settled. -/
theorem unsettled (h : Faithful x es) (stored : payloadAfter x none es = some p) :
    tally Event.pushedIds es x = tally Event.settledIds es x + 1 := by
  obtain ⟨-, sole⟩ := h.sole p stored
  have is := sole (· == p)
  have isNot := sole fun q => !(q == p)
  have pushed := pairs_pushed (x := x) (· == p) es
  have settled := pairs_settled (x := x) (· == p) es
  simp only [beq_self_eq_true, if_true, Bool.not_true, Bool.false_eq_true, if_false] at is isNot
  omega

/-- What does not concern `x` changes nothing. -/
theorem apart {rest : List Event} (h : Faithful x es) (unpushed : tally Event.pushedIds rest x = 0)
    (unloaded : tally Event.loadedIds rest x = 0) (unsettled : tally Event.settledIds rest x = 0) :
    Faithful x (rest ++ es) := by
  have stored : payloadAfter x none (rest ++ es) = payloadAfter x none es := by
    rw [payloadAfter_append, payloadAfter_of_other unpushed unsettled]
  have same (Q : Bytes → Bool) : amount (paired x Q) Event.pushedClaims rest = 0 ∧
      amount (paired x Q) Event.loadedClaims rest = 0 ∧
      amount (paired x Q) Event.settledClaims rest = 0 := by
    have pushed := pairs_pushed (x := x) Q rest
    have loaded := pairs_loaded (x := x) Q rest
    have settled := pairs_settled (x := x) Q rest
    omega
  obtain ⟨u, total, pairs⟩ := h.pairs
  constructor
  · refine ⟨u, by simp only [tally_append]; omega, fun Q => ?_⟩
    rw [stored, amount_append, amount_append, (same Q).1, (same Q).2.1, Nat.zero_add, Nat.zero_add]
    exact pairs Q
  · intro p hp
    obtain ⟨some, sole⟩ := h.sole p (stored ▸ hp)
    refine ⟨some, fun Q => ?_⟩
    rw [amount_append, amount_append, (same Q).1, (same Q).2.2, Nat.zero_add, Nat.zero_add]
    exact sole Q

/-- Where all that was pushed is settled, all of it was looked up and no payload is stored. -/
theorem all_settled (h : Faithful x es)
    (settled : tally Event.settledIds es x = tally Event.pushedIds es x)
    (ends : ∀ Q, amount (paired x Q) Event.settledClaims es ≤
      amount (paired x Q) Event.loadedClaims es) :
    (∀ Q, amount (paired x Q) Event.pushedClaims es =
        amount (paired x Q) Event.loadedClaims es ∧
      amount (paired x Q) Event.pushedClaims es = amount (paired x Q) Event.settledClaims es) ∧
      payloadAfter x none es = none := by
  refine ⟨fun Q => ?_, ?_⟩
  · have ends_not := ends fun p => !Q p
    have ends := ends Q
    have pairs_not := h.loaded_le fun p => !Q p
    have pairs := h.loaded_le Q
    have pushed := pairs_pushed (x := x) Q es
    have settled_pairs := pairs_settled (x := x) Q es
    omega
  · cases stored : payloadAfter x none es with
    | none => rfl
    | some p =>
        have := h.unsettled stored
        omega

/-- Pushes without a payload while none is stored. -/
theorem pushed_empty {tasks : List Task} (h : Faithful x es)
    (stored : payloadAfter x none es = none) (empty : ∀ t ∈ tasks, t.id = x → t.payload = []) :
    Faithful x (.pushed tasks :: es) := by
  obtain ⟨u, total, pairs⟩ := h.pairs
  have after : payloadAfter x none (.pushed tasks :: es) = none :=
    (lastPayload_of_empty empty _).trans stored
  refine ⟨⟨(tasks.map Task.id).count x + u, ?_, fun Q => ?_⟩, ?_⟩
  · simp only [tally_cons, Event.pushedIds, Event.loadedIds, List.count_nil]
    omega
  · have before := pairs Q
    rw [stored, Option.getD_none] at before
    rw [after, Option.getD_none, amount_cons, amount_cons, countP_pushed empty Q, before]
    cases Q []
    all_goals
      simp only [if_true, Bool.false_eq_true, if_false, Event.loadedClaims, List.countP_nil]
      omega
  · rw [after]
    rintro p ⟨⟩

/-- One push after all earlier deliveries are settled. -/
theorem pushed_once {tasks : List Task} (h : Faithful x es)
    (once : (tasks.map Task.id).count x = 1)
    (settled : tally Event.settledIds es x = tally Event.pushedIds es x)
    (ends : ∀ Q, amount (paired x Q) Event.settledClaims es ≤
      amount (paired x Q) Event.loadedClaims es) : Faithful x (.pushed tasks :: es) := by
  obtain ⟨p, given, same⟩ := payload_of_once once
  obtain ⟨looked, stored⟩ := h.all_settled settled ends
  have after : payloadAfter x none (.pushed tasks :: es) = if p = [] then none else some p := by
    show lastPayload x (payloadAfter x none es) tasks = _
    rw [stored]
    split
    · next empty => exact lastPayload_of_empty (fun t ht hx => (same t ht hx).trans empty) none
    · next some => exact lastPayload_of_once once given some none
  have one (Q : Bytes → Bool) : amount (paired x Q) Event.pushedClaims (.pushed tasks :: es) =
      amount (paired x Q) Event.pushedClaims es + if Q p then 1 else 0 := by
    rw [amount_cons, countP_pushed same Q, once, Nat.add_comm]
  refine ⟨⟨1, ?_, fun Q => ?_⟩, fun q hq => ?_⟩
  · have := pairs_pushed (x := x) (fun _ => true) es
    have := pairs_loaded (x := x) (fun _ => true) es
    have := (looked fun _ => true).1
    have := (looked fun _ => !true).1
    simp only [tally_cons, Event.pushedIds, Event.loadedIds, once, List.count_nil]
    omega
  · have last : (payloadAfter x none (.pushed tasks :: es)).getD [] = p := by
      rw [after]
      split
      · next empty => exact empty.symm
      · rfl
    rw [last, one, (looked Q).1]
    simp
  · rw [after] at hq
    split at hq
    · cases hq
    · next some =>
        cases hq
        refine ⟨some, fun Q => ?_⟩
        rw [one, (looked Q).2]
        simp

theorem pushed {tasks : List Task} (h : Faithful x es) (alone : Alone x tasks es)
    (ends : ∀ Q, amount (paired x Q) Event.settledClaims es ≤
      amount (paired x Q) Event.loadedClaims es) : Faithful x (.pushed tasks :: es) := by
  rcases alone with ⟨stored, empty⟩ | ⟨once, settled⟩
  · exact h.pushed_empty stored empty
  · exact h.pushed_once once settled ends

theorem loaded {claim : Claim} (h : Faithful x es) (same : claim.id = x)
    (read : claim.payload = (payloadAfter x none es).getD [])
    (bound : tally Event.loadedIds (.loaded claim :: es) x ≤ tally Event.pushedIds es x) :
    Faithful x (.loaded claim :: es) := by
  obtain ⟨u, total, pairs⟩ := h.pairs
  have after : payloadAfter x none (.loaded claim :: es) = payloadAfter x none es := rfl
  have more : tally Event.loadedIds (.loaded claim :: es) x = tally Event.loadedIds es x + 1 := by
    simp [same, Nat.add_comm]
  obtain ⟨v, rfl⟩ : ∃ v, u = v + 1 := Nat.exists_eq_succ_of_ne_zero (by omega)
  refine ⟨⟨v, ?_, fun Q => ?_⟩, fun p hp => ?_⟩
  · have none : tally Event.pushedIds (.loaded claim :: es) x = tally Event.pushedIds es x := by
      simp
    omega
  · rw [after, ← read, amount_cons, amount_cons, pairs Q, ← read]
    cases hq : Q claim.payload with
    | false => simp [paired, same, hq]
    | true =>
        simp [paired, same, hq]
        omega
  · obtain ⟨some, sole⟩ := h.sole p (after ▸ hp)
    exact ⟨some, fun Q => by simpa using sole Q⟩

/-- A settlement takes the payload that was stored for the delivery. -/
theorem settled {claim : Claim} (h : Faithful x es) (same : claim.id = x)
    (ends : ∀ Q, amount (paired x Q) Event.settledClaims (.settled claim :: es) ≤
      amount (paired x Q) Event.loadedClaims es) : Faithful x (.settled claim :: es) := by
  obtain ⟨u, total, pairs⟩ := h.pairs
  have after : payloadAfter x none (.settled claim :: es) =
      if x = claim.id ∧ claim.payload ≠ [] then none else payloadAfter x none es := rfl
  cases stored : payloadAfter x none es with
  | none =>
      rw [stored, ite_self] at after
      refine ⟨⟨u, by simpa using total, fun Q => ?_⟩, by rw [after]; rintro p ⟨⟩⟩
      have before := pairs Q
      rw [stored] at before
      rw [after]
      simpa using before
  | some p =>
      obtain ⟨some, sole⟩ := h.sole p stored
      have unsettled := h.unsettled stored
      have one (Q : Bytes → Bool) : amount (paired x Q) Event.settledClaims (.settled claim :: es) =
          amount (paired x Q) Event.settledClaims es + if Q claim.payload then 1 else 0 := by
        simp [paired, same, Nat.add_comm]
      have payload : p = claim.payload := by
        have ends := ends (· == claim.payload)
        have bound := h.loaded_le (· == claim.payload)
        rw [one, beq_self_eq_true, if_pos rfl] at ends
        rw [sole] at bound
        split at bound
        · next eq => exact eq_of_beq eq
        · omega
      subst payload
      rw [if_pos ⟨same.symm, some⟩] at after
      have all (Q : Bytes → Bool) : amount (paired x Q) Event.pushedClaims es =
          amount (paired x Q) Event.loadedClaims es := by
        have upper := h.loaded_le Q
        have lower := ends Q
        rw [one] at lower
        have := sole Q
        omega
      refine ⟨⟨0, ?_, fun Q => ?_⟩, by rw [after]; rintro q ⟨⟩⟩
      · have pushed := pairs_pushed (x := x) (fun _ => true) es
        have loaded := pairs_loaded (x := x) (fun _ => true) es
        have := all fun _ => true
        have := all fun _ => !true
        simp only [tally_cons, Event.pushedIds, Event.loadedIds, List.count_nil]
        omega
      · rw [amount_cons, amount_cons, all Q]
        simp

end Faithful

namespace Cluster

variable {epoch : Nat}

theorem reaches_onQueue (h : Reaches (Undisturbed name) (empty epoch) c) :
    Reaches (OnQueue name) (empty epoch) c :=
  h.mono fun _ _ ok => ok.calm.1

/-- What is settled was looked up. -/
theorem settled_le_loaded (h : Reaches (OnQueue name) (empty epoch) c) (Q : Claim → Bool) :
    amount Q Event.calledClaims c.events ≤ amount Q Event.loadedClaims c.events ∧
      amount Q Event.settledClaims c.events ≤ amount Q Event.loadedClaims c.events := by
  obtain ⟨calls, ends⟩ := (trace_of_reaches h fun _ _ ok => ok).carry Q
  have first : (empty epoch).load Q = ⟨0, 0⟩ := rfl
  simp only [first] at calls ends
  omega

/-- A task is not looked up more often than it was pushed. -/
theorem loaded_le_pushed (h : Reaches (Undisturbed name) (empty epoch) c) (x : String) :
    tally Event.loadedIds c.events x ≤ tally Event.pushedIds c.events x := by
  have reached := reaches_onQueue h
  have look := ((trace_of_reaches reached fun _ _ ok => ok).flow x).look
  have backlog := (accounts reached (fun _ _ ok => ok) x).1
  have orderly := (smooth_of_reaches h).orderly.tally x
  have first : (empty epoch).stock x = ⟨0, 0, 0, 0⟩ := rfl
  simp only [first] at look
  omega

theorem faithful_of_reaches (h : Reaches (Undisturbed name) (empty epoch) c)
    (unshared : Unshared x c.events) : Faithful x c.events := by
  induction h with
  | refl => exact .nil x
  | @perform b c a hr ok hp ih =>
      have now := Reaches.perform hr ok hp
      obtain ⟨es, trace, single⟩ := hr.next (fun _ _ ok => ok.calm.1) hp
      have before : Faithful x b.events := ih (trace.events ▸ unshared).earlier
      have apart {e : Event} (pushed : x ∉ e.pushedIds) (loaded : x ∉ e.loadedIds)
          (settled : x ∉ e.settledIds) : Faithful x ([e] ++ b.events) :=
        before.apart (by simpa [List.count_eq_zero] using pushed)
          (by simpa [List.count_eq_zero] using loaded)
          (by simpa [List.count_eq_zero] using settled)
      rcases single.cases with passive | ⟨e, rest, rfl, passive⟩
      · rw [trace.events]
        exact before.apart (ReadsActs.tally (by simp) passive x)
          (ReadsActs.tally (by simp) passive x) (ReadsActs.tally (by simp) passive x)
      have events : c.events = rest ++ e :: b.events := by rw [trace.events, List.append_assoc]; rfl
      rw [events]
      refine Faithful.apart ?_ (ReadsActs.tally (by simp) passive x)
        (ReadsActs.tally (by simp) passive x) (ReadsActs.tally (by simp) passive x)
      cases e with
      | pushed tasks =>
          by_cases named : x ∈ tasks.map Task.id
          · exact before.pushed ((events ▸ unshared).earlier.1 tasks rfl named)
              fun Q => (settled_le_loaded (reaches_onQueue hr) _).2
          · exact apart named (by simp) (by simp)
      | loaded claim =>
          by_cases same : claim.id = x
          · have read := payload_of_load (reaches_onQueue now) events
            have bound := loaded_le_pushed now x
            rw [events, tally_append, tally_append, ReadsActs.tally (by simp) passive,
              ReadsActs.tally (by simp) passive] at bound
            exact before.loaded same (same ▸ read) (by simpa using bound)
          · exact apart (by simp) (by simpa [eq_comm] using same) (by simp)
      | settled claim =>
          by_cases same : claim.id = x
          · refine before.settled same fun Q => ?_
            have ends := (settled_le_loaded (reaches_onQueue now) (paired x Q)).2
            have quiet {f : Event → List Claim} (hf : ReadsActs f) :
                amount (paired x Q) f rest = 0 :=
              amount_of_none fun e he => hf e (passive e he)
            rw [events, amount_append, amount_append, quiet (by simp), quiet (by simp)] at ends
            simpa using ends
          · exact apart (by simp) (by simp) (by simpa [eq_comm] using same)
      | _ => exact apart (by simp) (by simp) (by simp)

/-! ### All deliveries done -/

theorem count_pair {f : Event → List Claim} (es : List Event) (x : String) (p : Bytes) :
    (es.flatMap f).count ⟨x, p⟩ = amount (paired x (· == p)) f es := by
  refine List.countP_congr fun claim _ => ?_
  obtain ⟨id, payload⟩ := claim
  simp [paired]

/-- Where nothing is waiting and nothing is held, every task that was pushed was called, or lost
with a worker that could not call it. -/
theorem called_of_idle (h : Reaches (Undisturbed name) (empty epoch) c)
    (pending : c.pending name = []) (idle : c.holds = []) (x : String) :
    tally Event.calledIds c.events x + tally Event.panickedIds c.events x =
      tally Event.pushedIds c.events x := by
  have total : c.Balanced name x := balanced (reaches_onQueue h) x
  have calls := calls_of_calm (h.mono fun _ _ ok => ok.calm) x
  have orderly := (smooth_of_reaches h).orderly.tally x
  have held := c.count_holds x
  have working := c.count_working x
  simp only [Balanced, tally_gained, tally_gone, tally_lost, pending, idle, List.count_nil] at total
  rw [idle, List.count_nil] at held
  omega

/-- In a run in which nothing goes wrong, once nothing is waiting and nothing is held, every task
that was pushed was given to an executor, but for those lost with a worker that could not call it.
A task comes with the payload that is stored for its identifier when it is looked up: the last one
that was pushed, unless a delivery that came with one was settled since. Where deliveries of an
identifier do not share a payload, each comes with the payload it was pushed with. -/
theorem given_of_idle (h : Reaches (Undisturbed name) (empty epoch) c)
    (pending : c.pending name = []) (idle : c.holds = []) :
    (∀ x, tally Event.calledIds c.events x + tally Event.panickedIds c.events x =
        tally Event.pushedIds c.events x) ∧
      (∀ later claim earlier, c.events = later ++ .loaded claim :: earlier →
        claim.payload = (payloadAfter claim.id none earlier).getD []) ∧
      ∀ x, tally Event.panickedIds c.events x = 0 → ∀ p,
        (c.events.flatMap Event.calledClaims).count ⟨x, p⟩ =
            (c.events.flatMap Event.loadedClaims).count ⟨x, p⟩ ∧
          (Unshared x c.events →
            (c.events.flatMap Event.calledClaims).count ⟨x, p⟩ =
              (c.events.flatMap Event.pushedClaims).count ⟨x, p⟩) := by
  have reached := reaches_onQueue h
  have ids := called_of_idle h pending idle
  refine ⟨ids, fun later claim earlier split => payload_of_load reached split, ?_⟩
  intro x calm p
  rw [count_pair, count_pair, count_pair]
  have total := ids x
  have bound := loaded_le_pushed h x
  have called := pairs_called (x := x) (· == p) c.events
  have loaded := pairs_loaded (x := x) (· == p) c.events
  have is := (settled_le_loaded reached (paired x (· == p))).1
  have isNot := (settled_le_loaded reached (paired x fun q => !(q == p))).1
  have same : amount (paired x (· == p)) Event.calledClaims c.events =
      amount (paired x (· == p)) Event.loadedClaims c.events := by
    omega
  refine ⟨same, fun unshared => ?_⟩
  obtain ⟨u, looked, pairs⟩ := (faithful_of_reaches h unshared).pairs
  obtain rfl : u = 0 := by omega
  rw [same, pairs, ite_self, Nat.add_zero]

/-- Two tasks with one identifier are pushed at once, each with a payload of its own, and both are
delivered. -/
def twoDelivery : List Act := List.flatten [
  [.build "q" { workers := 1 }, .newToken, .invoke 0 (.push [⟨"x", [1]⟩, ⟨"x", [2]⟩]),
    .step (.call 0), .invoke 0 (.start ⟨[0]⟩), .step (.call 1)],
  List.replicate 15 (.step (.fetcher 0)),
  List.replicate 4 (.step (.worker 0 0)),
  [.executorReturns 0 0 .succeeded],
  List.replicate 4 (.step (.worker 0 0)),
  [.executorReturns 0 0 .succeeded, .step (.worker 0 0)]]

def twoDelivered : Cluster :=
  ((empty 0).runIf (Undisturbed "q") twoDelivery).get (by decide +kernel)

theorem run_twoDelivery : (empty 0).runIf (Undisturbed "q") twoDelivery = some twoDelivered :=
  (Option.some_get _).symm

/-- Both come with the payload that was pushed last. -/
theorem not_given_independent :
    ¬∀ (c : Cluster), Reaches (Undisturbed "q") (empty 0) c → c.pending "q" = [] → c.holds = [] →
      ∀ claim, (c.events.flatMap Event.calledClaims).count claim =
        (c.events.flatMap Event.pushedClaims).count claim := by
  intro independent
  have two := independent twoDelivered (.of_runIf run_twoDelivery) (by decide +kernel)
    (by decide +kernel) ⟨"x", [1]⟩
  revert two
  decide +kernel

/-- A task is pushed again once its first delivery is settled. -/
def againDelivery : List Act := List.flatten [
  [.build "q" { workers := 1 }, .newToken, .invoke 0 (.push [⟨"x", [1]⟩]), .step (.call 0),
    .invoke 0 (.start ⟨[0]⟩), .step (.call 1)],
  List.replicate 8 (.step (.fetcher 0)),
  List.replicate 4 (.step (.worker 0 0)),
  [.executorReturns 0 0 .succeeded, .step (.worker 0 0), .invoke 0 (.push [⟨"x", [2]⟩]),
    .step (.call 2)],
  List.replicate 7 (.step (.fetcher 0)),
  List.replicate 3 (.step (.worker 0 0)),
  [.executorReturns 0 0 .succeeded, .step (.worker 0 0)]]

def againDelivered : Cluster :=
  ((empty 0).runIf (Undisturbed "q") againDelivery).get (by decide +kernel)

theorem run_againDelivery : (empty 0).runIf (Undisturbed "q") againDelivery = some againDelivered :=
  (Option.some_get _).symm

theorem given_of_idle_againDelivered :
    tally Event.calledIds againDelivered.events "x" = 2 ∧
      (againDelivered.events.flatMap Event.calledClaims).count ⟨"x", [1]⟩ = 1 ∧
      (againDelivered.events.flatMap Event.calledClaims).count ⟨"x", [2]⟩ = 1 := by
  have unshared : Unshared "x" againDelivered.events := by decide +kernel
  obtain ⟨ids, -, pairs⟩ := given_of_idle (.of_runIf run_againDelivery)
    (show againDelivered.pending "q" = [] by decide +kernel) (by decide +kernel)
  have calm : tally Event.panickedIds againDelivered.events "x" = 0 := by decide +kernel
  have total := ids "x"
  have first := (pairs "x" calm [1]).2 unshared
  have second := (pairs "x" calm [2]).2 unshared
  rw [calm] at total
  exact ⟨total.trans (by decide +kernel), first.trans (by decide +kernel),
    second.trans (by decide +kernel)⟩

end Cluster

end ReliableQueue.Queue
