import ReliableQueue.Proofs.Queue.Traces

/-!
Claims and their history. A task is in the processing set exactly when the latest event
that set or removed its claim has set it.
-/

namespace ReliableQueue.Queue

open Store (Contents)

variable {k : Keys} {name x : String} {c : Cluster}

/-- Whether `x` is claimed after the events, latest first, if `before` says so for the time
before them. -/
def claimedAfter (x : String) (before : Bool) : List Event → Bool
  | [] => before
  | e :: earlier =>
      decide (x ∈ e.claimedIds) || (!decide (x ∈ e.unclaimedIds) && claimedAfter x before earlier)

/-- Whether the claim of `x` stands at the end of a history, latest event first. -/
def stands (x : String) (es : List Event) : Bool := claimedAfter x false es

theorem claimedAfter_append (x : String) (before : Bool) (es earlier : List Event) :
    claimedAfter x before (es ++ earlier) = claimedAfter x (claimedAfter x before earlier) es := by
  induction es with
  | nil => rfl
  | cons e rest ih => simp only [List.cons_append, claimedAfter, ih]

theorem stands_append (x : String) (es earlier : List Event) :
    stands x (es ++ earlier) = claimedAfter x (stands x earlier) es :=
  claimedAfter_append x false es earlier

theorem claimed_of_stands {es : List Event} (h : stands x es = true) :
    0 < tally Event.claimedIds es x := by
  induction es with
  | nil => cases h
  | cons e rest ih =>
      simp only [stands, claimedAfter, Bool.or_eq_true, Bool.and_eq_true, decide_eq_true_eq] at h
      rw [tally_cons]
      rcases h with now | ⟨-, stood⟩
      · exact Nat.add_pos_left (List.count_pos_iff.mpr now) _
      · exact Nat.add_pos_right _ (ih stood)

/-- A claim is set when a task is claimed and removed when one is settled, released or
recovered. -/
theorem Effect.claim {before after : Contents} {e : Event} (h : Effect k before after e)
    (x : String) :
    (after.score? k.processing x).isSome =
      claimedAfter x (before.score? k.processing x).isSome [e] := by
  cases e with
  | pushed tasks =>
      obtain ⟨some, rfl⟩ := h
      simp [score?_push _ _ _ some, claimedAfter]
  | popped id =>
      obtain ⟨rest, -, rfl⟩ := h
      rfl
  | loaded claim =>
      obtain ⟨-, rfl⟩ := h
      rfl
  | claimed claim =>
      obtain ⟨stamp, rfl⟩ := h
      by_cases hx : x = claim.id <;> simp [Contents.score?_setScore, claimedAfter, hx]
  | released id =>
      rw [show after = _ from h, score?_release]
      by_cases hx : x = id <;> simp [claimedAfter, hx]
  | settled claim =>
      rw [show after = _ from h, score?_settle]
      by_cases hx : x = claim.id <;> simp [claimedAfter, hx]
  | recovered id =>
      rw [show after = _ from h, score?_recovery]
      by_cases hx : x = id <;> simp [claimedAfter, hx]
  | _ =>
      rw [show after = _ from h]
      rfl

theorem Leads.claim {first after : Contents} {es : List Event} (h : Leads k first es after)
    (x : String) :
    (after.score? k.processing x).isSome =
      claimedAfter x (first.score? k.processing x).isSome es := by
  induction h with
  | nil => rfl
  | cons _ effect ih =>
      rw [effect.claim x, ih]
      rfl

theorem tally_unclaimed (es : List Event) (x : String) :
    tally Event.unclaimedIds es x = tally Event.settledIds es x + tally Event.releasedIds es x +
      tally Event.recoveredIds es x := by
  induction es with
  | nil => simp
  | cons e rest ih =>
      have one : e.unclaimedIds.count x =
          e.settledIds.count x + e.releasedIds.count x + e.recoveredIds.count x := by
        cases e <;> simp
      simp only [tally_cons]
      omega

theorem claimedAfter_passive {es : List Event} (h : ∀ e ∈ es, e.isPassive = true) (x : String)
    (before : Bool) : claimedAfter x before es = before := by
  induction es with
  | nil => rfl
  | cons e rest ih =>
      have passive := h e List.mem_cons_self
      rw [claimedAfter, readsActs.2.2.2.1 e passive, readsActs.2.2.2.2.1 e passive,
        ih fun e he => h e (List.mem_cons_of_mem _ he)]
      simp

/-- An act that claims a task takes back no claim, and the claim stands after it. -/
theorem Single.claims {es : List Event} (h : Single es) (x : String) (before : Bool) :
    (claimedAfter x before es = true ↔ 0 < tally Event.claimedIds es x ∨
        (tally Event.unclaimedIds es x = 0 ∧ before = true)) ∧
      (0 < tally Event.claimedIds es x → tally Event.unclaimedIds es x = 0) := by
  rcases h.cases with passive | ⟨e, rest, rfl, passive⟩
  · simp [claimedAfter_passive passive, ReadsActs.tally _ passive]
  · rw [claimedAfter_append, claimedAfter_passive passive, tally_append, tally_append,
      ReadsActs.tally (by simp) passive, ReadsActs.tally (by simp) passive]
    have apart : x ∈ e.claimedIds → x ∉ e.unclaimedIds := by
      cases e <;> simp
    simp only [claimedAfter, tally_cons, tally_nil, Nat.zero_add, Nat.add_zero]
    generalize e.claimedIds = set at apart ⊢
    generalize e.unclaimedIds = removed at apart ⊢
    by_cases hc : x ∈ set
    · simp [hc, List.count_eq_zero.mpr (apart hc)]
    · simp [hc, List.count_eq_zero]

namespace Cluster

/-- The stamp of the claim of `x` on the queue stored under `name`. -/
def claim? (name x : String) (c : Cluster) : Option Binary64 :=
  c.memory.contents.score? (Keys.ofName name).processing x

/-- After an act, `x` is claimed if the act claimed it, or it was claimed and the act took no
claim of it back. -/
theorem claim_after {d : Cluster} {es : List Event} (trace : Trace (.ofName name) es c d)
    (single : Single es) (x : String) :
    (d.claim? name x).isSome = true ↔ 0 < tally Event.claimedIds es x ∨
      (tally Event.unclaimedIds es x = 0 ∧ (c.claim? name x).isSome = true) := by
  rw [claim?, trace.leads.claim x]
  exact (single.claims x _).1

/-- The claims in the store are those that stand in the history. -/
def Claimed (name x : String) (c : Cluster) : Prop :=
  (c.claim? name x).isSome = stands x c.events

theorem claimed_of_reaches {epoch : Nat} (h : Reaches (OnQueue name) (empty epoch) c)
    (x : String) : c.Claimed name x :=
  (trace_of_reaches h fun _ _ ok => ok).leads.claim x

end Cluster

end ReliableQueue.Queue
