import ReliableQueue.Clock

/-!
Sums of instants and spans, and the whole milliseconds at which sleeps end.
-/

namespace ReliableQueue.Clock

theorem eq_of_after? {now later : Instant} {d : Span} (h : after? now d = some later) :
    later = now + d.nanos := by
  unfold after? at h
  split at h
  · exact (Option.some.inj h).symm
  · cases h

theorem le_sleepEnd (now : Instant) (d : Span) : now ≤ sleepEnd now d := by
  unfold sleepEnd after?
  split
  · exact Nat.le_add_right now d.nanos
  · exact Nat.le_add_right now _

theorem sleepEnd_of_fits {now : Instant} {d : Span} (h : (after? now d).isSome = true) :
    sleepEnd now d = now + d.nanos := by
  obtain ⟨later, fits⟩ := Option.isSome_iff_exists.mp h
  rw [sleepEnd, fits, Option.getD_some, eq_of_after? fits]

theorem le_tick (t : Nat) : t ≤ tick t := by
  unfold tick Span.nanosPerMilli
  omega

theorem tick_mono {t u : Nat} (h : t ≤ u) : tick t ≤ tick u :=
  Nat.mul_le_mul_right _ (Nat.div_le_div_right
    (Nat.sub_le_sub_right (Nat.add_le_add_right h Span.nanosPerMilli) 1))

theorem tick_tick (t : Nat) : tick (tick t) = tick t := by
  have whole (q : Nat) : (q * Span.nanosPerMilli + Span.nanosPerMilli - 1) / Span.nanosPerMilli =
      q := by
    simp only [Span.nanosPerMilli]
    omega
  exact congrArg (· * Span.nanosPerMilli) (whole _)

end ReliableQueue.Clock
