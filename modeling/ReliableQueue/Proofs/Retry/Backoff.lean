import ReliableQueue.Proofs.Rounding
import ReliableQueue.Retry.Policy

/-!
When a pause can be computed. The pause is cut off at its maximum, but only once it is a span: as
soon as the uncut number of seconds is none, or is out of reach for a span, there is no pause at
all.
-/

namespace ReliableQueue

namespace Binary64

variable {x y : Binary64}

/-! ### Signs -/

theorem negative_add (hx : x.negative = false) (hy : y.negative = false) :
    (x + y).negative = false := by
  show (add x y).negative = false
  have sum : ¬ x.signedUnits + y.signedUnits < 0 := by
    simp only [signedUnits, hx, hy, Bool.false_eq_true, if_false]
    omega
  simp only [add]
  repeat' split
  all_goals first | rfl | assumption | simp [round, hx, sum]

theorem negative_mul (hx : x.negative = false) (hy : y.negative = false) :
    (x * y).negative = false := by
  show (mul x y).negative = false
  simp only [mul, hx, hy, bne_self_eq_false]
  repeat' split
  all_goals rfl

theorem negative_div (hx : x.negative = false) (hy : y.negative = false) :
    (x / y).negative = false := by
  show (div x y).negative = false
  simp only [div, hx, hy, bne_self_eq_false]
  repeat' split
  all_goals rfl

theorem negative_go (fuel : Nat) {acc square : Binary64} (hacc : acc.negative = false)
    (hsquare : square.negative = false) (n : Nat) :
    (power.go fuel acc square n).negative = false := by
  induction fuel generalizing acc square n with
  | zero =>
      simp only [power.go]
      split
      · exact negative_mul hacc hsquare
      · exact hacc
  | succ fuel ih =>
      have next : (if n % 2 = 1 then acc * square else acc).negative = false := by
        split
        · exact negative_mul hacc hsquare
        · exact hacc
      simp only [power.go]
      split
      · exact next
      · exact ih next (negative_mul hsquare hsquare) _

theorem negative_power (h : x.negative = false) (exponent : Int) :
    (x.power exponent).negative = false := by
  have whole : (power.go _ (ofNat 1) x exponent.natAbs).negative = false :=
    negative_go exponent.natAbs.log2 rfl h exponent.natAbs
  simp only [power]
  split
  · exact negative_div rfl whole
  · exact whole

theorem negative_ofSpan (d : Span) : (ofSpan d).negative = false := by
  rw [ofSpan_eq]
  exact negative_add rfl rfl

/-- What is at least one has no sign. -/
theorem not_negative_of_le (h : (ofNat 1).le x = true) : x.negative = false := by
  simp only [le, Bool.and_eq_true, decide_eq_true_eq] at h
  have least : 0 < (ofNat 1).orderKey := by decide +kernel
  have positive : 0 < x.orderKey := Int.lt_of_lt_of_le least h.2
  rw [orderKey] at positive
  cases negative : x.negative
  · rfl
  · rw [negative, if_pos rfl] at positive
    omega

/-! ### Spans -/

/-- The largest number of seconds below the seconds of all spans. -/
def mostSeconds : Binary64 := ofBits 0x43efffffffffffff

theorem magnitude_ofNat_size : (ofNat UInt64.size).magnitude = mostSeconds.magnitude + 1 := by
  decide +kernel

/-- A number of seconds within reach is a span. -/
theorem toSpan_of_lt (hx : x.negative = false) (number : x.isNaN = false)
    (below : (ofNat UInt64.size).le x = false) :
    x.toSpan = .ok ⟨divEven (x.units * Span.nanosPerSecond) one⟩ := by
  have order : x.magnitude ≤ mostSeconds.magnitude := by
    rw [← Bool.not_eq_true, le_iff (isNaN_ofNat _) number] at below
    simp only [orderKey, hx, Bool.false_eq_true, if_false] at below
    have sign : (ofNat UInt64.size).negative = false := rfl
    rw [sign, if_neg Bool.false_ne_true, magnitude_ofNat_size] at below
    omega
  have finite : x.isInfinite = false :=
    decide_eq_false (Nat.ne_of_lt (Nat.lt_of_le_of_lt order (by decide +kernel)))
  have nanos : divEven (x.units * Span.nanosPerSecond) one <
      UInt64.size * Span.nanosPerSecond :=
    Nat.lt_of_le_of_lt (divEven_mono one (Nat.mul_le_mul_right _ (units_mono order)))
      (by decide +kernel)
  simp only [toSpan, number, hx, finite, Bool.false_and, Bool.false_eq_true, if_false,
    Nat.not_le.mpr nanos]

theorem toSpan_of_le (hx : x.negative = false)
    (beyond : x.isNaN = true ∨ (ofNat UInt64.size).le x = true) :
    x.toSpan = .error .tooBigOrNaN := by
  rcases beyond with none | above
  · simp only [toSpan, none, if_true]
  · simp only [le, Bool.and_eq_true, Bool.not_eq_true', decide_eq_true_eq] at above
    obtain ⟨⟨-, number⟩, order⟩ := above
    have sign : (ofNat UInt64.size).negative = false := rfl
    simp only [orderKey, hx, sign, Bool.false_eq_true, if_false] at order
    have units := units_mono (Int.ofNat_le.mp order)
    have least : UInt64.size * one ≤ (ofNat UInt64.size).units := by decide +kernel
    have nanos : UInt64.size * Span.nanosPerSecond ≤
        divEven (x.units * Span.nanosPerSecond) one := by
      refine le_divEven one_pos ?_
      rw [Nat.mul_right_comm]
      exact Nat.mul_le_mul_right _ (Nat.le_trans least units)
    simp only [toSpan, number, hx, nanos, Bool.false_and, Bool.false_eq_true, if_false, if_true,
      ite_self]

theorem toSpan_ok_iff (hx : x.negative = false) :
    (∃ d, x.toSpan = .ok d) ↔ x.isNaN = false ∧ (ofNat UInt64.size).le x = false := by
  refine ⟨fun ⟨d, ok⟩ => ?_, fun ⟨number, below⟩ => ⟨_, toSpan_of_lt hx number below⟩⟩
  constructor <;> refine Bool.eq_false_iff.mpr fun beyond => ?_
  · rw [toSpan_of_le hx (.inl beyond)] at ok
    cases ok
  · rw [toSpan_of_le hx (.inr beyond)] at ok
    cases ok

end Binary64

namespace Retry.Policy

variable {p : Policy} {attempt : Nat}

/-- The seconds of a pause before it is cut off. -/
def uncut (p : Policy) (attempt : Nat) : Binary64 :=
  .ofSpan p.initialDelay * p.multiplier.power (exponent attempt)

theorem delay_of_retry (h : attempt < p.maxRetries) : p.delay attempt =
    (p.uncut attempt).toSpan.map fun d => if p.maxDelay < d then p.maxDelay else d := by
  rw [delay, if_neg (Nat.not_le.mpr h), uncut]
  split <;> next e => rw [e]; rfl

/-- No pause is longer than the maximum. -/
theorem delay_le {d : Span} (h : p.delay attempt = .ok d) : d ≤ p.maxDelay := by
  rcases Nat.lt_or_ge attempt p.maxRetries with retry | last
  · rw [delay_of_retry retry] at h
    cases uncut : (p.uncut attempt).toSpan with
    | error e =>
        rw [uncut] at h
        cases h
    | ok d =>
        rw [uncut] at h
        cases h
        show (if p.maxDelay < d then p.maxDelay else d).nanos ≤ p.maxDelay.nanos
        split
        · exact Nat.le_refl _
        · next short => exact Nat.not_lt.mp short
  · rw [delay, if_pos last] at h
    cases h
    exact Nat.le_refl _

/-- Under a factor of at least one there is a pause, no longer than the maximum, exactly if the
attempt is none that is repeated or the seconds of the uncut pause are a number in reach. -/
theorem delay_capped_iff (p : Policy) (attempt : Nat)
    (growing : (Binary64.ofNat 1).le p.multiplier = true) :
    (∃ d, p.delay attempt = .ok d ∧ d ≤ p.maxDelay) ↔
      p.maxRetries ≤ attempt ∨ (p.uncut attempt).isNaN = false ∧
        (Binary64.ofNat UInt64.size).le (p.uncut attempt) = false := by
  have sign : (p.uncut attempt).negative = false :=
    Binary64.negative_mul (Binary64.negative_ofSpan _)
      (Binary64.negative_power (Binary64.not_negative_of_le growing) _)
  rw [← Binary64.toSpan_ok_iff sign]
  constructor
  · rintro ⟨d, delay, -⟩
    rcases Nat.lt_or_ge attempt p.maxRetries with retry | last
    · rw [delay_of_retry retry] at delay
      cases uncut : (p.uncut attempt).toSpan with
      | error e =>
          rw [uncut] at delay
          cases delay
      | ok d => exact .inr ⟨d, rfl⟩
    · exact .inl last
  · rintro (last | ⟨d, uncut⟩)
    · exact ⟨p.maxDelay, if_pos last, Nat.le_refl _⟩
    · rcases Nat.lt_or_ge attempt p.maxRetries with retry | last
      · have delay := delay_of_retry retry
        rw [uncut] at delay
        exact ⟨_, delay, delay_le delay⟩
      · exact ⟨p.maxDelay, if_pos last, Nat.le_refl _⟩

theorem delay_capped_doubled :
    (Binary64.ofNat 1).le (default : Policy).multiplier = true ∧
      ∃ d, (default : Policy).delay 2 = .ok d ∧ d ≤ (default : Policy).maxDelay := by
  have growing : (Binary64.ofNat 1).le (default : Policy).multiplier = true := by decide +kernel
  exact ⟨growing, (delay_capped_iff default 2 growing).mpr (.inr (by decide +kernel))⟩

/-- A second, doubled sixty-four times, is out of reach before it is cut off. -/
theorem not_delay_capped :
    ¬ ∀ (p : Policy) (attempt : Nat), p.multiplier.isFinite = true →
      (Binary64.ofNat 1).le p.multiplier = true → attempt < UInt32.size →
        ∃ d, p.delay attempt = .ok d ∧ d ≤ p.maxDelay := by
  intro capped
  obtain ⟨d, delay, -⟩ := capped
    { maxRetries := 100, initialDelay := .ofSeconds 1, maxDelay := .ofSeconds 60 } 64
    (by decide +kernel) (by decide +kernel) (by decide)
  rw [delay_of_retry (by decide),
    Binary64.toSpan_of_le (by decide +kernel) (.inr (by decide +kernel))] at delay
  cases delay

end Retry.Policy

end ReliableQueue
