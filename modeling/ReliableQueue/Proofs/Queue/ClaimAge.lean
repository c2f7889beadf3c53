import ReliableQueue.Proofs.Rounding
import ReliableQueue.Proofs.Store.Memory
import ReliableQueue.Proofs.Store.Ranges
import ReliableQueue.Queue.Recovery

/-!
How old a claim is when a recovery finds it. A claim is stamped with the whole second it falls
in and a recovery counts back from the whole second it begins in, so a claim may be younger than
the age asked for, by up to a second and by what is lost in rounding.
-/

namespace ReliableQueue

/-- The whole seconds that cover a span. -/
def Span.covering (d : Span) : Nat := (d.nanos + Span.nanosPerSecond - 1) / Span.nanosPerSecond

namespace Queue

open Binary64 (ofNat)
open Store (Contents Memory)

variable {maxAge timeout : Span} {epoch n k : Nat} {claimed begun : Instant}

/-! ### The cutoff -/

theorem isNaN_cutoff (finite_n : (ofNat n).isFinite = true)
    (finite : (Binary64.ofSpan maxAge).isFinite = true) : (cutoff n maxAge).isNaN = false :=
  Binary64.isNaN_sub finite_n finite

/-- A later recovery finds whatever an earlier one finds. -/
theorem cutoff_mono {n' : Nat} (later : n ≤ n') (bounded : maxAge.seconds < UInt64.size) :
    (cutoff n maxAge).le (cutoff n' maxAge) = true :=
  Binary64.ofNat_sub_le later (Binary64.isFinite_ofSpan bounded).2

/-- A recovery of claims older than at most `k` seconds finds a stamp of `k` seconds ago. -/
theorem le_cutoff (h : maxAge ≤ .ofSeconds k) (le : k ≤ n) (short : n < 2 * Binary64.fractionSize) :
    (ofNat (n - k)).le (cutoff n maxAge) = true := by
  obtain ⟨finite, units⟩ := Binary64.ofSpan_le h (Nat.lt_of_le_of_lt le short)
  obtain ⟨finite_n, -⟩ := Binary64.ofNat_short short
  refine (Binary64.le_iff (Binary64.isNaN_ofNat _) (isNaN_cutoff finite_n finite)).mpr ?_
  rw [cutoff, Binary64.orderKey_sub finite_n finite, Binary64.signedUnits_ofNat short,
    ← Binary64.nearest_ofNat]
  refine Binary64.nearest_mono ?_
  have split : n * Binary64.one = (n - k) * Binary64.one + k * Binary64.one := by
    rw [← Nat.add_mul, Nat.sub_add_cancel le]
  rw [split, Int.natCast_add]
  exact Int.le_sub_right_of_add_le (Int.add_le_add_left units _)

/-- A recovery of claims older than a little more than `k` seconds finds no stamp of `k`
seconds ago. -/
theorem cutoff_lt (h : k * Span.nanosPerSecond + 954 ≤ maxAge.nanos) (short : n < Nat.pow 2 32)
    (bounded : maxAge.seconds < UInt64.size) (le : k ≤ n) :
    (ofNat (n - k)).le (cutoff n maxAge) = false := by
  have size : Binary64.fractionSize = 4503599627370496 := rfl
  have limit : Nat.pow 2 32 = 4294967296 := rfl
  obtain ⟨finite_n, -⟩ := Binary64.ofNat_short (n := n) (by omega)
  obtain ⟨-, exact⟩ := Binary64.nearest_short (m := (n - k : Nat) * 1048576 - 1) (by omega)
    Binary64.micro_eq (by decide) (by decide)
  obtain ⟨finite, units⟩ := Binary64.le_ofSpan h (by omega) bounded
  rw [Bool.eq_false_iff]
  intro found
  have low := (Binary64.le_iff (Binary64.isNaN_ofNat _) (isNaN_cutoff finite_n finite)).mp found
  rw [cutoff, Binary64.orderKey_sub finite_n finite, Binary64.signedUnits_ofNat (by omega)] at low
  have seconds (i : Nat) : ((i * Binary64.one : Nat) : Int) = i * 1048576 * Binary64.micro := by
    rw [Binary64.one_eq_micro, ← Nat.mul_assoc, Int.natCast_mul, Int.natCast_mul]
    rfl
  have split : (n : Int) = (n - k : Nat) + k := by omega
  have high : ((n * Binary64.one : Nat) : Int) - (Binary64.ofSpan maxAge).signedUnits ≤
      ((n - k : Nat) * 1048576 - 1) * Binary64.micro := by
    refine Int.le_trans (Int.sub_le_sub_left units _) (Int.le_of_eq ?_)
    rw [seconds, split, Int.natCast_mul, ← Int.sub_mul, Int.natCast_add, Int.natCast_mul]
    refine congrArg (· * (Binary64.micro : Int)) ?_
    omega
  have units := Binary64.signedUnits_mono (Int.le_trans low (Binary64.nearest_mono high))
  rw [exact, Binary64.signedUnits_ofNat (by omega), seconds] at units
  have less := Int.le_of_mul_le_mul_right units (Int.natCast_pos.mpr Binary64.micro_pos)
  omega

/-! ### Stamp and lookup -/

/-- The claim that a fetcher stamps at `claimed` is found, as it was stamped, by a recovery that
begins at `begun`. -/
inductive Found (maxAge : Span) (epoch : Nat) (claimed begun : Instant) : Prop where
  | intro {s : Setting} {sh sh' : Shared} {claim : Claim} {es es' : List Event} {m m' : Memory}
      {ids : List String} (clock : s.epoch = epoch) (now : s.now = claimed)
      (stamped : Fetcher.step s sh (.stamping claim) = some ⟨.offering claim, sh', es⟩)
      (stands : m.contents.score? s.keys.processing claim.id =
        sh'.memory.contents.score? s.keys.processing claim.id)
      (ranged : Recovery.ranging.step s.keys maxAge (Clock.wallSecond epoch begun) m =
        (.going (.restoring ids 0), m', es'))
      (found : claim.id ∈ ids)

theorem score_of_stamping {s : Setting} {sh sh' : Shared} {claim : Claim} {es : List Event}
    (h : Fetcher.step s sh (.stamping claim) = some ⟨.offering claim, sh', es⟩) :
    sh'.memory.contents.score? s.keys.processing claim.id = some s.stamp := by
  simp only [Fetcher.step] at h
  split at h
  · cases h
  · next ok =>
      cases h
      rw [Memory.zadd_ok ok, Contents.score?_setScore, if_pos ⟨rfl, rfl⟩]

theorem restoring_of_ranging {keys : Keys} {m m' : Memory} {ids : List String} {es : List Event}
    (h : Recovery.ranging.step keys maxAge n m = (.going (.restoring ids 0), m', es)) :
    ids = m.contents.range keys.processing (cutoff n maxAge) := by
  simp only [Recovery.step] at h
  split at h
  · cases h
  · next ok =>
      cases h
      exact (Memory.zrangebyscore_ok ok).1

/-- Only the wall seconds of the two matter. -/
theorem found_iff : Found maxAge epoch claimed begun ↔
    (ofNat (Clock.wallSecond epoch claimed)).le
      (cutoff (Clock.wallSecond epoch begun) maxAge) = true := by
  constructor
  · rintro ⟨rfl, rfl, stamped, stands, ranged, found⟩
    rw [restoring_of_ranging ranged] at found
    obtain ⟨stamp, score, low⟩ := ((Contents.isRange_range _ _ _).mem _).mp found
    rw [stands, score_of_stamping stamped] at score
    cases score
    exact low
  · intro low
    let s : Setting := ⟨.ofName "q", .default, ⟨[]⟩, epoch, claimed⟩
    let sh : Shared := ⟨.empty, ⟨1, [], false⟩, {}⟩
    let claim : Claim := ⟨"a", []⟩
    have stamped : Fetcher.step s sh (.stamping claim) = some ⟨.offering claim, _, _⟩ := rfl
    refine .intro rfl rfl stamped rfl rfl ?_
    exact ((Contents.isRange_range _ _ _).mem _).mpr ⟨s.stamp, score_of_stamping stamped, low⟩

/-- Whenever a recovery that begins in wall second `n` finds a claim, more than `timeout` has
passed since the claim was stamped. -/
def Outlasts (maxAge timeout : Span) (n : Nat) : Prop :=
  ∀ (epoch : Nat) (claimed begun : Instant), Clock.wallSecond epoch begun = n →
    claimed ≤ begun → Found maxAge epoch claimed begun → timeout.nanos < begun - claimed

/-- A claim no older than `timeout` was stamped within the seconds that cover it. -/
theorem stamp_of_young (epoch : Nat) {claimed begun : Nat} (le : claimed ≤ begun)
    (young : begun - claimed ≤ timeout.nanos) :
    Clock.wallSecond epoch begun - timeout.covering ≤ Clock.wallSecond epoch claimed := by
  simp only [Clock.wallSecond, Span.covering, Span.nanosPerSecond]
  omega

/-- The youngest claim with that stamp. -/
theorem exists_young (n : Nat) (timeout : Span) : ∃ claimed begun : Nat,
    Clock.wallSecond 0 begun = n ∧ claimed ≤ begun ∧ begun - claimed ≤ timeout.nanos ∧
      Clock.wallSecond 0 claimed = n - timeout.covering := by
  refine ⟨n * Span.nanosPerSecond - timeout.nanos, n * Span.nanosPerSecond, ?_, ?_, ?_, ?_⟩
  all_goals
    simp only [Clock.wallSecond, Span.covering, Span.nanosPerSecond]
    omega

theorem outlasts_of_lt (low : (ofNat (n - timeout.covering)).le (cutoff n maxAge) = false) :
    Outlasts maxAge timeout n := by
  rintro epoch claimed begun rfl le found
  refine Nat.lt_of_not_le fun young => Bool.false_ne_true (low.symm.trans ?_)
  have stamps := Binary64.ofNat_le (stamp_of_young epoch le young)
  exact Binary64.le_trans stamps (found_iff.mp found)

theorem not_outlasts_of_le (high : (ofNat (n - timeout.covering)).le (cutoff n maxAge) = true) :
    ¬ Outlasts maxAge timeout n := by
  intro outlasts
  obtain ⟨claimed, begun, at_n, le, young, stamp⟩ := exists_young n timeout
  refine Nat.not_lt.mpr young (outlasts 0 claimed begun at_n le (found_iff.mpr ?_))
  rw [stamp, at_n]
  exact high

/-- Exactly if the stamp of a claim `timeout` old, counted in whole seconds, lies above the cutoff
does a recovery find no claim before its time is up. -/
theorem outlasts_iff (maxAge timeout : Span) (n : Nat) :
    Outlasts maxAge timeout n ↔
      (ofNat (n - timeout.covering)).le (cutoff n maxAge) = false := by
  refine ⟨fun outlasts => ?_, outlasts_of_lt⟩
  rw [Bool.eq_false_iff]
  exact fun high => not_outlasts_of_le high outlasts

/-- An age that exceeds the timeout is accepted, but claims wait for the next whole second: with
ten seconds for nine and a half, a claim is found nine seconds and a millisecond after it was
stamped. -/
theorem not_outlasts_of_accepted :
    ¬ ∀ (o : Options) (timeout maxAge : Span) (n : Nat), o.executionTimeout = some timeout →
      checkMaxAge o maxAge = .ok () → Outlasts maxAge timeout n := by
  intro safe
  have outlasts := safe { executionTimeout := some (.ofMillis 9500) } (.ofMillis 9500)
    (.ofSeconds 10) 1700000010 rfl rfl
  have found : Found (.ofSeconds 10) 1700000000999000000 0 9001000000 :=
    found_iff.mpr (by decide +kernel)
  exact absurd (outlasts 1700000000999000000 0 9001000000 rfl (Nat.zero_le _) found) (by decide)

/-- An age that does not exceed the whole seconds that cover the timeout is not enough. -/
theorem not_outlasts_of_short (short : maxAge ≤ .ofSeconds timeout.covering)
    (le : timeout.covering ≤ n) (exact : n < 2 * Binary64.fractionSize) :
    ¬ Outlasts maxAge timeout n :=
  not_outlasts_of_le (le_cutoff short le exact)

/-- A microsecond more than they make up is, until the seconds outgrow 32 bits. -/
theorem outlasts_of_long (long : timeout.covering * Span.nanosPerSecond + 954 ≤ maxAge.nanos)
    (bounded : maxAge.seconds < UInt64.size) (n32 : n < Nat.pow 2 32) :
    Outlasts maxAge timeout n := by
  refine outlasts_of_lt ?_
  rcases Nat.le_total timeout.covering n with le | le
  · exact cutoff_lt long n32 bounded le
  · have less := Nat.mul_le_mul_right Span.nanosPerSecond le
    have low := cutoff_lt (k := n) (by omega) n32 bounded (Nat.le_refl n)
    rwa [Nat.sub_self, ← Nat.sub_eq_zero_of_le le] at low

end Queue

end ReliableQueue
