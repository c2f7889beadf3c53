import Mathlib.Algebra.GroupWithZero.Nat
import ReliableQueue.Binary64

/-!
Rounding keeps the order of numbers, and a number of the format rounds to itself. So a rounded
sum or quotient lies on the same side of a number of the format as the exact one does.
-/

namespace ReliableQueue.Binary64

/-! ### Quotients -/

theorem divEven_cases (num den : Nat) :
    (divEven num den = num / den ∧ 2 * (num % den) ≤ den) ∨
      (divEven num den = num / den + 1 ∧ den ≤ 2 * (num % den)) := by
  simp only [divEven]
  split
  · exact .inl ⟨rfl, by omega⟩
  · split
    · exact .inr ⟨rfl, by omega⟩
    · rcases Nat.mod_two_eq_zero_or_one (num / den) with even | odd
      · exact .inl ⟨by rw [even, Nat.add_zero], by omega⟩
      · exact .inr ⟨by rw [odd], by omega⟩

theorem divEven_mul_right (num : Nat) {den c : Nat} (hc : 0 < c) :
    divEven (num * c) (den * c) = divEven num den := by
  have twice : 2 * (num % den * c) = 2 * (num % den) * c := (Nat.mul_assoc _ _ _).symm
  simp only [divEven, Nat.mul_div_mul_right _ _ hc, Nat.mul_mod_mul_right, twice,
    Nat.mul_lt_mul_right hc]

/-- A whole number is its own quotient by one, scaled or not. -/
theorem divEven_mul (q : Nat) {den : Nat} (hd : 0 < den) : divEven (q * den) den = q := by
  have scaled := @divEven_mul_right q 1 den hd
  rw [Nat.one_mul] at scaled
  rw [scaled]
  simp [divEven, Nat.mod_one]

theorem divEven_mono {a b : Nat} (den : Nat) (h : a ≤ b) : divEven a den ≤ divEven b den := by
  rcases Nat.lt_or_ge (a / den) (b / den) with less | not_less
  · -- The lower one is rounded up at most to the next whole number.
    rcases divEven_cases a den with ⟨ha, -⟩ | ⟨ha, -⟩ <;>
      rcases divEven_cases b den with ⟨hb, -⟩ | ⟨hb, -⟩ <;> omega
  · have same : a / den = b / den := Nat.le_antisymm (Nat.div_le_div_right h) not_less
    have rest : a % den ≤ b % den := by
      have ha := Nat.div_add_mod a den
      have hb := Nat.div_add_mod b den
      rw [same] at ha
      omega
    simp only [divEven, same]
    repeat' split
    all_goals omega

theorem divEven_le {num den q : Nat} (hd : 0 < den) (h : num ≤ q * den) : divEven num den ≤ q :=
  Nat.le_trans (divEven_mono den h) (Nat.le_of_eq (divEven_mul q hd))

theorem le_divEven {num den q : Nat} (hd : 0 < den) (h : q * den ≤ num) : q ≤ divEven num den :=
  Nat.le_trans (Nat.le_of_eq (divEven_mul q hd).symm) (divEven_mono den h)

/-! ### Magnitudes -/

/-- How far a quotient is shifted for its fraction to fit. -/
def shift (num den : Nat) : Nat := (num / den).log2 - 52

theorem quotient_bounds (n : Nat) :
    n < 2 * fractionSize * Nat.pow 2 (n.log2 - 52) ∧
      (n.log2 - 52 = 0 ∨ fractionSize * Nat.pow 2 (n.log2 - 52) ≤ n) := by
  have size : fractionSize = 2 ^ 52 := rfl
  have above : n < 2 ^ (n.log2 + 1) := Nat.lt_log2_self
  simp only [Nat.pow_eq, size]
  rcases Nat.lt_or_ge n.log2 53 with small | large
  · have none : n.log2 - 52 = 0 := by omega
    have bound : 2 ^ (n.log2 + 1) ≤ 2 ^ 53 := Nat.pow_le_pow_right (by decide) (by omega)
    rw [none]
    exact ⟨by omega, .inl rfl⟩
  · have positive : n ≠ 0 := by
      rintro rfl
      simp at large
    have below : 2 ^ n.log2 ≤ n := Nat.log2_self_le positive
    have split : n.log2 = 52 + (n.log2 - 52) := by omega
    rw [split, Nat.pow_add] at below
    rw [split, Nat.pow_succ, Nat.pow_add] at above
    exact ⟨by omega, .inr below⟩

/-- The fraction of a quotient that is rounded; it may be one too many for its place, and then
it counts as the first of the next. -/
theorem fraction_bounds (num : Nat) {den : Nat} (hd : 0 < den) :
    divEven num (den * Nat.pow 2 (shift num den)) ≤ 2 * fractionSize ∧
      (shift num den = 0 ∨ fractionSize ≤ divEven num (den * Nat.pow 2 (shift num den))) := by
  obtain ⟨above, below⟩ := quotient_bounds (num / den)
  have scaled : 0 < den * Nat.pow 2 (shift num den) := Nat.mul_pos hd (Nat.two_pow_pos _)
  refine ⟨divEven_le scaled ?_, below.imp id fun below => le_divEven scaled ?_⟩
  · have bound := (Nat.div_lt_iff_lt_mul hd).mp above
    rw [Nat.mul_comm den, ← Nat.mul_assoc]
    exact Nat.le_of_lt bound
  · have bound := (Nat.le_div_iff_mul_le hd).mp below
    rwa [Nat.mul_comm den, ← Nat.mul_assoc]

theorem roundMagnitude_eq (num den : Nat) :
    roundMagnitude num den = min (shift num den * fractionSize +
      divEven num (den * Nat.pow 2 (shift num den))) infiniteMagnitude := rfl

theorem shift_mono {a b : Nat} (den : Nat) (h : a ≤ b) : shift a den ≤ shift b den := by
  rcases Nat.eq_zero_or_pos (a / den) with none | some
  · simp [shift, none]
  · have quotients : a / den ≤ b / den := Nat.div_le_div_right h
    have below : 2 ^ (a / den).log2 ≤ a / den := Nat.log2_self_le (Nat.ne_of_gt some)
    have logs : (a / den).log2 ≤ (b / den).log2 :=
      (Nat.le_log2 (by omega)).mpr (Nat.le_trans below quotients)
    exact Nat.sub_le_sub_right logs 52

theorem roundMagnitude_mono {a b den : Nat} (hd : 0 < den) (h : a ≤ b) :
    roundMagnitude a den ≤ roundMagnitude b den := by
  rw [roundMagnitude_eq, roundMagnitude_eq]
  suffices uncut : shift a den * fractionSize + divEven a (den * Nat.pow 2 (shift a den)) ≤
      shift b den * fractionSize + divEven b (den * Nat.pow 2 (shift b den)) by omega
  rcases Nat.eq_or_lt_of_le (shift_mono den h) with same | less
  · rw [same]
    exact Nat.add_le_add_left (divEven_mono _ h) _
  · -- The lower fraction ends where the next one begins.
    have upper := (fraction_bounds a hd).1
    have lower := (fraction_bounds b hd).2.resolve_left (by omega)
    have places : (shift a den + 1) * fractionSize ≤ shift b den * fractionSize :=
      Nat.mul_le_mul_right _ less
    rw [Nat.add_mul, Nat.one_mul] at places
    omega

theorem roundMagnitude_mul_right (num : Nat) {den c : Nat} (hc : 0 < c) :
    roundMagnitude (num * c) (den * c) = roundMagnitude num den := by
  have same : shift (num * c) (den * c) = shift num den := by
    rw [shift, shift, Nat.mul_div_mul_right _ _ hc]
  rw [roundMagnitude_eq, roundMagnitude_eq, same, Nat.mul_right_comm, divEven_mul_right _ hc]

/-! ### Numbers of the format -/

/-- Below `fractionSize` a number is its magnitude in units; above, the magnitude is a shift and a
fraction with its leading one. -/
theorem magnitude_cases (x : Binary64) :
    (x.magnitude < fractionSize ∧ x.units = x.magnitude) ∨
      ∃ s m, x.magnitude = s * fractionSize + m ∧ fractionSize ≤ m ∧ m < 2 * fractionSize ∧
        x.units = m * Nat.pow 2 s := by
  have parts := Nat.div_add_mod x.magnitude fractionSize
  have bound := Nat.mod_lt x.magnitude (show 0 < fractionSize by decide)
  rw [Nat.mul_comm] at parts
  simp only [units]
  split
  · next first => exact .inl ⟨by rw [first] at parts; omega, by rw [first] at parts; omega⟩
  · next later =>
      obtain ⟨s, field⟩ := Nat.exists_eq_succ_of_ne_zero later
      rw [field, Nat.succ_mul] at parts
      refine .inr ⟨s, fractionSize + x.magnitude % fractionSize, by omega, by omega, by omega, ?_⟩
      rw [field, Nat.succ_sub_one]

theorem units_of_magnitude {x : Binary64} {s m : Nat} (h : x.magnitude = s * fractionSize + m)
    (low : fractionSize ≤ m) (high : m < 2 * fractionSize) : x.units = m * Nat.pow 2 s := by
  have size : 0 < fractionSize := by decide
  have split : x.magnitude = (m - fractionSize) + (s + 1) * fractionSize := by
    rw [Nat.succ_mul]
    omega
  have field : x.magnitude / fractionSize = s + 1 := by
    rw [split, Nat.add_mul_div_right _ _ size, Nat.div_eq_of_lt (by omega), Nat.zero_add]
  have fraction : x.magnitude % fractionSize = m - fractionSize := by
    rw [split, Nat.add_mul_mod_self_right, Nat.mod_eq_of_lt (by omega)]
  simp only [units, field, fraction, Nat.succ_ne_zero, if_false, Nat.add_sub_cancel]
  rw [Nat.add_sub_cancel' low]

theorem units_mono {x y : Binary64} (h : x.magnitude ≤ y.magnitude) : x.units ≤ y.units := by
  rcases magnitude_cases x with ⟨hx, ux⟩ | ⟨s, m, hx, low, high, ux⟩ <;>
    rcases magnitude_cases y with ⟨hy, uy⟩ | ⟨t, n, hy, low', high', uy⟩ <;> rw [ux, uy]
  · exact h
  · exact Nat.le_trans (by omega) (Nat.le_mul_of_pos_right n (Nat.two_pow_pos t))
  · omega
  · rcases Nat.lt_trichotomy s t with less | same | greater
    · have shifted : 2 * fractionSize * Nat.pow 2 s ≤ fractionSize * Nat.pow 2 t := by
        have powers : Nat.pow 2 (s + 1) ≤ Nat.pow 2 t := Nat.pow_le_pow_right (by decide) less
        rw [show Nat.pow 2 (s + 1) = Nat.pow 2 s * 2 from rfl] at powers
        rw [Nat.mul_comm 2, Nat.mul_assoc, Nat.mul_comm 2]
        exact Nat.mul_le_mul_left _ powers
      exact Nat.le_trans (Nat.mul_le_mul_right _ (Nat.le_of_lt high))
        (Nat.le_trans shifted (Nat.mul_le_mul_right _ low'))
    · subst same
      exact Nat.mul_le_mul_right _ (by omega)
    · have places : (t + 1) * fractionSize ≤ s * fractionSize := Nat.mul_le_mul_right _ greater
      rw [Nat.succ_mul] at places
      omega

/-- What has a fraction of full length is not rounded, unless it is too large. -/
theorem roundMagnitude_whole {s m : Nat} (low : fractionSize ≤ m) (high : m < 2 * fractionSize) :
    roundMagnitude (m * Nat.pow 2 s) 1 = min (s * fractionSize + m) infiniteMagnitude := by
  have size : fractionSize = 2 ^ 52 := rfl
  have log : (m * Nat.pow 2 s).log2 = 52 + s := by
    refine (Nat.log2_eq_iff (Nat.ne_of_gt (Nat.mul_pos (by omega) (Nat.two_pow_pos s)))).mpr ?_
    rw [size] at low high
    constructor
    · rw [Nat.pow_add]
      exact Nat.mul_le_mul_right _ low
    · have top : 2 ^ (52 + s + 1) = 2 * 2 ^ 52 * 2 ^ s := by
        rw [Nat.add_right_comm, Nat.pow_add, Nat.pow_succ, Nat.mul_comm (2 ^ 52)]
      rw [top]
      exact Nat.mul_lt_mul_of_pos_right high (Nat.two_pow_pos s)
  have place : shift (m * Nat.pow 2 s) 1 = s := by
    rw [shift, Nat.div_one, log]
    omega
  have whole : divEven (m * Nat.pow 2 s) (Nat.pow 2 s) = m := divEven_mul m (Nat.two_pow_pos s)
  rw [roundMagnitude_eq, place, Nat.one_mul, whole]

theorem units_zero {x : Binary64} (h : x.magnitude = 0) : x.units = 0 := by
  simp [units, h]

/-- What has a short enough fraction and is neither too small nor too large is not rounded. -/
theorem round_short (negative : Bool) {m j unit : Nat} (short : m < 2 * fractionSize)
    (power : unit = Nat.pow 2 j) (low : 52 ≤ j) (high : j ≤ 2045) :
    (round negative (m * unit) 1).isFinite = true ∧
      (round negative (m * unit) 1).units = m * unit := by
  subst power
  rcases Nat.eq_zero_or_pos m with rfl | some
  · rw [Nat.zero_mul]
    exact ⟨decide_eq_true (show roundMagnitude 0 1 < infiniteMagnitude by decide),
      units_zero (show roundMagnitude 0 1 = 0 by decide)⟩
  · have size : fractionSize = 2 ^ 52 := rfl
    have log : m.log2 < 53 := (Nat.log2_lt (Nat.ne_of_gt some)).mpr (by omega)
    have below : 2 ^ m.log2 ≤ m := Nat.log2_self_le (Nat.ne_of_gt some)
    have above : m < 2 ^ (m.log2 + 1) := Nat.lt_log2_self
    -- The fraction is brought to full length; the exponent makes up for it.
    have exponents : j = (52 - m.log2) + (j - 52 + m.log2) := by omega
    have scaled : m * Nat.pow 2 j = m * 2 ^ (52 - m.log2) * Nat.pow 2 (j - 52 + m.log2) := by
      rw [Nat.mul_assoc, Nat.pow_eq, Nat.pow_eq, ← Nat.pow_add, ← exponents]
    have least : fractionSize ≤ m * 2 ^ (52 - m.log2) := by
      have bound := Nat.mul_le_mul_right (2 ^ (52 - m.log2)) below
      rw [← Nat.pow_add] at bound
      rwa [show m.log2 + (52 - m.log2) = 52 by omega] at bound
    have most : m * 2 ^ (52 - m.log2) < 2 * fractionSize := by
      have bound := Nat.mul_lt_mul_of_pos_right above (Nat.two_pow_pos (52 - m.log2))
      rw [← Nat.pow_add] at bound
      rwa [show m.log2 + 1 + (52 - m.log2) = 53 by omega] at bound
    have places : (j - 52 + m.log2) * fractionSize ≤ 2045 * fractionSize :=
      Nat.mul_le_mul_right _ (by omega)
    have magnitude : (round negative (m * Nat.pow 2 j) 1).magnitude =
        (j - 52 + m.log2) * fractionSize + m * 2 ^ (52 - m.log2) := by
      rw [scaled]
      refine (roundMagnitude_whole least most).trans (Nat.min_eq_left ?_)
      rw [infiniteMagnitude]
      omega
    refine ⟨decide_eq_true ?_, (units_of_magnitude magnitude least most).trans scaled.symm⟩
    rw [magnitude, infiniteMagnitude]
    omega

theorem one_eq : one = Nat.pow 2 1074 := by decide +kernel

theorem ofNat_short {n : Nat} (h : n < 2 * fractionSize) :
    (ofNat n).isFinite = true ∧ (ofNat n).units = n * one :=
  round_short false h one_eq (by decide) (by decide)

/-! ### Order -/

theorem isNaN_round (negative : Bool) (num den : Nat) : (round negative num den).isNaN = false := by
  have bounded : roundMagnitude num den ≤ infiniteMagnitude := Nat.min_le_right _ _
  exact decide_eq_false (Nat.not_lt.mpr bounded)

theorem not_isNaN_of_finite {x : Binary64} (h : x.isFinite = true) : x.isNaN = false :=
  decide_eq_false (Nat.not_lt.mpr (Nat.le_of_lt (of_decide_eq_true h)))

theorem not_infinite_of_finite {x : Binary64} (h : x.isFinite = true) : x.isInfinite = false :=
  decide_eq_false (Nat.ne_of_lt (of_decide_eq_true h))

theorem le_iff {x y : Binary64} (hx : x.isNaN = false) (hy : y.isNaN = false) :
    x.le y = true ↔ x.orderKey ≤ y.orderKey := by
  rw [le, hx, hy]
  exact decide_eq_true_iff

theorem le_trans {x y z : Binary64} (xy : x.le y = true) (yz : y.le z = true) : x.le z = true := by
  simp only [le, Bool.and_eq_true, Bool.not_eq_true', decide_eq_true_eq] at xy yz ⊢
  exact ⟨⟨xy.1.1, yz.1.2⟩, Int.le_trans xy.2 yz.2⟩

theorem finite_of_between {x y : Binary64} (low : 0 ≤ x.orderKey)
    (high : x.orderKey ≤ y.orderKey) (finite : y.isFinite = true) : x.isFinite = true := by
  have bound : y.magnitude < infiniteMagnitude := of_decide_eq_true finite
  refine decide_eq_true ?_
  cases hx : x.negative <;> cases hy : y.negative <;>
    simp only [orderKey, hx, hy, if_true, Bool.false_eq_true, if_false] at low high <;> omega

theorem roundMagnitude_pos {num : Nat} (h : 0 < num) : 0 < roundMagnitude num 1 :=
  Nat.lt_of_lt_of_le (by decide) (roundMagnitude_mono (a := 1) (by decide) h)

theorem isNaN_ofNat (n : Nat) : (ofNat n).isNaN = false := isNaN_round _ _ _

theorem orderKey_ofNat_mono {a b : Nat} (h : a ≤ b) : (ofNat a).orderKey ≤ (ofNat b).orderKey :=
  Int.ofNat_le.mpr (roundMagnitude_mono (by decide) (Nat.mul_le_mul_right one h))

theorem ofNat_le {a b : Nat} (h : a ≤ b) : (ofNat a).le (ofNat b) = true :=
  (le_iff (isNaN_ofNat a) (isNaN_ofNat b)).mpr (orderKey_ofNat_mono h)

/-- The number nearest to a whole number of units. -/
def nearest (s : Int) : Binary64 := round (s < 0) s.natAbs 1

theorem nearest_mono {s t : Int} (h : s ≤ t) : (nearest s).orderKey ≤ (nearest t).orderKey := by
  have key (s : Int) : (nearest s).orderKey =
      if s < 0 then -(roundMagnitude s.natAbs 1 : Int) else roundMagnitude s.natAbs 1 := by
    simp only [orderKey, nearest, round, decide_eq_true_eq]
  rw [key, key]
  split <;> split
  · have less := roundMagnitude_mono Nat.one_pos (show t.natAbs ≤ s.natAbs by omega)
    omega
  · omega
  · omega
  · have less := roundMagnitude_mono Nat.one_pos (show s.natAbs ≤ t.natAbs by omega)
    omega

theorem signedUnits_mono {x y : Binary64} (h : x.orderKey ≤ y.orderKey) :
    x.signedUnits ≤ y.signedUnits := by
  simp only [orderKey, signedUnits] at h ⊢
  split at h <;> split at h
  · have less := units_mono (x := y) (y := x) (by omega)
    simp only [*, if_true]
    omega
  · simp only [*, if_true, Bool.false_eq_true, if_false]
    omega
  · have zero_x := units_zero (x := x) (by omega)
    have zero_y := units_zero (x := y) (by omega)
    simp only [*]
    omega
  · have less := units_mono (x := x) (y := y) (by omega)
    simp only [*, Bool.false_eq_true, if_false]
    omega

theorem signedUnits_neg (x : Binary64) : x.neg.signedUnits = -x.signedUnits := by
  show (if (!x.negative) = true then -(x.units : Int) else x.units) =
    -(if x.negative = true then -(x.units : Int) else x.units)
  cases x.negative <;> simp

/-- A sum of finite numbers is the number nearest to their exact sum; only which of the zeros it
is depends on more. -/
theorem orderKey_add {x y : Binary64} (hx : x.isFinite = true) (hy : y.isFinite = true) :
    (x + y).orderKey = (nearest (x.signedUnits + y.signedUnits)).orderKey := by
  show (add x y).orderKey = _
  simp only [add, not_isNaN_of_finite hx, not_isNaN_of_finite hy, not_infinite_of_finite hx,
    not_infinite_of_finite hy, Bool.or_self, Bool.false_eq_true, if_false]
  split
  · next none =>
      rw [none]
      cases x.negative <;> cases y.negative <;> decide
  · rfl

theorem isNaN_add {x y : Binary64} (hx : x.isFinite = true) (hy : y.isFinite = true) :
    (x + y).isNaN = false := by
  show (add x y).isNaN = false
  simp only [add, not_isNaN_of_finite hx, not_isNaN_of_finite hy, not_infinite_of_finite hx,
    not_infinite_of_finite hy, Bool.or_self, Bool.false_eq_true, if_false]
  exact isNaN_round _ _ _

theorem isNaN_sub {x y : Binary64} (hx : x.isFinite = true) (hy : y.isFinite = true) :
    (x - y).isNaN = false :=
  isNaN_add hx (y := y.neg) hy

theorem orderKey_sub {x y : Binary64} (hx : x.isFinite = true) (hy : y.isFinite = true) :
    (x - y).orderKey = (nearest (x.signedUnits - y.signedUnits)).orderKey := by
  have sum := orderKey_add hx (y := y.neg) hy
  rwa [signedUnits_neg, ← Int.sub_eq_add_neg] at sum

/-! ### Seconds -/

theorem sub_of_infinite {x y : Binary64} (hx : x.isInfinite = true) (hy : y.isFinite = true) :
    x - y = x := by
  have number : x.isNaN = false :=
    decide_eq_false (Nat.not_lt.mpr (Nat.le_of_eq (of_decide_eq_true hx)))
  have number_y : y.neg.isNaN = false := not_isNaN_of_finite hy
  have finite_y : y.neg.isInfinite = false := not_infinite_of_finite hy
  show add x y.neg = x
  rw [add, number, number_y, hx, finite_y]
  rfl

theorem finite_or_infinite_ofNat (n : Nat) :
    (ofNat n).isFinite = true ∨ (ofNat n).isInfinite = true := by
  have bounded : roundMagnitude (n * one) 1 ≤ infiniteMagnitude := Nat.min_le_right _ _
  exact (Nat.lt_or_eq_of_le bounded).imp decide_eq_true decide_eq_true

theorem isNaN_ofNat_sub (n : Nat) {x : Binary64} (hx : x.isFinite = true) :
    (ofNat n - x).isNaN = false := by
  rcases finite_or_infinite_ofNat n with finite | infinite
  · exact isNaN_sub finite hx
  · rw [sub_of_infinite infinite hx]
    exact isNaN_ofNat n

/-- To take off the same keeps whole numbers in order, the infinite ones among them. -/
theorem ofNat_sub_le {a b : Nat} {x : Binary64} (h : a ≤ b) (hx : x.isFinite = true) :
    (ofNat a - x).le (ofNat b - x) = true := by
  have number := isNaN_ofNat_sub a hx
  refine (le_iff number (isNaN_ofNat_sub b hx)).mpr ?_
  rcases finite_or_infinite_ofNat b with finite | infinite
  · have finite_a : (ofNat a).isFinite = true :=
      finite_of_between (Int.natCast_nonneg _) (orderKey_ofNat_mono h) finite
    rw [orderKey_sub finite_a hx, orderKey_sub finite hx]
    exact nearest_mono (Int.sub_le_sub_right (signedUnits_mono (orderKey_ofNat_mono h)) _)
  · have bound : (ofNat a - x).magnitude ≤ infiniteMagnitude :=
      Nat.not_lt.mp (of_decide_eq_false number)
    have top : (ofNat b).orderKey = infiniteMagnitude :=
      congrArg Int.ofNat (of_decide_eq_true infinite)
    rw [sub_of_infinite infinite hx, top, orderKey]
    split <;> omega


theorem nearest_short {m : Int} {j unit : Nat} (short : m.natAbs < 2 * fractionSize)
    (power : unit = Nat.pow 2 j) (low : 52 ≤ j) (high : j ≤ 2045) :
    (nearest (m * unit)).isFinite = true ∧ (nearest (m * unit)).signedUnits = m * unit := by
  have some : 0 < unit := by
    rw [power]
    exact Nat.two_pow_pos j
  have size : (m * unit).natAbs = m.natAbs * unit := by rw [Int.natAbs_mul, Int.natAbs_natCast]
  obtain ⟨finite, units⟩ := round_short (decide (m * unit < 0)) short power low high
  rw [nearest, size]
  refine ⟨finite, ?_⟩
  rw [signedUnits, units, ← size]
  simp only [round, decide_eq_true_eq]
  split <;> omega

theorem signedUnits_ofNat {n : Nat} (h : n < 2 * fractionSize) :
    (ofNat n).signedUnits = (n * one : Nat) :=
  congrArg Int.ofNat (ofNat_short h).2

theorem nearest_ofNat (n : Nat) : nearest (n * one : Nat) = ofNat n := by
  have sign : ¬ ((n * one : Nat) : Int) < 0 := by omega
  simp only [nearest, ofNat, Int.natAbs_natCast, sign, decide_false]

theorem round_mul_right (negative : Bool) (num : Nat) {den c : Nat} (hc : 0 < c) :
    round negative (num * c) (den * c) = round negative num den := by
  simp only [round, roundMagnitude_mul_right num hc]

theorem one_pos : 0 < one := by decide +kernel

theorem div_ofNat {a b : Nat} (ha : a < 2 * fractionSize) (hb : b < 2 * fractionSize)
    (some : 0 < b) : ofNat a / ofNat b = round false (a * one) b := by
  obtain ⟨finite_a, units_a⟩ := ofNat_short ha
  obtain ⟨finite_b, units_b⟩ := ofNat_short hb
  have divisor : (ofNat b).magnitude ≠ 0 :=
    Nat.ne_of_gt (roundMagnitude_pos (Nat.mul_pos some one_pos))
  have sign (n : Nat) : (ofNat n).negative = false := rfl
  show div (ofNat a) (ofNat b) = _
  simp only [div, not_isNaN_of_finite finite_a, not_isNaN_of_finite finite_b,
    not_infinite_of_finite finite_a, not_infinite_of_finite finite_b, divisor, sign, units_a,
    units_b, bne_self_eq_false, Bool.or_self, Bool.false_eq_true, if_false]
  exact round_mul_right _ _ one_pos

/-- The part of a span that is no whole second, rounded. -/
def part (d : Span) : Binary64 := round false (d.subsecond * one) Span.nanosPerSecond

theorem ofSpan_eq (d : Span) : ofSpan d = ofNat d.seconds + part d := by
  have below : d.subsecond < Span.nanosPerSecond := Nat.mod_lt _ (by decide)
  rw [ofSpan, part, div_ofNat (Nat.lt_trans below (by decide)) (by decide) (by decide)]

theorem part_le (d : Span) : (part d).magnitude ≤ (ofNat 1).magnitude := by
  have below : d.subsecond ≤ Span.nanosPerSecond := Nat.le_of_lt (Nat.mod_lt _ (by decide))
  have whole := @roundMagnitude_mul_right one 1 Span.nanosPerSecond (by decide)
  rw [Nat.mul_comm, Nat.one_mul] at whole
  show roundMagnitude _ _ ≤ roundMagnitude _ _
  rw [Nat.one_mul, ← whole]
  exact roundMagnitude_mono (by decide) (Nat.mul_le_mul_right one below)

theorem part_short (d : Span) : (part d).isFinite = true ∧ (part d).units ≤ one := by
  refine ⟨decide_eq_true (Nat.lt_of_le_of_lt (part_le d) (by decide +kernel)), ?_⟩
  have units := units_mono (part_le d)
  rw [(ofNat_short (by decide)).2] at units
  omega

theorem orderKey_ofSpan {d : Span} (finite : (ofNat d.seconds).isFinite = true) :
    (ofSpan d).orderKey =
      (nearest ((ofNat d.seconds).signedUnits + (part d).units)).orderKey := by
  rw [ofSpan_eq, orderKey_add finite (part_short d).1]
  rfl

theorem ofSpan_le {d : Span} {k : Nat} (h : d ≤ Span.ofSeconds k) (short : k < 2 * fractionSize) :
    (ofSpan d).isFinite = true ∧ (ofSpan d).signedUnits ≤ (k * one : Nat) := by
  have nanos : d.nanos ≤ k * Span.nanosPerSecond := h
  have parts := Nat.div_add_mod d.nanos Span.nanosPerSecond
  have below : d.seconds ≤ k := Nat.div_le_of_le_mul (by rwa [Nat.mul_comm])
  obtain ⟨finite, units⟩ := ofNat_short (Nat.lt_of_le_of_lt below short)
  have sum : d.seconds * one + (part d).units ≤ k * one := by
    rcases Nat.eq_or_lt_of_le below with same | less
    · have none : d.subsecond = 0 := by
        rw [Span.seconds] at same
        rw [same, Nat.mul_comm] at parts
        rw [Span.subsecond]
        omega
      have empty : (part d).units = 0 := units_zero <| by
        simp [part, none, round, roundMagnitude, divEven]
      exact Nat.le_of_eq (by rw [same, empty, Nat.add_zero])
    · have next : (d.seconds + 1) * one ≤ k * one := Nat.mul_le_mul_right _ less
      have short := (part_short d).2
      rw [Nat.succ_mul] at next
      omega
  have key := orderKey_ofSpan finite
  rw [signedUnits_ofNat (Nat.lt_of_le_of_lt below short)] at key
  have least : 0 ≤ (ofSpan d).orderKey := by
    rw [key]
    exact nearest_mono (s := 0) (by omega)
  have most : (ofSpan d).orderKey ≤ (ofNat k).orderKey := by
    rw [key, ← nearest_ofNat]
    exact nearest_mono (by omega)
  refine ⟨finite_of_between least most (ofNat_short short).1, ?_⟩
  rw [← signedUnits_ofNat short]
  exact signedUnits_mono most

/-- Units in the part of a second of which `2 ^ 20` make up one. -/
def micro : Nat := Nat.pow 2 1054

theorem micro_eq : micro = Nat.pow 2 1054 := by decide +kernel

theorem one_eq_micro : one = 1048576 * micro := by decide +kernel

theorem micro_pos : 0 < micro := by decide +kernel

theorem micro_le_part {d : Span} (h : 954 ≤ d.subsecond) : micro ≤ (part d).units := by
  have whole := (round_short false (m := 1) (by decide) micro_eq (by decide) (by decide)).2
  have scaled := @roundMagnitude_mul_right micro 1 Span.nanosPerSecond (by decide)
  rw [Nat.one_mul] at whole scaled
  refine Nat.le_trans (Nat.le_of_eq whole.symm) (units_mono ?_)
  show roundMagnitude micro 1 ≤ roundMagnitude (d.subsecond * one) Span.nanosPerSecond
  rw [← scaled]
  refine roundMagnitude_mono (by decide) ?_
  rw [one_eq_micro, ← Nat.mul_assoc, Nat.mul_comm micro]
  refine Nat.mul_le_mul_right micro (Nat.le_trans ?_ (Nat.mul_le_mul_right _ h))
  decide

theorem isFinite_ofSpan {d : Span} (bounded : d.seconds < UInt64.size) :
    (ofNat d.seconds).isFinite = true ∧ (ofSpan d).isFinite = true := by
  have seconds := orderKey_ofNat_mono (Nat.le_of_lt bounded)
  have finite : (ofNat d.seconds).isFinite = true :=
    finite_of_between (Int.natCast_nonneg _) seconds (by decide +kernel)
  have least : 0 ≤ (ofNat d.seconds).signedUnits := Int.natCast_nonneg _
  refine ⟨finite, finite_of_between (y := nearest ((ofNat UInt64.size).signedUnits + one)) ?_ ?_
    (by decide +kernel)⟩
  · rw [orderKey_ofSpan finite]
    exact nearest_mono (s := 0) (by omega)
  · have part := (part_short d).2
    have most := signedUnits_mono seconds
    rw [orderKey_ofSpan finite]
    exact nearest_mono (by omega)

/-- A span of a little more than `k` seconds still is more than that when rounded. -/
theorem le_ofSpan {d : Span} {k : Nat} (h : k * Span.nanosPerSecond + 954 ≤ d.nanos)
    (short : k * 1048576 + 1 < 2 * fractionSize) (bounded : d.seconds < UInt64.size) :
    (ofSpan d).isFinite = true ∧
      (((k * 1048576 + 1) * micro : Nat) : Int) ≤ (ofSpan d).signedUnits := by
  have parts := Nat.div_add_mod d.nanos Span.nanosPerSecond
  have below : k ≤ d.seconds := (Nat.le_div_iff_mul_le (by decide)).mpr (by omega)
  obtain ⟨finite, finite_span⟩ := isFinite_ofSpan bounded
  have key := orderKey_ofSpan finite
  obtain ⟨-, exact⟩ := nearest_short (m := (k * 1048576 + 1 : Nat)) (by omega) micro_eq
    (by decide) (by decide)
  have sum : (((k * 1048576 + 1) * micro : Nat) : Int) ≤
      (ofNat d.seconds).signedUnits + (part d).units := by
    have size : fractionSize = 4503599627370496 := rfl
    rcases Nat.eq_or_lt_of_le below with same | less
    · have rest : micro ≤ (part d).units := micro_le_part <| by
        rw [Span.seconds] at same
        rw [← same, Nat.mul_comm] at parts
        rw [Span.subsecond]
        omega
      rw [← same, signedUnits_ofNat (by omega), one_eq_micro, ← Nat.mul_assoc, Nat.add_mul,
        Nat.one_mul, Int.natCast_add]
      exact Int.add_le_add_left (Int.ofNat_le.mpr rest) _
    · have next := signedUnits_mono (orderKey_ofNat_mono less)
      have fits : (k * 1048576 + 1) * micro ≤ (k + 1) * 1048576 * micro :=
        Nat.mul_le_mul_right micro (by omega)
      rw [signedUnits_ofNat (by omega), one_eq_micro, ← Nat.mul_assoc] at next
      exact Int.le_trans (Int.ofNat_le.mpr fits)
        (Int.le_trans next (Int.le_add_of_nonneg_right (Int.natCast_nonneg _)))
  refine ⟨finite_span, ?_⟩
  rw [Int.natCast_mul, ← exact]
  exact signedUnits_mono (Int.le_trans (nearest_mono sum) (Int.le_of_eq key.symm))

end ReliableQueue.Binary64
