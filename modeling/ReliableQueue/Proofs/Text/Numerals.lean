import ReliableQueue.Text.Numeral

/-!
Whole numbers that are read and written again. The digits come back as they were exactly if no zero
stands in front of them, and the number with its sign if that is none but a minus sign in front of
something other than zero.
-/

namespace ReliableQueue.Text

variable {c : Char} {ds : List Char} {s : String} {i : Int} {n : Nat}

theorem toNat_of_isDigit (h : isDigit c = true) : 48 ≤ c.toNat ∧ c.toNat ≤ 57 := by
  simp only [isDigit, Bool.and_eq_true, decide_eq_true_eq] at h
  exact h

theorem digitChar_of_isDigit (h : isDigit c = true) : Nat.digitChar (c.toNat - 48) = c := by
  have bounds := toNat_of_isDigit h
  apply Char.toNat_inj.mp
  rw [Nat.toNat_digitChar_of_lt_ten (by omega)]
  omega

/-- Digits after those of a number that is not zero go on with it. -/
theorem toDigits_foldl (digits : ∀ d ∈ ds, isDigit d = true) (pos : 0 < n) :
    Nat.toDigits 10 (ds.foldl (fun n c => n * 10 + (c.toNat - 48)) n) = Nat.toDigits 10 n ++ ds := by
  induction ds generalizing n with
  | nil => rw [List.foldl_nil, List.append_nil]
  | cons c rest ih =>
      obtain ⟨first, others⟩ := List.forall_mem_cons.mp digits
      have bounds := toNat_of_isDigit first
      have small : c.toNat - 48 < 10 := by omega
      have step : Nat.toDigits 10 (n * 10 + (c.toNat - 48)) = Nat.toDigits 10 n ++ [c] := by
        rw [Nat.mul_comm, ← Nat.toDigits_append_toDigits (by omega) pos small,
          Nat.toDigits_of_lt_base small, digitChar_of_isDigit first]
      rw [List.foldl_cons, ih others (by omega), step, List.append_assoc]
      rfl

/-- Digits that start with another one than zero are those of their value. -/
theorem toDigits_digitsValue (digits : ∀ d ∈ c :: ds, isDigit d = true) (first : c ≠ '0') :
    Nat.toDigits 10 (digitsValue (c :: ds)) = c :: ds := by
  obtain ⟨digit, others⟩ := List.forall_mem_cons.mp digits
  have bounds := toNat_of_isDigit digit
  have other : c.toNat ≠ 48 := fun same => first (Char.toNat_inj.mp same)
  have value : digitsValue (c :: ds) =
      ds.foldl (fun n c => n * 10 + (c.toNat - 48)) (c.toNat - 48) := by
    rw [digitsValue, List.foldl_cons, Nat.zero_mul, Nat.zero_add]
    rfl
  rw [value, toDigits_foldl others (by omega), Nat.toDigits_of_lt_base (by omega),
    digitChar_of_isDigit digit]
  rfl

theorem length_toDigits_digitsValue (digits : ∀ d ∈ ds, isDigit d = true) (some : ds ≠ []) :
    (Nat.toDigits 10 (digitsValue ds)).length ≤ ds.length := by
  induction ds with
  | nil => exact absurd rfl some
  | cons c rest ih =>
      rcases Decidable.em (c = '0') with rfl | other
      · cases rest with
        | nil => decide
        | cons d rest =>
            have fewer := ih (List.forall_mem_cons.mp digits).2 (List.cons_ne_nil d rest)
            exact Nat.le_succ_of_le fewer
      · exact Nat.le_of_eq (congrArg List.length (toDigits_digitsValue digits other))

/-- Whether no zero stands in front of digits. -/
def isShort (ds : List Char) : Bool := ds = ['0'] || ds.head? ≠ some '0'

theorem toDigits_digitsValue_iff (digits : ∀ d ∈ ds, isDigit d = true) (some : ds ≠ []) :
    Nat.toDigits 10 (digitsValue ds) = ds ↔ isShort ds = true := by
  cases ds with
  | nil => exact absurd rfl some
  | cons c rest =>
      rcases Decidable.em (c = '0') with rfl | other
      · cases rest with
        | nil => decide
        | cons d rest =>
            refine iff_of_false (fun same => ?_) (by simp [isShort])
            have fewer := length_toDigits_digitsValue (List.forall_mem_cons.mp digits).2
              (List.cons_ne_nil d rest)
            have value : digitsValue ('0' :: d :: rest) = digitsValue (d :: rest) := rfl
            rw [value] at same
            rw [same] at fewer
            exact absurd fewer (Nat.not_succ_le_self _)
      · exact iff_of_true (toDigits_digitsValue digits other) (by simp [isShort, other])

/-- Whether a whole number is written as it is printed. -/
def isCanonical : List Char → Bool
  | '+' :: _ => false
  | '-' :: ds => isShort ds && ds ≠ ['0']
  | ds => isShort ds

theorem natOfDigits?_eq_some (h : natOfDigits? ds = some n) :
    ds ≠ [] ∧ (∀ d ∈ ds, isDigit d = true) ∧ digitsValue ds = n := by
  unfold natOfDigits? at h
  split at h
  · cases h
  · next proper =>
      simp only [Bool.or_eq_true, not_or, List.isEmpty_iff, Bool.not_eq_true', Bool.not_eq_false,
        List.all_eq_true] at proper
      exact ⟨proper.1, proper.2, Option.some.inj h⟩

theorem toList_toString (n : Nat) : (toString n).toList = Nat.toDigits 10 n := by
  rw [Nat.toString_eq_repr, Nat.toList_repr]

/-- No number is written with a sign in front and as many digits. -/
theorem toDigits_ne_cons (digits : ∀ d ∈ ds, isDigit d = true) (some : ds ≠ []) (sign : Char) :
    Nat.toDigits 10 (digitsValue ds) ≠ sign :: ds := by
  intro same
  have fewer := length_toDigits_digitsValue digits some
  rw [same] at fewer
  exact absurd fewer (Nat.not_succ_le_self _)

/-- A minus sign is printed in front of what is not zero. -/
theorem toList_toString_neg (digits : ∀ d ∈ ds, isDigit d = true) (some : ds ≠ []) :
    (toString (-(digitsValue ds : Int))).toList = '-' :: ds ↔
      isShort ds = true ∧ ds ≠ ['0'] := by
  have written := toDigits_digitsValue_iff digits some
  cases value : digitsValue ds with
  | zero =>
      rw [value, Nat.toDigits_zero] at written
      refine iff_of_false (fun same => ?_) fun both => both.2 (written.mpr both.1).symm
      have zero : ['0'] = '-' :: ds := same
      cases zero
  | succ m =>
      have printed : (toString (-((m + 1 : Nat) : Int))).toList =
          '-' :: Nat.toDigits 10 (m + 1) := by
        rw [show toString (-((m + 1 : Nat) : Int)) = "-" ++ toString (m + 1) from rfl,
          String.toList_append, toList_toString]
        rfl
      have other : ds ≠ ['0'] := by
        rintro rfl
        cases value
      rw [printed, List.cons.injEq, ← value, written]
      simp [other]

/-- A whole number is printed as it was written exactly if it was written so. -/
theorem toString_int64_iff (h : int64? s = some i) :
    toString i = s ↔ isCanonical s.toList = true := by
  obtain ⟨h, -⟩ := Option.filter_eq_some_iff.mp h
  rw [← String.toList_inj]
  split at h
  · next ds written =>
      obtain ⟨n, value, rfl⟩ := Option.map_eq_some_iff.mp h
      obtain ⟨some, digits, rfl⟩ := natOfDigits?_eq_some value
      rw [written]
      exact iff_of_false (fun same => toDigits_ne_cons digits some '+'
        ((toList_toString _).symm.trans same)) (by simp [isCanonical])
  · next ds written =>
      obtain ⟨_, whole, rfl⟩ := Option.map_eq_some_iff.mp h
      obtain ⟨n, value, ⟨⟩⟩ := Option.bind_eq_some_iff.mp whole
      obtain ⟨some, digits, rfl⟩ := natOfDigits?_eq_some value
      rw [written]
      refine (toList_toString_neg digits some).trans ?_
      simp [isCanonical]
  · next plus minus =>
      obtain ⟨n, value, rfl⟩ := Option.map_eq_some_iff.mp h
      obtain ⟨some, digits, rfl⟩ := natOfDigits?_eq_some value
      have plain : isCanonical s.toList = isShort s.toList := by
        unfold isCanonical
        split
        · next ds signed => exact absurd signed (plus ds)
        · next ds signed => exact absurd signed (minus ds)
        · rfl
      rw [plain, ← toDigits_digitsValue_iff digits some, ← toList_toString]
      rfl

end ReliableQueue.Text
