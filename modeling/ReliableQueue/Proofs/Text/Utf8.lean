import ReliableQueue.Text.Utf8

/-!
Texts are ordered as their bytes are. The bytes of a character are never the beginning of those of
another one, and a later character has greater bytes; so the first character in which two texts
differ decides how their bytes compare.
-/

namespace ReliableQueue.Text

variable {l m : Bytes} {v w : Nat}

/-- The bytes of a text in UTF-8. -/
def bytes (s : String) : Bytes := s.toUTF8.data.toList

theorem bytes_eq (s : String) : bytes s = bytesOfChars s.toList := by
  have encoded : s.toByteArray = s.toList.utf8Encode := by
    rw [← String.toByteArray_ofList, String.ofList_toList]
  rw [bytes, String.toUTF8_eq_toByteArray, encoded]
  exact List.toList_data_toByteArray

/-! ### Characters -/

/-- The bytes `l` are less than `m`, whatever follows either. -/
def Under (l m : Bytes) : Prop := ∀ x y, l ++ x < m ++ y

theorem under_cons {a b : UInt8} (less : a < b) (l m : Bytes) : Under (a :: l) (b :: m) :=
  fun _ _ => List.cons_lt_cons_iff.mpr (.inl less)

theorem Under.append (h : Under l m) (x y : Bytes) : Under (l ++ x) (m ++ y) := by
  intro x' y'
  rw [List.append_assoc, List.append_assoc]
  exact h (x ++ x') (y ++ y')

theorem under_append_left (l : Bytes) {x y : Bytes} (h : Under x y) :
    Under (l ++ x) (l ++ y) := by
  intro x' y'
  rw [List.append_assoc, List.append_assoc]
  exact List.append_left_lt (h x' y')

theorem ofNat_lt {a b : Nat} (less : a < b) (small : b < 256) : UInt8.ofNat a < UInt8.ofNat b := by
  rw [UInt8.lt_iff_toNat_lt, UInt8.toNat_ofNat_of_lt' (Nat.lt_trans less small),
    UInt8.toNat_ofNat_of_lt' small]
  exact less

/-- The byte with the last six bits of a number. -/
def continuing (v : Nat) : UInt8 := .ofNat (v % 64 + 128)

/-- Bytes in the order of all but the last six bits of a number can be continued with these. -/
theorem under_continuing {f : Nat → Bytes} (less : v < w)
    (mono : v / 64 < w / 64 → Under (f (v / 64)) (f (w / 64))) :
    Under (f (v / 64) ++ [continuing v]) (f (w / 64) ++ [continuing w]) := by
  rcases Nat.lt_or_ge (v / 64) (w / 64) with before | not_before
  · exact (mono before).append _ _
  · have same : v / 64 = w / 64 := by omega
    have last : v % 64 + 128 < w % 64 + 128 := by omega
    rw [same]
    exact under_append_left _ (under_cons (ofNat_lt last (by omega)) [] [])

/-- What the bytes of a character with the code `v` are. -/
inductive Encodes : Nat → Bytes → Prop where
  | one {v : Nat} (high : v < 128) : Encodes v [.ofNat v]
  | two {v : Nat} (low : 128 ≤ v) (high : v < 2048) :
      Encodes v ([.ofNat (v / 64 + 192)] ++ [continuing v])
  | three {v : Nat} (low : 2048 ≤ v) (high : v < 65536) :
      Encodes v ([.ofNat (v / 64 / 64 + 224)] ++ [continuing (v / 64)] ++ [continuing v])
  | four {v : Nat} (low : 65536 ≤ v) (high : v < 1114112) :
      Encodes v ([.ofNat (v / 64 / 64 / 64 + 240)] ++ [continuing (v / 64 / 64)] ++
        [continuing (v / 64)] ++ [continuing v])

theorem encodes (c : Char) : Encodes c.val.toNat (String.utf8EncodeChar c) := by
  have valid : c.val.toNat < 1114112 := by
    rcases c.valid with low | high <;> omega
  have twice : c.val.toNat / 4096 = c.val.toNat / 64 / 64 := by omega
  have thrice : c.val.toNat / 262144 = c.val.toNat / 64 / 64 / 64 := by omega
  simp only [String.utf8EncodeChar, twice, thrice]
  split
  · exact .one (by omega)
  · split
    · rw [Nat.mod_eq_of_lt (b := 32) (by omega)]
      exact .two (by omega) (by omega)
    · split
      · rw [Nat.mod_eq_of_lt (b := 16) (by omega)]
        exact .three (by omega) (by omega)
      · rw [Nat.mod_eq_of_lt (b := 8) (by omega)]
        exact .four (by omega) valid

theorem Encodes.under (hv : Encodes v l) (hw : Encodes w m) (less : v < w) : Under l m := by
  cases hv with
  | one high =>
      cases hw with
      | one high' => exact under_cons (ofNat_lt less (by omega)) _ _
      | two | three | four => exact under_cons (ofNat_lt (by omega) (by omega)) _ _
  | two low high =>
      cases hw with
      | one => omega
      | two low' high' =>
          exact under_continuing (f := fun n => [.ofNat (n + 192)]) less fun before =>
            under_cons (ofNat_lt (by omega) (by omega)) _ _
      | three | four => exact under_cons (ofNat_lt (by omega) (by omega)) _ _
  | three low high =>
      cases hw with
      | one | two => omega
      | three low' high' =>
          exact under_continuing (f := fun n => [.ofNat (n / 64 + 224)] ++ [continuing n]) less
            fun before => under_continuing (f := fun n => [.ofNat (n + 224)]) before
              fun before => under_cons (ofNat_lt (by omega) (by omega)) _ _
      | four => exact under_cons (ofNat_lt (by omega) (by omega)) _ _
  | four low high =>
      cases hw with
      | one | two | three => omega
      | four low' high' =>
          exact under_continuing
            (f := fun n => [.ofNat (n / 64 / 64 + 240)] ++ [continuing (n / 64)] ++ [continuing n])
            less fun before => under_continuing
              (f := fun n => [.ofNat (n / 64 + 240)] ++ [continuing n]) before
              fun before => under_continuing (f := fun n => [.ofNat (n + 240)]) before
                fun before => under_cons (ofNat_lt (by omega) (by omega)) _ _

theorem under_of_lt {c d : Char} (less : c < d) :
    Under (String.utf8EncodeChar c) (String.utf8EncodeChar d) :=
  (encodes c).under (encodes d) less

/-! ### Texts -/

theorem bytesOfChars_lt {cs ds : List Char} (less : cs < ds) : bytesOfChars cs < bytesOfChars ds := by
  induction less with
  | @nil d ds =>
      obtain ⟨b, rest, eq⟩ := List.exists_cons_of_ne_nil (String.utf8EncodeChar_ne_nil (c := d))
      rw [bytesOfChars, bytesOfChars, List.flatMap_cons, eq]
      exact List.nil_lt_cons _ _
  | rel less => exact under_of_lt less _ _
  | cons _ ih => exact List.append_left_lt ih

theorem bytes_lt_iff {s t : String} : bytes s < bytes t ↔ s < t := by
  rw [bytes_eq, bytes_eq]
  refine ⟨fun less => Decidable.byContradiction fun not_less => ?_, bytesOfChars_lt⟩
  rcases Decidable.em (t < s) with greater | not_greater
  · exact List.lt_asymm less (bytesOfChars_lt greater)
  · obtain rfl := String.le_antisymm (String.not_lt.mp not_greater) (String.not_lt.mp not_less)
    exact List.lt_irrefl _ less

end ReliableQueue.Text
