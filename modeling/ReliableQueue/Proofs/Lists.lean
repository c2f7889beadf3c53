import Mathlib.Algebra.GroupWithZero.Nat

/-!
Lists of which one element is replaced, and what `flatMap` and `filter` make of lists.
-/

namespace ReliableQueue

variable {α β : Type}

theorem getElem?_set_cases {l : List α} {i j : Nat} {a b : α} (h : (l.set i a)[j]? = some b) :
    (j = i ∧ b = a) ∨ (j ≠ i ∧ l[j]? = some b) := by
  rcases Decidable.em (j = i) with rfl | apart
  · obtain ⟨hj, rfl⟩ := List.getElem?_eq_some_iff.mp h
    exact .inl ⟨rfl, List.getElem_set_self hj⟩
  · rw [List.getElem?_set_ne (Ne.symm apart)] at h
    exact .inr ⟨apart, h⟩

theorem getElem?_concat_cases {l : List α} {j : Nat} {a b : α} (h : (l ++ [a])[j]? = some b) :
    (j = l.length ∧ b = a) ∨ l[j]? = some b := by
  rcases Nat.lt_or_ge j l.length with short | long
  · rw [List.getElem?_append_left short] at h
    exact .inr h
  · rw [List.getElem?_append_right long, List.getElem?_singleton] at h
    split at h
    · next last =>
        cases h
        exact .inl ⟨by omega, rfl⟩
    · cases h

theorem getElem?_concat_of {l : List α} {j : Nat} {b : α} (h : l[j]? = some b) (a : α) :
    (l ++ [a])[j]? = some b := by
  obtain ⟨hj, -⟩ := List.getElem?_eq_some_iff.mp h
  rw [List.getElem?_append_left hj, h]

theorem getElem?_concat_other {l : List α} {j : Nat} (other : l.length ≠ j) (a : α) :
    (l ++ [a])[j]? = l[j]? := by
  rw [List.getElem?_append, List.getElem?_singleton]
  split
  · rfl
  · rw [if_neg (by omega), List.getElem?_eq_none (by omega)]

theorem modify_of_getElem? {l : List α} {i : Nat} {a : α} (h : l[i]? = some a) (f : α → α) :
    l.modify i f = l.set i (f a) := by
  obtain ⟨hi, rfl⟩ := List.getElem?_eq_some_iff.mp h
  refine List.ext_getElem? fun j => ?_
  rw [List.getElem?_modify, List.getElem?_set]
  split
  · next same =>
      subst same
      simp [hi]
  · simp

theorem flatMap_set {l : List α} {i : Nat} {a : α} (h : l[i]? = some a) (b : α)
    (f : α → List β) :
    ∃ before after, l.flatMap f = before ++ f a ++ after ∧
      (l.set i b).flatMap f = before ++ f b ++ after := by
  obtain ⟨hi, rfl⟩ := List.getElem?_eq_some_iff.mp h
  have hl : l = l.take i ++ l[i] :: l.drop (i + 1) := by
    rw [← List.drop_eq_getElem_cons hi, List.take_append_drop]
  refine ⟨(l.take i).flatMap f, (l.drop (i + 1)).flatMap f, ?_, ?_⟩
  · calc
      l.flatMap f = (l.take i ++ l[i] :: l.drop (i + 1)).flatMap f := by rw [← hl]
      _ = _ := by simp only [List.flatMap_append, List.flatMap_cons, List.append_assoc]
  · rw [List.set_eq_take_append_cons_drop, if_pos hi]
    simp only [List.flatMap_append, List.flatMap_cons, List.append_assoc]

theorem flatMap_set_of_eq {l : List α} {i : Nat} {a b : α} {f : α → List β}
    (h : l[i]? = some a) (hf : f b = f a) : (l.set i b).flatMap f = l.flatMap f := by
  obtain ⟨before, after, hl, hs⟩ := flatMap_set h b f
  rw [hl, hs, hf]

/-- Where `f` reads nothing from all elements but one, it reads what it does from that one. -/
theorem flatMap_of_only {l : List α} {i : Nat} {a : α} {f : α → List β} (h : l[i]? = some a)
    (others : ∀ j b, j ≠ i → l[j]? = some b → f b = []) : l.flatMap f = f a := by
  induction l generalizing i with
  | nil => cases h
  | cons c rest ih =>
      cases i with
      | zero =>
          cases h
          have none : rest.flatMap f = [] := List.flatMap_eq_nil_iff.mpr fun b hb => by
            obtain ⟨j, hj⟩ := List.getElem?_of_mem hb
            exact others (j + 1) b (Nat.succ_ne_zero j) hj
          rw [List.flatMap_cons, none, List.append_nil]
      | succ i =>
          have first : f c = [] := others 0 c (Nat.succ_ne_zero i).symm rfl
          rw [List.flatMap_cons, first, List.nil_append]
          exact ih h fun j b hj hb => others (j + 1) b (fun same => hj (Nat.succ.inj same)) hb

theorem flatMap_filter (l : List α) (p : α → Bool) (f : α → List β) :
    (l.filter p).flatMap f = l.flatMap fun a => if p a then f a else [] := by
  induction l with
  | nil => rfl
  | cons a rest ih =>
      rw [List.filter_cons, List.flatMap_cons, ← ih]
      split <;> rfl

theorem length_flatMap_le {l : List α} {f : α → List β} (one : ∀ a ∈ l, (f a).length ≤ 1) :
    (l.flatMap f).length ≤ l.length := by
  induction l with
  | nil => exact Nat.le_refl 0
  | cons a rest ih =>
      have first := one a List.mem_cons_self
      have others := ih fun b hb => one b (List.mem_cons_of_mem a hb)
      rw [List.flatMap_cons, List.length_append, List.length_cons]
      omega

theorem count_flatMap_set [BEq β] {l : List α} {i : Nat} {a : α} (h : l[i]? = some a) (b : α)
    (f : α → List β) (x : β) :
    ((l.set i b).flatMap f).count x + (f a).count x =
      (l.flatMap f).count x + (f b).count x := by
  obtain ⟨before, after, hl, hs⟩ := flatMap_set h b f
  rw [hl, hs]
  simp only [List.count_append]
  omega

theorem count_flatMap_add [BEq β] {l : List α} {f g h : α → List β} {x : β}
    (hf : ∀ a, (f a).count x = (g a).count x + (h a).count x) :
    (l.flatMap f).count x = (l.flatMap g).count x + (l.flatMap h).count x := by
  induction l with
  | nil => rfl
  | cons a rest ih =>
      simp only [List.flatMap_cons, List.count_append, hf, ih]
      omega

theorem countP_flatMap_set {l : List α} {i : Nat} {a : α} (h : l[i]? = some a) (b : α)
    (f : α → List β) (p : β → Bool) :
    ((l.set i b).flatMap f).countP p + (f a).countP p =
      (l.flatMap f).countP p + (f b).countP p := by
  obtain ⟨before, after, hl, hs⟩ := flatMap_set h b f
  rw [hl, hs]
  simp only [List.countP_append]
  omega

/-- Something else is put in a place of a list. -/
theorem count_set_le [BEq α] [LawfulBEq α] {l : List α} {i : Nat} {a b : α} (other : b ≠ a) :
    (l.set i b).count a ≤ l.count a := by
  rcases Nat.lt_or_ge i l.length with hi | hi
  · rw [List.count_set hi, if_neg (show ¬(b == a) = true by simpa using other), Nat.add_zero]
    exact Nat.sub_le _ _
  · exact Nat.le_of_eq (by rw [List.set_eq_of_length_le hi])

theorem count_set_lt [BEq α] [LawfulBEq α] {l : List α} {i : Nat} {a b : α} (h : l[i]? = some a)
    (other : b ≠ a) : (l.set i b).count a < l.count a := by
  obtain ⟨hi, rfl⟩ := List.getElem?_eq_some_iff.mp h
  have some : 0 < l.count l[i] := List.count_pos_iff.mpr (List.getElem_mem hi)
  rw [List.count_set hi, if_pos (by simp), if_neg (show ¬(b == l[i]) = true by simpa using other)]
  omega

theorem sum_map_set {l : List α} {i : Nat} {a : α} (h : l[i]? = some a) (b : α) (f : α → Nat) :
    ((l.set i b).map f).sum + f a = (l.map f).sum + f b := by
  induction l generalizing i with
  | nil => cases h
  | cons c rest ih =>
      cases i with
      | zero =>
          cases h
          simp only [List.set_cons_zero, List.map_cons, List.sum_cons]
          omega
      | succ i =>
          have := ih (i := i) h
          simp only [List.set_cons_succ, List.map_cons, List.sum_cons]
          omega

/-- What is kept of a list is its beginning if nothing is kept after something that is not. -/
theorem filter_prefix_of_pairwise {l : List α} {p : α → Bool}
    (h : l.Pairwise fun a b => p b = true → p a = true) : l.filter p <+: l := by
  induction l with
  | nil => exact List.prefix_rfl
  | cons a rest ih =>
      obtain ⟨first, later⟩ := List.pairwise_cons.mp h
      rcases Decidable.em (p a = true) with kept | not_kept
      · rw [List.filter_cons_of_pos kept]
        exact (List.prefix_cons_inj a).mpr (ih later)
      · have none_kept : (a :: rest).filter p = [] := by
          rw [List.filter_cons_of_neg not_kept]
          exact List.filter_eq_nil_iff.mpr fun b hb kept => not_kept (first b hb kept)
        rw [none_kept]
        exact List.nil_prefix

end ReliableQueue
