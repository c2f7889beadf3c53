import ReliableQueue.Proofs.Store.Contents

/-!
What a range query finds: every member of a sorted set with a score up to the bound, once, by
score and then by member.
-/

namespace ReliableQueue

theorem Table.get?_eq_some_iff {α : Type} {t : Table α} {k : String} {v : α} :
    t.get? k = some v ↔ (k, v) ∈ t.entries := by
  obtain ⟨es, distinct⟩ := t
  show es.lookup k = some v ↔ (k, v) ∈ es
  induction es with
  | nil => simp
  | cons e rest ih =>
      obtain ⟨j, w⟩ := e
      simp only [List.map_cons, List.nodup_cons] at distinct
      rw [List.lookup_cons]
      rcases Decidable.em (k = j) with rfl | apart
      · -- The key is that of the first entry and of no other one.
        have once : (k, v) ∉ rest := fun hm => distinct.1 (List.mem_map_of_mem hm)
        simp [once, eq_comm]
      · have other : (k == j) = false := by simpa using apart
        simp [other, ih distinct.2, apart]

namespace Store.Contents

theorem rangeOrder_iff (a b : String × Binary64) : rangeOrder a b = true ↔
    a.2.totalKey < b.2.totalKey ∨ a.2.totalKey = b.2.totalKey ∧ a.1 ≤ b.1 := by
  simp [rangeOrder]

theorem rangeOrder_trans (a b c : String × Binary64) (ab : rangeOrder a b = true)
    (bc : rangeOrder b c = true) : rangeOrder a c = true := by
  rw [rangeOrder_iff] at ab bc ⊢
  rcases ab with ab | ⟨ab, low⟩
  · exact .inl (by omega)
  · rcases bc with bc | ⟨bc, high⟩
    · exact .inl (by omega)
    · exact .inr ⟨ab.trans bc, String.le_trans low high⟩

theorem rangeOrder_total (a b : String × Binary64) :
    (rangeOrder a b || rangeOrder b a) = true := by
  rw [Bool.or_eq_true, rangeOrder_iff, rangeOrder_iff]
  rcases Int.lt_trichotomy a.2.totalKey b.2.totalKey with low | same | high
  · exact .inl (.inl low)
  · exact (String.le_total a.1 b.1).imp (fun le => .inr ⟨same, le⟩) fun le => .inr ⟨same.symm, le⟩
  · exact .inr (.inl high)

/-- Both are members of a sorted set, and `x` comes before `y`: by score, then by member. Of
two zeros the negative one is the lower score. -/
def Before (c : Contents) (key x y : String) : Prop :=
  ∃ s t, c.score? key x = some s ∧ c.score? key y = some t ∧
    (s.totalKey < t.totalKey ∨ s.totalKey = t.totalKey ∧ x < y)

/-- The members of a sorted set with a score up to `max`, in order. -/
structure IsRange (c : Contents) (key : String) (max : Binary64) (ids : List String) : Prop where
  mem : ∀ x, x ∈ ids ↔ ∃ s, c.score? key x = some s ∧ s.le max = true
  ordered : ids.Pairwise (c.Before key)

theorem IsRange.nodup {c : Contents} {key : String} {max : Binary64} {ids : List String}
    (h : c.IsRange key max ids) : ids.Nodup := by
  refine h.ordered.imp fun {x y} before same => ?_
  obtain ⟨s, t, hs, ht, order⟩ := before
  subst same
  obtain rfl := Option.some.inj (hs.symm.trans ht)
  rcases order with less | ⟨-, less⟩
  · exact Int.lt_irrefl _ less
  · exact String.lt_irrefl x less

theorem isRange_range (c : Contents) (key : String) (max : Binary64) :
    c.IsRange key max (c.range key max) where
  mem x := by
    simp only [range, rangeUpTo, List.mem_map, List.mem_mergeSort, List.mem_filter]
    constructor
    · rintro ⟨⟨y, s⟩, ⟨entry, low⟩, rfl⟩
      exact ⟨s, Table.get?_eq_some_iff.mpr entry, low⟩
    · rintro ⟨s, score, low⟩
      exact ⟨(x, s), ⟨Table.get?_eq_some_iff.mp score, low⟩, rfl⟩
  ordered := by
    have entries (e : String × Binary64) (he : e ∈ ((c.sortedSet key).entries.filter
        fun e => e.2.le max).mergeSort rangeOrder) : c.score? key e.1 = some e.2 :=
      Table.get?_eq_some_iff.mpr (List.mem_filter.mp (List.mem_mergeSort.mp he)).1
    have distinct : (((c.sortedSet key).entries.filter fun e => e.2.le max).mergeSort
        rangeOrder).Pairwise fun a b => a.1 ≠ b.1 := by
      have filtered := List.pairwise_map.mp (c.sortedSet key).distinct
      exact (List.Pairwise.filter _ filtered).perm (List.mergeSort_perm _ _).symm fun h => h.symm
    refine List.pairwise_map.mpr (List.Pairwise.imp_of_mem (fun {a b} ha hb h => ?_)
      ((List.pairwise_mergeSort rangeOrder_trans rangeOrder_total _).and distinct))
    refine ⟨a.2, b.2, entries a ha, entries b hb, ?_⟩
    rcases (rangeOrder_iff a b).mp h.1 with less | ⟨same, le⟩
    · exact .inl less
    · refine .inr ⟨same, Classical.not_not.mp fun no => h.2 ?_⟩
      exact String.le_antisymm le (String.not_lt.mp no)

end Store.Contents

end ReliableQueue
