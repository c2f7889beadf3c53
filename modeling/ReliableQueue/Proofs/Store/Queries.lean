import ReliableQueue.Proofs.Lists
import ReliableQueue.Proofs.Rounding
import ReliableQueue.Proofs.Store.Memory
import ReliableQueue.Proofs.Store.Ranges
import ReliableQueue.Proofs.Text.Utf8

/-!
Range queries. Members are selected by the order of numbers, in which a not-a-number is nowhere and
the zeros are one, and listed by the order of bit patterns, in which everything has its place. Among
the selected ones the two agree, so what is selected by a lower bound comes first; and a list in
order is settled by its members, however the entries of the set were stored.
-/

namespace ReliableQueue

namespace Binary64

variable {x y z : Binary64}

theorem totalKey_inj : x.totalKey = y.totalKey ↔ x = y := by
  refine ⟨fun same => ?_, congrArg totalKey⟩
  obtain ⟨negative, magnitude, _⟩ := x
  obtain ⟨negative', magnitude', _⟩ := y
  simp only [totalKey] at same
  rw [mk.injEq]
  cases negative <;> cases negative' <;>
    simp only [if_true, Bool.false_eq_true, if_false, true_and, reduceCtorEq, false_and] at same ⊢ <;>
    omega

/-- Only the zeros are apart in one order and not in the other. -/
theorem orderKey_le_of_totalKey_le (h : x.totalKey ≤ y.totalKey) : x.orderKey ≤ y.orderKey := by
  cases hx : x.negative <;> cases hy : y.negative <;>
    simp only [totalKey, orderKey, hx, hy, if_true, Bool.false_eq_true, if_false] at h ⊢ <;> omega

theorem isNaN_of_le (h : x.le y = true) : x.isNaN = false := by
  simp only [le, Bool.and_eq_true, Bool.not_eq_true'] at h
  exact h.1.1

/-- What comes before a number up to `z`, and is a number, is one up to `z`. -/
theorem le_of_totalKey_le (hx : x.isNaN = false) (low : x.totalKey ≤ y.totalKey)
    (h : y.le z = true) : x.le z = true :=
  le_trans ((le_iff hx (isNaN_of_le h)).mpr (orderKey_le_of_totalKey_le low)) h

end Binary64

namespace Store

namespace Contents

variable {c c' : Contents} {key x y : String} {max max' : Binary64} {ids ids' : List String}

theorem Before.asymm (h : c.Before key x y) : ¬c.Before key y x := by
  obtain ⟨s, t, hs, ht, order⟩ := h
  rintro ⟨t', s', ht', hs', order'⟩
  obtain rfl := Option.some.inj (hs.symm.trans hs')
  obtain rfl := Option.some.inj (ht.symm.trans ht')
  rcases order with less | ⟨same, less⟩
  · omega
  · rcases order' with less' | ⟨-, less'⟩
    · omega
    · exact String.lt_asymm less less'

theorem IsRange.unique (h : c.IsRange key max ids) (h' : c.IsRange key max ids') : ids = ids' := by
  have same : ids.Perm ids' :=
    (List.perm_ext_iff_of_nodup h.nodup h'.nodup).mpr fun x => (h.mem x).trans (h'.mem x).symm
  exact same.eq_of_pairwise (fun _ _ _ _ before after => absurd after before.asymm)
    h.ordered h'.ordered

/-- A range is settled by the scores. -/
theorem IsRange.congr (h : c.IsRange key max ids) (same : ∀ x, c'.score? key x = c.score? key x) :
    c'.IsRange key max ids where
  mem x := by
    rw [same]
    exact h.mem x
  ordered := by
    refine h.ordered.imp fun before => ?_
    simpa only [Before, same] using before

theorem score?_of_perm (h : (c'.sortedSet key).entries.Perm (c.sortedSet key).entries)
    (x : String) : c'.score? key x = c.score? key x := by
  refine Option.ext fun s => ?_
  rw [score?, score?, Table.get?_eq_some_iff, Table.get?_eq_some_iff]
  exact h.mem_iff

theorem range_of_perm (h : (c'.sortedSet key).entries.Perm (c.sortedSet key).entries)
    (max : Binary64) : c'.range key max = c.range key max :=
  (c'.isRange_range key max).unique ((c.isRange_range key max).congr (score?_of_perm h))

/-- Whether a member has a score up to `max`. -/
def within (c : Contents) (key : String) (max : Binary64) (x : String) : Bool :=
  (c.score? key x).any (·.le max)

theorem within_iff : c.within key max x = true ↔ ∃ s, c.score? key x = some s ∧ s.le max = true := by
  rw [within, Option.any_eq_true]

theorem IsRange.filter (h : c.IsRange key max' ids) (le : max.le max' = true) :
    c.IsRange key max (ids.filter (c.within key max)) where
  mem x := by
    rw [List.mem_filter, within_iff, h.mem]
    refine ⟨And.right, fun low => ⟨?_, low⟩⟩
    obtain ⟨s, score, low⟩ := low
    exact ⟨s, score, Binary64.le_trans low le⟩
  ordered := h.ordered.filter _

/-- A range up to a lower bound is the beginning of one up to a higher bound. -/
theorem IsRange.isPrefix (h : c.IsRange key max ids) (h' : c.IsRange key max' ids')
    (le : max.le max' = true) : ids <+: ids' := by
  rw [h.unique (h'.filter le)]
  refine filter_prefix_of_pairwise (h'.ordered.imp_of_mem fun {x y} hx _ before low => ?_)
  obtain ⟨s, t, hs, ht, order⟩ := before
  obtain ⟨s', hs', number⟩ := (h'.mem x).mp hx
  obtain ⟨t', ht', low⟩ := within_iff.mp low
  obtain rfl := Option.some.inj (hs.symm.trans hs')
  obtain rfl := Option.some.inj (ht.symm.trans ht')
  have before : s.totalKey ≤ t.totalKey := by
    rcases order with less | ⟨same, -⟩ <;> omega
  exact within_iff.mpr ⟨s, hs, Binary64.le_of_totalKey_le (Binary64.isNaN_of_le number) before low⟩

end Contents

namespace Memory

variable {m : Memory} {key : String} {max : Binary64}

theorem zrangebyscore_of_none (h : m.faults .zrangebyscore = 0) (key : String) (max : Binary64) :
    m.zrangebyscore key max = (.ok (m.contents.range key max), m) :=
  guarded_of_none h _

/-- What a range query is answered: `ids`, unless a failure was asked for. -/
structure Ranged (m : Memory) (key : String) (max : Binary64) (ids : List String) : Prop where
  mem : ∀ x, x ∈ ids ↔ ∃ s, m.score? key x = some s ∧ s.le max = true
  once : ids.Nodup
  ordered : ids.Pairwise fun x y => ∃ s t, m.score? key x = some s ∧ m.score? key y = some t ∧
    (s.totalKey < t.totalKey ∨ s = t ∧ Text.bytes x < Text.bytes y)
  answered : m.faults .zrangebyscore = 0 → m.zrangebyscore key max = (.ok ids, m)
  failed : m.faults .zrangebyscore ≠ 0 → ∃ m',
    m.zrangebyscore key max = (.error (.injected "zrangebyscore"), m') ∧ m'.contents = m.contents
  /-- The entries of the set may be stored in any order. -/
  stored : ∀ m' : Memory, (m'.contents.sortedSet key).entries.Perm (m.contents.sortedSet key).entries →
    m'.faults .zrangebyscore = 0 → m'.zrangebyscore key max = (.ok ids, m')
  /-- With a higher bound there is more at the end. -/
  extended : ∀ max', max.le max' = true → ∃ more, m.faults .zrangebyscore = 0 →
    m.zrangebyscore key max' = (.ok (ids ++ more), m)

theorem exists_ranged (m : Memory) (key : String) (max : Binary64) : ∃ ids, Ranged m key max ids := by
  have range := m.contents.isRange_range key max
  refine ⟨m.contents.range key max, ?_⟩
  constructor
  case mem => exact range.mem
  case once => exact range.nodup
  case ordered =>
    refine range.ordered.imp fun {x y} before => ?_
    obtain ⟨s, t, hs, ht, order⟩ := before
    rw [Binary64.totalKey_inj, ← Text.bytes_lt_iff] at order
    exact ⟨s, t, hs, ht, order⟩
  case answered => exact fun sound => zrangebyscore_of_none sound key max
  case failed =>
    intro armed
    obtain ⟨n, left⟩ := Nat.exists_eq_succ_of_ne_zero armed
    exact ⟨m.failNext .zrangebyscore n, guarded_of_some left _, rfl⟩
  case stored =>
    intro m' same sound
    rw [zrangebyscore_of_none sound, Contents.range_of_perm same]
  case extended =>
    intro max' le
    obtain ⟨more, eq⟩ := range.isPrefix (m.contents.isRange_range key max') le
    refine ⟨more, fun sound => ?_⟩
    rw [zrangebyscore_of_none sound, eq]

end Memory

end Store

end ReliableQueue
