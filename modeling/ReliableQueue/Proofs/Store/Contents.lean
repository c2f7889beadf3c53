import ReliableQueue.Store.Contents

/-!
What each write command does to the lists, scores and fields of a store. A command
changes one value under one key; the lemmas say what is read after it, so that no
later proof opens a command.
-/

namespace ReliableQueue.Store.Contents

theorem list_setList (c : Contents) (key k : String) (values : List String) :
    (c.setList key values).list k = if k = key then values else c.list k := by
  simp only [list, setList, Table.getD, Table.get?_insert]
  split <;> rfl

@[simp] theorem list_setList_self (c : Contents) (key : String) (values : List String) :
    (c.setList key values).list key = values := by
  simp [list_setList]

theorem setList_setList (c : Contents) (key : String) (values values' : List String) :
    (c.setList key values).setList key values' = c.setList key values' := by
  simp only [setList, Table.insert_insert]

/-- To set a list that is there to itself changes nothing. -/
theorem setList_of_list {c : Contents} {key x : String} {rest : List String}
    (h : c.list key = x :: rest) : c.setList key (x :: rest) = c := by
  have bound : c.lists.get? key = some (x :: rest) := by
    rw [list, Table.getD] at h
    cases got : c.lists.get? key with
    | none =>
        rw [got] at h
        cases h
    | some values =>
        rw [got] at h
        exact congrArg some h
  simp only [setList, Table.insert_of_get? bound]

@[simp] theorem list_setScore (c : Contents) (key k m : String) (s : Binary64) :
    (c.setScore key m s).list k = c.list k := rfl

theorem score?_setScore (c : Contents) (key k m x : String) (s : Binary64) :
    (c.setScore key m s).score? k x = if k = key ∧ x = m then some s else c.score? k x := by
  simp only [score?, sortedSet, setScore, Table.getD, Table.get?_insert]
  by_cases hk : k = key
  · subst hk
    simp [Table.get?_insert]
  · simp [hk]

@[simp] theorem field?_setList (c : Contents) (key k f : String) (values : List String) :
    (c.setList key values).field? k f = c.field? k f := rfl

@[simp] theorem field?_setScore (c : Contents) (key k m f : String) (s : Binary64) :
    (c.setScore key m s).field? k f = c.field? k f := rfl

/-- A range has only members. -/
theorem score?_of_mem_range {c : Contents} {key x : String} {max : Binary64}
    (h : x ∈ c.range key max) : (c.score? key x).isSome = true := by
  obtain ⟨e, he, rfl⟩ := List.mem_map.mp h
  exact List.lookup_isSome_iff.mpr
    ⟨e, (List.mem_filter.mp (List.mem_mergeSort.mp he)).1, by simp⟩

/-! ### Single commands -/

@[simp] theorem list_rpush (c : Contents) (key k : String) (values : List String) :
    (c.apply (.rpush key values)).list k = if k = key then c.list k ++ values else c.list k := by
  simp only [apply, list_setList]
  split
  · next h => rw [h]
  · rfl

@[simp] theorem list_lpush (c : Contents) (key k value : String) :
    (c.apply (.lpush key value)).list k = if k = key then value :: c.list k else c.list k := by
  simp only [apply, list_setList]
  split
  · next h => rw [h]
  · rfl

@[simp] theorem list_hset (c : Contents) (key k f : String) (value : Text.Bytes) :
    (c.apply (.hset key f value)).list k = c.list k := rfl

@[simp] theorem list_hdel (c : Contents) (key k f : String) :
    (c.apply (.hdel key f)).list k = c.list k := rfl

@[simp] theorem list_zrem (c : Contents) (key k m : String) :
    (c.apply (.zrem key m)).list k = c.list k := rfl

@[simp] theorem score?_rpush (c : Contents) (key k m : String) (values : List String) :
    (c.apply (.rpush key values)).score? k m = c.score? k m := rfl

@[simp] theorem score?_lpush (c : Contents) (key k m value : String) :
    (c.apply (.lpush key value)).score? k m = c.score? k m := rfl

@[simp] theorem score?_hset (c : Contents) (key k m f : String) (value : Text.Bytes) :
    (c.apply (.hset key f value)).score? k m = c.score? k m := rfl

@[simp] theorem score?_hdel (c : Contents) (key k m f : String) :
    (c.apply (.hdel key f)).score? k m = c.score? k m := rfl

@[simp] theorem score?_zrem (c : Contents) (key k m x : String) :
    (c.apply (.zrem key m)).score? k x = if k = key ∧ x = m then none else c.score? k x := by
  simp only [score?, sortedSet, apply, Table.getD, Table.get?_insert]
  by_cases hk : k = key
  · subst hk
    simp [Table.get?_erase]
  · simp [hk]

@[simp] theorem field?_rpush (c : Contents) (key k f : String) (values : List String) :
    (c.apply (.rpush key values)).field? k f = c.field? k f := rfl

@[simp] theorem field?_lpush (c : Contents) (key k f value : String) :
    (c.apply (.lpush key value)).field? k f = c.field? k f := rfl

@[simp] theorem field?_zrem (c : Contents) (key k m f : String) :
    (c.apply (.zrem key m)).field? k f = c.field? k f := rfl

@[simp] theorem field?_hset (c : Contents) (key k f x : String) (value : Text.Bytes) :
    (c.apply (.hset key f value)).field? k x =
      if k = key ∧ x = f then some value else c.field? k x := by
  simp only [field?, hash, apply, Table.getD, Table.get?_insert]
  by_cases hk : k = key
  · subst hk
    simp [Table.get?_insert]
  · simp [hk]

@[simp] theorem field?_hdel (c : Contents) (key k f x : String) :
    (c.apply (.hdel key f)).field? k x = if k = key ∧ x = f then none else c.field? k x := by
  simp only [field?, hash, apply, Table.getD, Table.get?_insert]
  by_cases hk : k = key
  · subst hk
    simp [Table.get?_erase]
  · simp [hk]

/-! ### Batches -/

@[simp] theorem applyAll_nil (c : Contents) : c.applyAll [] = c := rfl

@[simp] theorem applyAll_cons (c : Contents) (command : Command) (rest : List Command) :
    c.applyAll (command :: rest) = (c.apply command).applyAll rest := rfl

@[simp] theorem applyAll_append (c : Contents) (a b : List Command) :
    c.applyAll (a ++ b) = (c.applyAll a).applyAll b := by
  simp [applyAll, List.foldl_append]

end ReliableQueue.Store.Contents
