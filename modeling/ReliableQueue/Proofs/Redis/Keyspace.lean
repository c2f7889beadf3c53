import ReliableQueue.Proofs.Store.Ranges
import ReliableQueue.Redis.Server

/-!
What a command does to the keys of a server. It reads and writes the one key that it names, so
it leaves all others alone whatever they hold; and a key holds nothing rather than a value that
is empty.
-/

namespace ReliableQueue

namespace Table

variable {α β : Type}

theorem lookup_eq_none {es : List (String × α)} {key : String}
    (h : key ∉ es.map Prod.fst) : es.lookup key = none := by
  refine List.lookup_eq_none_iff.mpr fun e he => ?_
  simpa using fun same : key = e.1 => h (same ▸ List.mem_map_of_mem he)

theorem get?_foldl_insert {es : List (String × α)} (distinct : (es.map Prod.fst).Nodup)
    (t : Table α) (key : String) :
    (es.foldl (fun t e => t.insert e.1 e.2) t).get? key = (es.lookup key).or (t.get? key) := by
  induction es generalizing t with
  | nil => rfl
  | cons e rest ih =>
      obtain ⟨first, others⟩ := List.nodup_cons.mp distinct
      rw [List.foldl_cons, ih others, get?_insert]
      rcases Decidable.em (key = e.1) with rfl | apart
      · rw [lookup_eq_none first, if_pos rfl, List.lookup_cons_self]
        rfl
      · rw [if_neg apart, List.lookup_cons, beq_false_of_ne apart]

theorem get?_ofList {es : List (String × α)} (distinct : (es.map Prod.fst).Nodup)
    (key : String) : (ofList es).get? key = es.lookup key := by
  rw [ofList, get?_foldl_insert distinct, get?_empty, Option.or_none]

theorem lookup_filterMap {es : List (String × α)} (distinct : (es.map Prod.fst).Nodup)
    (f : α → Option β) (key : String) :
    (es.filterMap fun e => (f e.2).map (e.1, ·)).lookup key = (es.lookup key).bind f := by
  induction es with
  | nil => rfl
  | cons e rest ih =>
      obtain ⟨first, others⟩ := List.nodup_cons.mp distinct
      rw [List.filterMap_cons, List.lookup_cons]
      rcases Decidable.em (key = e.1) with rfl | apart
      · cases found : f e.2 with
        | none => simp [ih others, lookup_eq_none first, found]
        | some v => simp [found]
      · cases f e.2 with
        | none => simp [ih others, beq_false_of_ne apart]
        | some v => simp [List.lookup_cons, ih others, beq_false_of_ne apart]

end Table

namespace Redis

/-- What a key that has a value holds. -/
def Value.stored (v : Value) : Option Value := if v.isEmpty then none else some v

namespace Keyspace

variable {k : Keyspace} {key x : String}

theorem get?_select {α : Type} (k : Keyspace) (f : Value → Option α) (key : String) :
    (k.select f).get? key = (k.get? key).bind f := by
  have distinct : ((k.entries.filterMap fun e => (f e.2).map (e.1, ·)).map Prod.fst).Nodup := by
    refine k.distinct.sublist ?_
    induction k.entries with
    | nil => exact .slnil
    | cons e rest ih =>
        rw [List.filterMap_cons]
        cases f e.2 with
        | none => exact ih.cons e.1
        | some v => exact ih.cons_cons e.1
  rw [select, Table.get?_ofList distinct, Table.lookup_filterMap k.distinct, Table.get?]

theorem get?_store (k : Keyspace) (key x : String) (v : Value) :
    (k.store key v).get? x = if x = key then v.stored else k.get? x := by
  rw [store, Value.stored]
  split
  · exact Table.get?_erase k key x
  · exact Table.get?_insert k key x v

/-! ### Keys of one type -/

theorem get?_onList (act : List String → Reply × List String) (other : x ≠ key) :
    (k.onList key act).2.get? x = k.get? x := by
  unfold onList
  split <;> simp [get?_store, other]

theorem get?_onSorted (act : Table Binary64 → Reply × Table Binary64) (other : x ≠ key) :
    (k.onSorted key act).2.get? x = k.get? x := by
  unfold onSorted
  split <;> simp [get?_store, other]

theorem get?_onHash (act : Table Text.Bytes → Reply × Table Text.Bytes) (other : x ≠ key) :
    (k.onHash key act).2.get? x = k.get? x := by
  unfold onHash
  split <;> simp [get?_store, other]

theorem onList_of_stored {values : List String} (h : k.get? key = (Value.list values).stored)
    (act : List String → Reply × List String) :
    k.onList key act = ((act values).1, k.store key (.list (act values).2)) := by
  unfold onList
  rw [h]
  cases values <;> rfl

theorem onSorted_of_stored {scores : Table Binary64}
    (h : k.get? key = (Value.sorted scores).stored)
    (act : Table Binary64 → Reply × Table Binary64) :
    k.onSorted key act = ((act scores).1, k.store key (.sorted (act scores).2)) := by
  obtain ⟨entries, distinct⟩ := scores
  unfold onSorted
  rw [h]
  cases entries <;> rfl

theorem onHash_of_stored {fields : Table Text.Bytes}
    (h : k.get? key = (Value.hash fields).stored)
    (act : Table Text.Bytes → Reply × Table Text.Bytes) :
    k.onHash key act = ((act fields).1, k.store key (.hash (act fields).2)) := by
  obtain ⟨entries, distinct⟩ := fields
  unfold onHash
  rw [h]
  cases entries <;> rfl

/-! ### Commands -/

/-- A command changes no key but the one that it names. -/
theorem get?_run (k : Keyspace) (command : Command) (other : x ≠ command.key) :
    (k.run command).2.get? x = k.get? x := by
  cases command with
  | rpush | lpush | llen | blpop => exact get?_onList _ other
  | hset | hget | hdel => exact get?_onHash _ other
  | zrem | zcard | zrangebyscore => exact get?_onSorted _ other
  | zadd key score member =>
      rw [run]
      split
      · rfl
      · exact get?_onSorted _ other

end Keyspace

namespace Server

/-- Nor do several commands, one after the other. -/
theorem get?_runAll {x : String} (commands : List Command)
    (other : ∀ command ∈ commands, x ≠ command.key) (k : Keyspace) :
    (runAll k commands).2.get? x = k.get? x := by
  induction commands generalizing k with
  | nil => rfl
  | cons command rest ih =>
      have first := k.get?_run command (other command List.mem_cons_self)
      exact (ih (fun c hc => other c (List.mem_cons_of_mem _ hc)) _).trans first

end Server

end Redis

/-! ### Values by type -/

/-- The types of values. -/
inductive Kind where
  | list | sorted | hash
deriving DecidableEq

def Store.Command.kind : Store.Command → Kind
  | .rpush .. | .lpush .. => .list
  | .hset .. | .hdel .. => .hash
  | .zrem .. => .sorted

namespace Redis

def Value.kind : Value → Kind
  | .list _ => .list
  | .sorted _ => .sorted
  | .hash _ => .hash

def Value.none : Kind → Value
  | .list => .list []
  | .sorted => .sorted .empty
  | .hash => .hash .empty

theorem Value.eq_none {v : Value} (h : v.isEmpty = true) : v = .none v.kind := by
  cases v with
  | list values => exact congrArg Value.list (List.isEmpty_iff.mp h)
  | sorted scores =>
      obtain ⟨_ | _, distinct⟩ := scores
      · rfl
      · cases h
  | hash fields =>
      obtain ⟨_ | _, distinct⟩ := fields
      · rfl
      · cases h

end Redis

namespace Store.Contents

open Redis (Value)

/-- What a key holds that is used with one type. -/
def value (c : Contents) (kind : Kind) (key : String) : Value :=
  match kind with
  | .list => .list (c.list key)
  | .sorted => .sorted (c.sortedSet key)
  | .hash => .hash (c.hash key)

def put (c : Contents) (key : String) : Value → Contents
  | .list values => c.setList key values
  | .sorted scores => { c with sorted := c.sorted.insert key scores }
  | .hash fields => { c with hashes := c.hashes.insert key fields }

theorem value_put (c : Contents) (key x : String) (v : Value) (kind : Kind) :
    (c.put key v).value kind x = if x = key ∧ kind = v.kind then v else c.value kind x := by
  by_cases same : x = key
  · subst same
    cases v <;> cases kind <;>
      simp [put, value, Value.kind, list, sortedSet, hash, setList, Table.getD]
  · cases v <;> cases kind <;>
      simp [put, value, list, sortedSet, hash, setList, Table.getD, Table.get?_insert, same]

theorem kind_value (c : Contents) (kind : Kind) (key : String) :
    (c.value kind key).kind = kind := by
  cases kind <;> rfl

/-- A write command changes nothing but what one key holds under one type. -/
theorem value_apply (c : Contents) (command : Command) {x : String} {kind : Kind}
    (other : (x, kind) ≠ (command.key, command.kind)) :
    (c.apply command).value kind x = c.value kind x := by
  have apart (v : Value) (same : v.kind = command.kind) :
      (c.put command.key v).value kind x = c.value kind x := by
    rw [value_put, if_neg]
    rintro ⟨rfl, rfl⟩
    exact other (by rw [same])
  cases command with
  | rpush key values => exact apart (.list _) rfl
  | lpush key value => exact apart (.list _) rfl
  | hset key field value => exact apart (.hash _) rfl
  | hdel key field => exact apart (.hash _) rfl
  | zrem key member => exact apart (.sorted _) rfl

theorem value_applyAll {x : String} {kind : Kind} (commands : List Command)
    (other : ∀ command ∈ commands, (x, kind) ≠ (command.key, command.kind)) (c : Contents) :
    (c.applyAll commands).value kind x = c.value kind x := by
  induction commands generalizing c with
  | nil => rfl
  | cons command rest ih =>
      have first := c.value_apply command (other command List.mem_cons_self)
      exact (ih (fun a ha => other a (List.mem_cons_of_mem _ ha)) _).trans first

/-- All keys hold the same, type by type. -/
def Same (c d : Contents) : Prop := ∀ key kind, c.value kind key = d.value kind key

end Store.Contents

end ReliableQueue
