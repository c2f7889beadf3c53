import Mathlib.Data.List.Forall2
import ReliableQueue.Proofs.Redis.Client
import ReliableQueue.Proofs.Rounding
import ReliableQueue.Proofs.Store.Answers
import ReliableQueue.Scenario.RedisTrial

/-!
A store on a server against a store in memory. As long as each key is used with one type and
the server fails no command, the keys of the server mirror what the store in memory holds, call
by call, and both answer alike but for one case: a pop that waits in vain is answered with
nothing in memory, and with what the client's library makes of the missing reply on a server.
-/

namespace ReliableQueue

open Scenario (RedisTrial.Step RedisTrial.Step.result RedisTrial.call RedisTrial.play StoreCall
  StoreReply StoreResult)
open Store (Contents Waiters)

/-! ### Scores that both stores order alike -/

namespace Binary64

/-- Neither a not-a-number nor the negative zero. -/
structure Proper (x : Binary64) : Prop where
  number : x.isNaN = false
  positive_zero : x.negative = true → x.magnitude ≠ 0

theorem proper_ofInt (i : Int) : (ofInt i).Proper where
  number := isNaN_round _ _ _
  positive_zero negative := by
    have below : i < 0 := of_decide_eq_true negative
    exact Nat.pos_iff_ne_zero.mp (roundMagnitude_pos
      (Nat.mul_pos (Int.natAbs_pos.mpr (Int.ne_of_lt below)) one_pos))

theorem totalKey_lt_iff {x y : Binary64} (hx : x.Proper) (hy : y.Proper) :
    x.totalKey < y.totalKey ↔ x.orderKey < y.orderKey := by
  have zx := hx.positive_zero
  have zy := hy.positive_zero
  unfold totalKey orderKey
  split <;> split <;> simp_all <;> omega

theorem totalKey_eq_iff {x y : Binary64} (hx : x.Proper) (hy : y.Proper) :
    x.totalKey = y.totalKey ↔ x.orderKey = y.orderKey := by
  have lower := totalKey_lt_iff hx hy
  have higher := totalKey_lt_iff hy hx
  omega

end Binary64

/-- Of proper scores a range is the same in both stores. -/
theorem range_of_proper {scores : Table Binary64} (h : ∀ e ∈ scores.entries, e.2.Proper)
    (max : Binary64) : Redis.Keyspace.range scores max = Contents.rangeUpTo scores.entries max := by
  have order (a b : String × Binary64) (ha : a ∈ scores.entries.filter fun e => e.2.le max)
      (hb : b ∈ scores.entries.filter fun e => e.2.le max) :
      Redis.Keyspace.rangeOrder a b = Contents.rangeOrder a b := by
    have proper_a := h a (List.mem_filter.mp ha).1
    have proper_b := h b (List.mem_filter.mp hb).1
    simp only [Redis.Keyspace.rangeOrder, Contents.rangeOrder,
      Binary64.totalKey_lt_iff proper_a proper_b, Binary64.totalKey_eq_iff proper_a proper_b]
  have sorted := List.map_mergeSort (f := id) fun a ha b hb => order a b ha hb
  rw [List.map_id, List.map_id] at sorted
  rw [Redis.Keyspace.range, Contents.rangeUpTo, sorted]

/-! ### What both stores hold -/

open Redis (Client Keyspace Server Value)

/-- All scores are proper. -/
def Redis.Value.Proper : Value → Prop
  | .sorted scores => ∀ e ∈ scores.entries, e.2.Proper
  | _ => True

/-- The keys of a server hold what a store in memory holds, each key with one type. -/
structure Mirrors (kind : String → Kind) (k : Keyspace) (c : Contents) : Prop where
  keys : ∀ key, k.get? key = (c.value (kind key) key).stored
  typed : ∀ key other, other ≠ kind key → (c.value other key).isEmpty = true
  proper : ∀ key, (c.value .sorted key).Proper

namespace Mirrors

variable {kind : String → Kind} {k : Keyspace} {c : Contents}

theorem empty (kind : String → Kind) : Mirrors kind .empty {} where
  keys key := by cases kind key <;> rfl
  typed key other _ := by cases other <;> rfl
  proper key := by rintro e ⟨⟩

/-- Writing a value of its own type to a key. -/
theorem put (h : Mirrors kind k c) (v : Value) (own : kind key = v.kind) (proper : v.Proper) :
    Mirrors kind (k.store key v) (c.put key v) where
  keys x := by
    rw [Keyspace.get?_store, Contents.value_put]
    by_cases same : x = key
    · rw [if_pos same, if_pos ⟨same, same ▸ own⟩]
    · rw [if_neg same, if_neg fun both => same both.1, h.keys]
  typed x other foreign := by
    rw [Contents.value_put, if_neg fun both => foreign ?_, h.typed x other foreign]
    rw [both.1, both.2, own]
  proper x := by
    rw [Contents.value_put]
    split
    · exact proper
    · exact h.proper x

/-- Reading a key. -/
theorem reread (h : Mirrors kind k c) {key : String} {own : Kind} (used : kind key = own) :
    Mirrors kind (k.store key (c.value own key)) c where
  keys x := by
    rw [Keyspace.get?_store]
    split
    · next same => rw [same, used]
    · exact h.keys x
  typed := h.typed
  proper := h.proper

theorem onList (h : Mirrors kind k c) (key : String) (own : kind key = .list)
    (act : List String → Redis.Reply × List String) :
    k.onList key act = ((act (c.list key)).1, k.store key (.list (act (c.list key)).2)) :=
  Keyspace.onList_of_stored (by rw [h.keys, own]; rfl) act

theorem onSorted (h : Mirrors kind k c) (key : String) (own : kind key = .sorted)
    (act : Table Binary64 → Redis.Reply × Table Binary64) :
    k.onSorted key act =
      ((act (c.sortedSet key)).1, k.store key (.sorted (act (c.sortedSet key)).2)) :=
  Keyspace.onSorted_of_stored (by rw [h.keys, own]; rfl) act

theorem onHash (h : Mirrors kind k c) (key : String) (own : kind key = .hash)
    (act : Table Text.Bytes → Redis.Reply × Table Text.Bytes) :
    k.onHash key act = ((act (c.hash key)).1, k.store key (.hash (act (c.hash key)).2)) :=
  Keyspace.onHash_of_stored (by rw [h.keys, own]; rfl) act

theorem value_contents (k : Keyspace) (kind : Kind) (key : String) :
    k.contents.value kind key =
      ((k.get? key).filter fun v => v.kind = kind).getD (.none kind) := by
  cases kind <;>
    simp only [Contents.value, Contents.list, Contents.sortedSet, Contents.hash, Table.getD,
      Keyspace.contents, Keyspace.get?_select]
  all_goals
    rcases k.get? key with _ | _ | _ | _ <;> rfl

/-! ### Commands -/

theorem proper_insert {scores : Table Binary64} (h : (Value.sorted scores).Proper)
    (member : String) {score : Binary64} (proper : score.Proper) :
    (Value.sorted (scores.insert member score)).Proper := by
  intro e he
  have found : (scores.insert member score).get? e.1 = some e.2 := Table.get?_eq_some_iff.mpr he
  rw [Table.get?_insert] at found
  split at found
  · exact Option.some.inj found ▸ proper
  · exact h e (Table.get?_eq_some_iff.mp found)

theorem proper_erase {scores : Table Binary64} (h : (Value.sorted scores).Proper)
    (member : String) :
    (Value.sorted (scores.erase member)).Proper :=
  fun e he => h e (List.mem_filter.mp he).1

/-- A write command on a key of its type does to the server what it does to the memory. -/
theorem run (h : Mirrors kind k c) (command : Store.Command)
    (own : kind command.key = command.kind) :
    (k.run (.ofStore command)).1.error? = none ∧
      Mirrors kind (k.run (.ofStore command)).2 (c.apply command) := by
  cases command with
  | rpush key values =>
      rw [Redis.Command.ofStore, Keyspace.run, h.onList key own]
      exact ⟨rfl, h.put (.list (c.list key ++ values)) own trivial⟩
  | lpush key value =>
      rw [Redis.Command.ofStore, Keyspace.run, h.onList key own]
      exact ⟨rfl, h.put (.list (value :: c.list key)) own trivial⟩
  | hset key field value =>
      rw [Redis.Command.ofStore, Keyspace.run, h.onHash key own]
      exact ⟨rfl, h.put (.hash ((c.hash key).insert field value)) own trivial⟩
  | hdel key field =>
      rw [Redis.Command.ofStore, Keyspace.run, h.onHash key own]
      exact ⟨rfl, h.put (.hash ((c.hash key).erase field)) own trivial⟩
  | zrem key member =>
      rw [Redis.Command.ofStore, Keyspace.run, h.onSorted key own]
      exact ⟨rfl, h.put (.sorted ((c.sortedSet key).erase member)) own
        (proper_erase (h.proper key) member)⟩

theorem runAll (commands : List Store.Command)
    (own : ∀ command ∈ commands, kind command.key = command.kind) (h : Mirrors kind k c) :
    (∀ r ∈ (Server.runAll k (commands.map .ofStore)).1, r.error? = none) ∧
      Mirrors kind (Server.runAll k (commands.map .ofStore)).2 (c.applyAll commands) := by
  induction commands generalizing k c with
  | nil => exact ⟨by simp [Server.runAll], h⟩
  | cons command rest ih =>
      obtain ⟨fine, first⟩ := h.run command (own command List.mem_cons_self)
      obtain ⟨others, all⟩ := ih (fun x hx => own x (List.mem_cons_of_mem _ hx)) first
      exact ⟨List.forall_mem_cons.mpr ⟨fine, others⟩, all⟩

/-- What the server holds is what the store in memory holds. -/
theorem same (h : Mirrors kind k c) : k.contents.Same c := by
  intro key other
  rw [value_contents, h.keys, Value.stored]
  by_cases own : other = kind key
  · subst own
    split
    · next empty => rw [Value.eq_none empty, Contents.kind_value]; rfl
    · rw [Option.filter_some, if_pos (decide_eq_true (Contents.kind_value c _ key))]
      rfl
  · have nothing := Value.eq_none (h.typed key other own)
    rw [Contents.kind_value] at nothing
    rw [nothing]
    split
    · rfl
    · rw [Option.filter_some, if_neg]
      · rfl
      · simpa [Contents.kind_value] using Ne.symm own

end Mirrors

/-! ### Calls -/

/-- A call that uses keys with the types that `kind` gives them: a pop waits for some time,
scores are whole seconds, and bounds are finite. -/
def Plain (kind : String → Kind) : StoreCall → Prop
  | .exec batch => ∀ command ∈ batch.commands, kind command.key = command.kind
  | .blpop key timeout => kind key = .list ∧ 0 < timeout.nanos
  | .lpush key _ | .llen key => kind key = .list
  | .hget key _ => kind key = .hash
  | .zadd key _ score => kind key = .sorted ∧ ∃ second, score = .ofInt second
  | .zrangebyscore key max => kind key = .sorted ∧ max.isFinite = true
  | .zcard key => kind key = .sorted
  | .list _ | .score .. | .hashLength _ => False

variable (inVain : Except Redis.Error (Option String))

/-- A client's answer to a pop that has waited in vain. -/
def unanswered : StoreResult := (inVain.mapError fun e => .redis e.message).map .value

theorem unanswered_eq_iff : unanswered inVain = .ok (.value none) ↔ inVain = .ok none := by
  cases inVain with
  | error e => exact ⟨by rintro ⟨⟩, by rintro ⟨⟩⟩
  | ok value =>
      constructor
      · rintro ⟨⟩
        rfl
      · rintro ⟨⟩
        rfl

/-- How a client's answer `r` to a call is the answer `a` of a store in memory: it is the same,
unless a pop has waited in vain, which is for the client's library to answer. -/
def Alike (a r : StoreResult) : Prop :=
  (a ≠ .ok (.value none) ∧ r = a) ∨ (a = .ok (.value none) ∧ r = unanswered inVain)

/-- What a server answers to a pop without waiting, and what it leaves of the list. -/
def popped (key : String) : List String → Redis.Reply × List String
  | [] => (.nothing, [])
  | value :: rest => (.texts [key, value], rest)

theorem Mirrors.call {kind : String → Kind} (client : Client) {c : Contents} {call : StoreCall}
    (h : Mirrors kind client.server.keys c) (ready : client.Ready) (plain : Plain kind call) :
    Alike inVain (.ok (c.answer call).1) (RedisTrial.call inVain client call).1 ∧
      Mirrors kind (RedisTrial.call inVain client call).2.server.keys (c.answer call).2 ∧
      (RedisTrial.call inVain client call).2.Ready := by
  cases call with
  | exec batch =>
      obtain ⟨fine, mirrors⟩ := h.runAll batch.commands plain
      obtain ⟨sent, ran⟩ := ready.exec batch fine
      rw [RedisTrial.call, ran]
      exact ⟨.inl ⟨by rintro ⟨⟩, rfl⟩, mirrors, ready.of_keys _ _⟩
  | blpop key timeout =>
      have ran := h.onList key plain.1 (popped key)
      cases list : c.list key with
      | nil =>
          simp only [list, popped] at ran
          rw [RedisTrial.call, Client.blpop, ready.ask (.blpop key (.ofSpan timeout)) ran rfl,
            Contents.answer_of_nil timeout list]
          have reread := h.reread plain.1
          rw [Contents.value, list] at reread
          exact ⟨.inr ⟨rfl, rfl⟩, reread, ready.of_keys _ _⟩
      | cons value rest =>
          simp only [list, popped] at ran
          rw [RedisTrial.call, Client.blpop, ready.ask (.blpop key (.ofSpan timeout)) ran rfl,
            Contents.answer_of_cons timeout list]
          exact ⟨.inl ⟨by rintro ⟨⟩, rfl⟩, h.put (.list rest) plain.1 trivial, ready.of_keys _ _⟩
  | lpush key value =>
      have ran := h.onList key plain fun old => (.integer (old.length + 1), value :: old)
      rw [RedisTrial.call, Client.lpush, ready.ask (.lpush key value) ran rfl]
      exact ⟨.inl ⟨by rintro ⟨⟩, rfl⟩, h.put (.list (value :: c.list key)) plain trivial,
        ready.of_keys _ _⟩
  | llen key =>
      have ran := h.onList key plain fun old => (.integer old.length, old)
      rw [RedisTrial.call, Client.llen, ready.ask (.llen key) ran rfl]
      exact ⟨.inl ⟨by rintro ⟨⟩, rfl⟩, h.reread plain, ready.of_keys _ _⟩
  | hget key field =>
      have ran := h.onHash key plain fun old =>
        (((old.get? field).map Redis.Reply.bytes).getD .nothing, old)
      have fine : (((((c.hash key).get? field).map Redis.Reply.bytes).getD .nothing).error?) =
          none := by
        cases (c.hash key).get? field <;> rfl
      have read : Client.field ((((c.hash key).get? field).map Redis.Reply.bytes).getD .nothing) =
          .ok ((c.hash key).get? field) := by
        cases (c.hash key).get? field <;> rfl
      rw [RedisTrial.call, Client.hget, ready.ask (.hget key field) ran fine, read]
      exact ⟨.inl ⟨by rintro ⟨⟩, rfl⟩, h.reread plain, ready.of_keys _ _⟩
  | zadd key member score =>
      obtain ⟨own, second, rfl⟩ := plain
      have proper := Binary64.proper_ofInt second
      have ran : client.server.keys.run (.zadd key (.ofInt second) member) = _ :=
        (if_neg (by simp [proper.number])).trans (h.onSorted key own fun old =>
          (Keyspace.added (old.contains member), old.insert member (.ofInt second)))
      rw [RedisTrial.call, Client.zadd, ready.ask _ ran rfl]
      exact ⟨.inl ⟨by rintro ⟨⟩, rfl⟩,
        h.put (.sorted ((c.sortedSet key).insert member (.ofInt second))) own
          (Mirrors.proper_insert (h.proper key) member proper), ready.of_keys _ _⟩
  | zrangebyscore key max =>
      have ran := h.onSorted key plain.1 fun old => (.texts (Keyspace.range old max), old)
      have bounded : max.isNaN = false := by
        have finite : max.magnitude < Binary64.infiniteMagnitude := of_decide_eq_true plain.2
        exact decide_eq_false (Nat.not_lt.mpr (Nat.le_of_lt finite))
      rw [RedisTrial.call, Client.zrangebyscore, bounded, if_neg Bool.false_ne_true,
        ready.ask (.zrangebyscore key max) ran rfl, range_of_proper (h.proper key)]
      exact ⟨.inl ⟨by rintro ⟨⟩, rfl⟩, h.reread plain.1, ready.of_keys _ _⟩
  | zcard key =>
      have ran := h.onSorted key plain fun old => (.integer old.size, old)
      rw [RedisTrial.call, Client.zcard, ready.ask (.zcard key) ran rfl]
      exact ⟨.inl ⟨by rintro ⟨⟩, rfl⟩, h.reread plain, ready.of_keys _ _⟩
  | list | score | hashLength => cases plain

theorem Mirrors.play {kind : String → Kind} (client : Client) {c : Contents}
    (calls : List StoreCall) (plain : ∀ call ∈ calls, Plain kind call)
    (h : Mirrors kind client.server.keys c) (ready : client.Ready) :
    List.Forall₂ (fun a s => s.contents.Same a.2 ∧ Alike inVain a.1 s.result)
      ((c.answers calls).map fun a => (.ok a.1, a.2))
      (RedisTrial.play inVain client (calls.map .call)) := by
  induction calls generalizing client c with
  | nil => exact .nil
  | cons call rest ih =>
      have fresh : Client.Ready { client with sent := [] } := ⟨ready.quiet, ready.closed⟩
      obtain ⟨alike, mirrors, ready'⟩ :=
        Mirrors.call inVain { client with sent := [] } h fresh (plain call List.mem_cons_self)
      exact .cons ⟨mirrors.same, alike⟩
        (ih _ (fun x hx => plain x (List.mem_cons_of_mem _ hx)) mirrors ready')

/-- All answers are the same exactly if no pop has waited in vain, or the client's library
answers such a pop with nothing. -/
theorem results_eq_iff {rs : List (StoreResult × Contents)} {steps : List RedisTrial.Step}
    (h : List.Forall₂ (fun a s => s.contents.Same a.2 ∧ Alike inVain a.1 s.result) rs steps) :
    rs.map Prod.fst = steps.map RedisTrial.Step.result ↔
      inVain = .ok none ∨ ∀ a ∈ rs, a.1 ≠ .ok (.value none) := by
  rw [← unanswered_eq_iff]
  induction h with
  | nil => simp
  | cons first others ih =>
      rw [List.map_cons, List.map_cons, List.cons.injEq, List.forall_mem_cons, ih]
      rcases first.2 with ⟨given, same⟩ | ⟨waited, answered⟩
      · rw [same, and_iff_right rfl, and_iff_right given]
      · rw [waited, answered, eq_comm, and_or_left]
        constructor
        · rintro (⟨nothing, -⟩ | ⟨nothing, -⟩) <;> exact .inl nothing
        · rintro (nothing | ⟨given, -⟩)
          · exact .inl ⟨nothing, nothing⟩
          · exact absurd rfl given

/-- Calls on a store on a server that fails no command and on a store in memory, both new, no
failures being injected, and each key used with one type. Both hold the same after each call,
and their answers are the same but for those to pops that have waited in vain, where they are
the same exactly if the client's library makes nothing of a missing reply. -/
theorem redis_like_memory (kind : String → Kind) (calls : List StoreCall)
    (plain : ∀ call ∈ calls, Plain kind call)
    (inTime : (calls.map Waiters.wait).sum < Clock.horizon * Span.nanosPerSecond) :
    (∃ rs, ({} : Waiters).Played calls rs) ∧
      ∀ rs, ({} : Waiters).Played calls rs →
        List.Forall₂ (fun a s => s.contents.Same a.2 ∧ Alike inVain a.1 s.result) rs
          (RedisTrial.play inVain ⟨{}, []⟩ (calls.map .call)) ∧
        (rs.map Prod.fst =
            (RedisTrial.play inVain ⟨{}, []⟩ (calls.map .call)).map RedisTrial.Step.result ↔
          inVain = .ok none ∨ ∀ a ∈ rs, a.1 ≠ .ok (.value none)) := by
  have sound : ({} : Waiters).memory.Sound := fun _ => rfl
  refine ⟨Waiters.exists_played calls sound (by rwa [Nat.zero_add]), fun rs played => ?_⟩
  have alike := Mirrors.play inVain ⟨{}, []⟩ calls plain (Mirrors.empty kind) ⟨rfl, rfl⟩
  rw [← played.answers sound] at alike
  exact ⟨alike, results_eq_iff inVain alike⟩

end ReliableQueue
