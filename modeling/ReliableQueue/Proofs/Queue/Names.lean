import ReliableQueue.Proofs.Queue.Drain
import ReliableQueue.Proofs.Redis.Footprint

/-!
Queues of different names on one store. The keys of a queue are its name and two names derived
from it, so two queues have a key in common exactly if their names are the same or one is
derived from the other. If they have none, nothing that one does touches a key of the other, in
memory or on a server, where all types of values share one space of keys.
-/

namespace ReliableQueue.Queue

open Redis (Client)
open Scenario (RedisTrial.call StoreCall)
open Store (Contents)

namespace Keys

def all (k : Keys) : List String := [k.pending, k.processing, k.payloads]

/-- What is appended to a name for the keys of the claims and of the payloads. -/
def suffixes : List String := [":processing", ":payloads"]

/-- Neither name is the other one or derived from it. -/
def Unrelated (a b : String) : Prop :=
  a ≠ b ∧ ∀ suffix ∈ suffixes, a ++ suffix ≠ b ∧ b ++ suffix ≠ a

instance (a b : String) : Decidable (Unrelated a b) := by
  unfold Unrelated
  infer_instance

theorem processing_ne_payloads (a b : String) : a ++ ":processing" ≠ b ++ ":payloads" := by
  intro same
  have last := congrArg (fun s => s.toList.getLast?) same
  simp [List.getLast?_append] at last

/-- Two queues have no key in common exactly if their names are unrelated. -/
theorem disjoint_iff (a b : String) :
    (∀ x ∈ (ofName a).all, x ∉ (ofName b).all) ↔ Unrelated a b := by
  have apart := processing_ne_payloads a b
  have apart' := (processing_ne_payloads b a).symm
  constructor
  · intro none
    refine ⟨fun same => none a (by simp [all, ofName]) (by simp [all, ofName, same]), ?_⟩
    intro suffix hs
    have derived (n : String) : n ++ suffix ∈ (ofName n).all := by
      simp only [suffixes, List.mem_cons, List.not_mem_nil, or_false] at hs
      rcases hs with rfl | rfl <;> simp [all, ofName]
    exact ⟨fun same => none b (same ▸ derived a) (by simp [all, ofName]),
      fun same => none a (by simp [all, ofName]) (same ▸ derived b)⟩
  · rintro ⟨distinct, underived⟩ x hx hy
    have processing := underived ":processing" (by simp [suffixes])
    have payloads := underived ":payloads" (by simp [suffixes])
    simp only [all, ofName, List.mem_cons, List.not_mem_nil, or_false] at hx hy
    rcases hx with rfl | rfl | rfl <;> rcases hy with same | same | same <;>
      simp_all

end Keys

/-- The calls on its store that a queue with keys `k` makes. -/
inductive Access (k : Keys) : StoreCall → Prop where
  | push (tasks : List Task) : Access k (.exec (pushBatch k tasks))
  | pop (timeout : Span) : Access k (.blpop k.pending timeout)
  | requeue (id : String) : Access k (.lpush k.pending id)
  | load (id : String) : Access k (.hget k.payloads id)
  | claim (id : String) (stamp : Binary64) : Access k (.zadd k.processing id stamp)
  | settle (claim : Claim) : Access k (.exec (settleBatch k claim))
  | release (id : String) : Access k (.exec (releaseBatch k id))
  | range (max : Binary64) : Access k (.zrangebyscore k.processing max)
  | recover (id : String) : Access k (.exec (recoveryBatch k id))
  | queueLength : Access k (.llen k.pending)
  | processingCount : Access k (.zcard k.processing)

theorem Access.mem_all {k : Keys} {call : StoreCall} (h : Access k call) :
    ∀ key ∈ keysOf call, key ∈ k.all := by
  cases h with
  | push tasks =>
      cases tasks with
      | nil => simp [keysOf, pushBatch, Store.Batch.rpush, Store.Batch.empty]
      | cons t rest =>
          intro key hk
          simp only [keysOf, pushBatch_commands k (t :: rest) (List.cons_ne_nil t rest),
            List.map_append, List.mem_append, List.map_map] at hk
          rcases hk with payload | pending
          · obtain ⟨u, -, rfl⟩ := List.mem_map.mp payload
            simp [Keys.all, Store.Command.key]
          · simp_all [Keys.all, Store.Command.key]
  | settle claim =>
      simp only [keysOf, settleBatch_commands]
      split <;> simp [Keys.all, Store.Command.key]
  | release id => simp [keysOf, releaseBatch_commands, Keys.all, Store.Command.key]
  | recover id => simp [keysOf, recoveryBatch_commands, Keys.all, Store.Command.key]
  | _ => simp [keysOf, Keys.all]

/-- Whatever happens to a cluster, its store stays as it is or has answered such a call. -/
theorem Change.access {k : Keys} {a : Act} {c d : Cluster} (h : Change k a c d) :
    d.memory.contents = c.memory.contents ∨
      ∃ call, Access k call ∧ d.memory.contents = (c.memory.contents.answer call).2 := by
  cases h with
  | quiet contents | launched _ _ _ _ _ contents | drained _ _ _ _ _ _ _ contents
  | releaseFailed _ _ _ _ _ _ _ _ _ contents | letGo _ _ contents
  | forfeited _ _ _ _ _ _ contents => exact .inl contents
  | pushed tasks _ contents => exact .inr ⟨_, .push tasks, contents⟩
  | released _ _ claim _ _ _ _ contents => exact .inr ⟨_, .release claim.id, contents⟩
  | recovered id _ contents => exact .inr ⟨_, .recover id, contents⟩
  | fetched i r m run live move contents =>
      cases move with
      | quiet _ same | loaded _ _ _ _ same | requeueFailed _ _ _ _ _ _ same | sent _ _ _ same
      | releaseFailed _ _ _ _ _ same => exact .inl (contents.trans same)
      | popped id rest _ _ head taken =>
          exact .inr ⟨_, .pop .zero, (contents.trans taken).trans
            (congrArg Prod.snd (Contents.answer_of_cons .zero head)).symm⟩
      | claimed claim stamp _ _ set => exact .inr ⟨_, .claim claim.id stamp, contents.trans set⟩
      | requeued id _ _ _ put => exact .inr ⟨_, .requeue id, contents.trans put⟩
      | released id _ _ released => exact .inr ⟨_, .release id, contents.trans released⟩
  | worked i j r w m run worker move panic contents =>
      cases move with
      | quiet _ _ same | received _ _ _ _ _ same | called _ _ _ _ same
      | settleFailed _ _ _ _ _ same | panicked _ _ _ same => exact .inl (contents.trans same)
      | settled claim _ _ settled => exact .inr ⟨_, .settle claim, contents.trans settled⟩

namespace Cluster

/-- What keys other than those of a queue hold in memory outlasts all that the queue does. -/
theorem value_of_reaches {ok : Cluster → Act → Prop} {name x : String} {c d : Cluster}
    (h : Reaches ok c d) (one : ∀ c a, ok c a → OnQueue name c a) (named : c.Named name)
    (other : x ∉ (Keys.ofName name).all) (kind : Kind) :
    d.memory.contents.value kind x = c.memory.contents.value kind x := by
  refine (h.invariant (I := fun d => d.Named name ∧
    d.memory.contents.value kind x = c.memory.contents.value kind x) ⟨named, rfl⟩ ?_).2
  rintro d a e ⟨named, same⟩ allowed performed
  refine ⟨named.perform (one d a allowed) performed, ?_⟩
  rcases (change_of_perform named performed).access with kept | ⟨call, access, answered⟩
  · rw [kept, same]
  · rw [answered, Contents.value_answer _ call (fun key => other (access.mem_all x key)), same]

end Cluster

/-- Two queues have no key in common exactly if their names are unrelated. Then whatever the
first one does leaves the keys of the second as they were under every type: in memory, through
any run of any handles of the first, and on a server, through any calls that the first makes,
where no command that is sent names a key of the second. -/
theorem unrelated_apart (a b : String) :
    ((∀ x ∈ (Keys.ofName a).all, x ∉ (Keys.ofName b).all) ↔ Keys.Unrelated a b) ∧
      (Keys.Unrelated a b →
        (∀ epoch m c, Cluster.Reaches (Cluster.OnQueue a) (Cluster.onStore epoch m) c →
          ∀ x ∈ (Keys.ofName b).all, ∀ kind,
            c.memory.contents.value kind x = m.contents.value kind x) ∧
        ∀ (inVain : Except Redis.Error (Option String)) (client : Client)
          (calls : List StoreCall), client.server.transaction = none →
          (∀ call ∈ calls, Access (Keys.ofName a) call) →
          Client.Keeps (· ∉ (Keys.ofName b).all) client
            (calls.foldl (fun c call => (RedisTrial.call inVain c call).2) client)) := by
  refine ⟨Keys.disjoint_iff a b, fun unrelated => ?_⟩
  have disjoint := (Keys.disjoint_iff a b).mpr unrelated
  constructor
  · intro epoch m c reached x hx kind
    exact Cluster.value_of_reaches reached (fun _ _ allowed => allowed)
      (Cluster.named_onStore a epoch m) (fun own => disjoint x own hx) kind
  · intro inVain client calls closed access
    refine Client.keeps_calls inVain calls (fun call hc key hk => ?_) ?_
    · exact disjoint key ((access call hc).mem_all key hk)
    · rintro t opened
      rw [closed] at opened
      cases opened

theorem unrelated_apart_twoNames :
    Keys.Unrelated "mail" "mail:old" ∧
      (∀ x ∈ (Keys.ofName "mail").all, x ∉ (Keys.ofName "mail:old").all) ∧
      Client.Keeps (· ∉ (Keys.ofName "mail:old").all) ⟨{}, []⟩
        (RedisTrial.call (.ok none) ⟨{}, []⟩
          (.exec (pushBatch (Keys.ofName "mail") [⟨"x", [1]⟩]))).2 := by
  have unrelated : Keys.Unrelated "mail" "mail:old" := by decide
  obtain ⟨disjoint, apart⟩ := unrelated_apart "mail" "mail:old"
  exact ⟨unrelated, disjoint.mpr unrelated, (apart unrelated).2 (.ok none) ⟨{}, []⟩
    [.exec (pushBatch (Keys.ofName "mail") [⟨"x", [1]⟩])] rfl
    fun call hc => List.mem_singleton.mp hc ▸ .push _⟩

/-- Names may be distinct and not unrelated: `q` keeps its claims under the key of the backlog
of `q:processing`, so a push to the latter puts a list where the former has its sorted set. -/
theorem not_apart_of_distinct :
    (¬∀ a b : String, a ≠ "" → b ≠ "" → a ≠ b →
      ∀ x ∈ (Keys.ofName a).all, x ∉ (Keys.ofName b).all) ∧
    ¬∀ a b : String, a ≠ "" → b ≠ "" → a ≠ b →
      ∀ (inVain : Except Redis.Error (Option String)) (client : Client) (calls : List StoreCall),
        client.server.transaction = none → (∀ call ∈ calls, Access (Keys.ofName a) call) →
        ∀ x ∈ (Keys.ofName b).all,
          (calls.foldl (fun c call => (RedisTrial.call inVain c call).2)
              client).server.keys.get? x = client.server.keys.get? x := by
  constructor
  · intro disjoint
    exact disjoint "q:processing" "q" (by decide) (by decide) (by decide) "q:processing"
      (by decide) (by decide)
  · intro apart
    have same := apart "q:processing" "q" (by decide) (by decide) (by decide) (.ok none)
      ⟨{}, []⟩ [.exec (pushBatch (Keys.ofName "q:processing") [⟨"x", []⟩])] rfl
      (fun call hc => List.mem_singleton.mp hc ▸ .push _) "q:processing" (by decide)
    revert same
    decide +kernel

end ReliableQueue.Queue
