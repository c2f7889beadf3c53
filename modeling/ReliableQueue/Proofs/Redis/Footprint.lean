import ReliableQueue.Proofs.Redis.Client
import ReliableQueue.Proofs.Store.Exactness
import ReliableQueue.Scenario.RedisTrial

/-!
Which keys a call can touch. It names its keys, and whatever the store is asked, answers or
fails to answer, nothing is read from or written to any other key. On a server this is so for
every type of value: no command is even sent for another key.
-/

namespace ReliableQueue

open Scenario (RedisTrial.call StoreCall)
open Store (Contents)

/-- The keys that a call names. -/
def keysOf : StoreCall → List String
  | .exec batch => batch.commands.map Store.Command.key
  | .blpop key _ | .lpush key _ | .llen key | .hget key _ | .zadd key _ _ | .zrangebyscore key _
  | .zcard key | .list key | .score key _ | .hashLength key => [key]

namespace Store.Contents

variable {x : String}

/-- A call changes no key in memory but those that it names. -/
theorem value_answer (c : Contents) (call : StoreCall) (other : x ∉ keysOf call) (kind : Kind) :
    (c.answer call).2.value kind x = c.value kind x := by
  refine c.value_answer_of_unwritten fun written => other ?_
  cases call with
  | exec batch =>
      obtain ⟨command, hc, same⟩ := List.mem_map.mp written
      exact List.mem_map.mpr ⟨command, hc, congrArg Prod.fst same⟩
  | blpop | lpush | zadd =>
      exact List.mem_singleton.mpr (congrArg Prod.fst (List.mem_singleton.mp written))
  | llen | hget | zrangebyscore | zcard | list | score | hashLength => cases written

end Store.Contents

namespace Redis

variable {P : String → Prop}

/-- A request for no key but such as `P` holds of. -/
def Request.Within (P : String → Prop) : Request → Prop
  | .command c => P c.key
  | .multi | .exec | .discard => True

namespace Server

/-- No command is queued but for such keys. -/
def Within (P : String → Prop) (s : Server) : Prop :=
  ∀ t, s.transaction = some t → ∀ command ∈ t.queued, P command.key

theorem within_refuse {s : Server} (h : s.Within P) (via : Connection) (r : Request) :
    (s.refuse via r).Within P ∧ (s.refuse via r).keys = s.keys := by
  cases r with
  | command c =>
      simp only [refuse]
      split
      · refine ⟨fun t open' command hc => ?_, rfl⟩
        obtain ⟨t', opened, rfl⟩ := Option.map_eq_some_iff.mp open'
        exact h t' opened command hc
      · exact ⟨h, rfl⟩
  | exec => exact ⟨by rintro t ⟨⟩, rfl⟩
  | multi | discard => exact ⟨h, rfl⟩

theorem within_accept {s : Server} (h : s.Within P) (via : Connection) {r : Request}
    (within : r.Within P) :
    (s.accept via r).2.Within P ∧
      ∀ x, ¬P x → (s.accept via r).2.keys.get? x = s.keys.get? x := by
  have queued (t : Transaction) (opened : (if via = .main then s.transaction else none) = some t) :
      ∀ command ∈ t.queued, P command.key := by
    split at opened
    · exact h t opened
    · cases opened
  unfold accept
  generalize (if via = .main then s.transaction else none) = open? at queued ⊢
  cases r with
  | command c =>
      cases open? with
      | none => exact ⟨h, fun x hx => s.keys.get?_run c fun same => hx (same ▸ within)⟩
      | some t =>
          refine ⟨fun t' now command hc => ?_, fun _ _ => rfl⟩
          obtain rfl := Option.some.inj now
          rcases List.mem_append.mp hc with old | new
          · exact queued t rfl command old
          · exact List.mem_singleton.mp new ▸ within
  | multi =>
      cases open? with
      | none =>
          refine ⟨fun t now command hc => ?_, fun _ _ => rfl⟩
          obtain rfl := Option.some.inj now
          cases hc
      | some t => exact ⟨h, fun _ _ => rfl⟩
  | exec =>
      cases open? with
      | none => exact ⟨h, fun _ _ => rfl⟩
      | some t =>
          dsimp only
          split
          · exact ⟨by rintro t' ⟨⟩, fun _ _ => rfl⟩
          · exact ⟨by rintro t' ⟨⟩, fun x hx => get?_runAll t.queued
              (fun command hc (same : x = command.key) => hx (same ▸ queued t rfl command hc))
              s.keys⟩
  | discard =>
      cases open? with
      | none => exact ⟨h, fun _ _ => rfl⟩
      | some t => exact ⟨by rintro t' ⟨⟩, fun _ _ => rfl⟩

theorem within_serve {s : Server} (h : s.Within P) (via : Connection) {r : Request}
    (within : r.Within P) :
    (s.serve via r).2.Within P ∧
      ∀ x, ¬P x → (s.serve via r).2.keys.get? x = s.keys.get? x := by
  unfold serve
  split
  · next text s' taken =>
      have same : s'.transaction = s.transaction ∧ s'.keys = s.keys := by
        unfold takeFailure at taken
        split at taken
        · cases taken
          exact ⟨rfl, rfl⟩
        · cases taken
      have queued : s'.Within P := by
        unfold Within
        rw [same.1]
        exact h
      obtain ⟨within', keys⟩ := within_refuse queued via r
      exact ⟨within', fun x _ => by rw [keys, same.2]⟩
  · exact within_accept h via within

end Server

theorem key_ofStore (command : Store.Command) : (Command.ofStore command).key = command.key := by
  cases command <;> rfl

namespace Client

/-- What requests for no key but such as `P` holds of have made of a client: no other key has
changed, and none is named in what was sent. -/
structure Keeps (P : String → Prop) (c d : Client) : Prop where
  keys : ∀ x, ¬P x → d.server.keys.get? x = c.server.keys.get? x
  queued : d.server.Within P
  sent : ∃ new, d.sent = new ++ c.sent ∧ ∀ e ∈ new, e.2.Within P

variable {c d : Client}

theorem Keeps.refl (h : c.server.Within P) : Keeps P c c :=
  ⟨fun _ _ => rfl, h, [], rfl, by simp⟩

theorem Keeps.trans {e : Client} (first : Keeps P c d) (then' : Keeps P d e) : Keeps P c e where
  keys x hx := (then'.keys x hx).trans (first.keys x hx)
  queued := then'.queued
  sent := by
    obtain ⟨new, sent, within⟩ := first.sent
    obtain ⟨new', sent', within'⟩ := then'.sent
    exact ⟨new' ++ new, by rw [sent', sent, List.append_assoc],
      List.forall_mem_append.mpr ⟨within', within⟩⟩

theorem keeps_send (h : c.server.Within P) (via : Connection) {r : Request} (within : r.Within P) :
    Keeps P c (c.send via r).2 := by
  obtain ⟨queued, keys⟩ := Server.within_serve h via within
  exact ⟨keys, queued, [(via, r)], rfl, by simpa using within⟩

theorem keeps_sendAll (rs : List Request) (within : ∀ r ∈ rs, r.Within P)
    (h : c.server.Within P) : Keeps P c (c.sendAll rs).2 := by
  induction rs generalizing c with
  | nil => exact .refl h
  | cons r rest ih =>
      have first := keeps_send h .main (within r List.mem_cons_self)
      exact first.trans (ih (fun a ha => within a (List.mem_cons_of_mem _ ha)) first.queued)

theorem keeps_ask {α : Type} (h : c.server.Within P) (via : Connection) (command : Command)
    (within : P command.key) (read : Reply → Except Error α) :
    Keeps P c (c.ask via command read).2 :=
  keeps_send h via within

theorem keeps_exec (h : c.server.Within P) (batch : Store.Batch)
    (within : ∀ command ∈ batch.commands, P command.key) : Keeps P c (c.exec batch).2 := by
  unfold exec
  split
  · exact .refl h
  · have requests : ∀ r ∈ transaction batch.commands, r.Within P := by
      intro r hr
      rcases List.mem_append.mp hr with command | last
      · rcases List.mem_cons.mp command with rfl | command
        · trivial
        · obtain ⟨stored, hs, rfl⟩ := List.mem_map.mp command
          show P (Command.ofStore stored).key
          rw [key_ofStore]
          exact within stored hs
      · exact List.mem_singleton.mp last ▸ trivial
    have ran := keeps_sendAll _ requests h
    dsimp only
    split
    · exact ran.trans (keeps_send ran.queued .main trivial)
    · split
      · exact ran
      · exact ran

variable (inVain : Except Error (Option String))

/-- A call sends commands for no key but those that it names, and changes no other. -/
theorem keeps_call (h : c.server.Within P) (call : StoreCall)
    (within : ∀ key ∈ keysOf call, P key) : Keeps P c (RedisTrial.call inVain c call).2 := by
  cases call with
  | exec batch =>
      exact keeps_exec h batch fun command hc => within command.key (List.mem_map_of_mem hc)
  | blpop key timeout =>
      exact keeps_ask h .blocking (.blpop key (.ofSpan timeout)) (within key (by simp [keysOf]))
        (popped inVain)
  | lpush key value =>
      exact keeps_ask h .main (.lpush key value) (within key (by simp [keysOf])) written
  | llen key => exact keeps_ask h .main (.llen key) (within key (by simp [keysOf])) number
  | hget key name =>
      exact keeps_ask h .main (.hget key name) (within key (by simp [keysOf])) field
  | zadd key member score =>
      exact keeps_ask h .main (.zadd key score member) (within key (by simp [keysOf])) written
  | zcard key => exact keeps_ask h .main (.zcard key) (within key (by simp [keysOf])) number
  | zrangebyscore key max =>
      show Keeps P c (zrangebyscore c key max).2
      unfold zrangebyscore
      split
      · exact .refl h
      · exact keeps_ask h .main (.zrangebyscore key max) (within key (by simp [keysOf])) members
  | list | score | hashLength => exact .refl h

/-- Calls that name only such keys, one after the other. -/
theorem keeps_calls (calls : List StoreCall)
    (within : ∀ call ∈ calls, ∀ key ∈ keysOf call, P key) (h : c.server.Within P) :
    Keeps P c (calls.foldl (fun c call => (RedisTrial.call inVain c call).2) c) := by
  induction calls generalizing c with
  | nil => exact .refl h
  | cons call rest ih =>
      have first := keeps_call inVain h call (within call List.mem_cons_self)
      exact first.trans (ih (fun a ha => within a (List.mem_cons_of_mem _ ha)) first.queued)

end Client

end Redis

end ReliableQueue
