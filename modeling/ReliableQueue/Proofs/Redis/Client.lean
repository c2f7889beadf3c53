import ReliableQueue.Proofs.Redis.Keyspace
import ReliableQueue.Redis.Client

/-!
A client of a server that fails no command. Each request is answered with the reply to its
command, and the commands of a transaction are run together, with nothing in between.
-/

namespace ReliableQueue.Redis

namespace Server

variable {s : Server} {t : Transaction}

theorem serve_of_quiet (h : s.failures = []) (via : Connection) (r : Request) :
    s.serve via r = s.accept via r := by
  simp [serve, takeFailure, h]

theorem accept_command (closed : s.transaction = none) (via : Connection) (command : Command) :
    s.accept via (.command command) =
      (.one (s.keys.run command).1, { s with keys := (s.keys.run command).2 }) := by
  have none : (if via = .main then s.transaction else none) = none := by rw [closed, ite_self]
  unfold accept
  simp only [none]

theorem accept_multi (closed : s.transaction = none) :
    s.accept .main .multi = (.one .ok, { s with transaction := some {} }) := by
  unfold accept
  simp only [closed, ite_self]

theorem accept_queued (opened : s.transaction = some t) (command : Command) :
    s.accept .main (.command command) = (.one .queued,
      { s with transaction := some { t with queued := t.queued ++ [command] } }) := by
  unfold accept
  simp only [if_pos, opened]

theorem accept_exec {queued : List Command} (opened : s.transaction = some { queued }) :
    s.accept .main .exec = (.all (runAll s.keys queued).1,
      { s with keys := (runAll s.keys queued).2, transaction := none }) := by
  unfold accept
  simp only [if_pos, opened, if_neg Bool.false_ne_true]

end Server

namespace Client

variable {c : Client}

/-- No error is to be given and no transaction is open. -/
structure Ready (c : Client) : Prop where
  quiet : c.server.failures = []
  closed : c.server.transaction = none

/-- The client after a server's keys have changed and some requests were sent. -/
theorem Ready.of_keys (h : c.Ready) (keys : Keyspace) (sent : List (Connection × Request)) :
    Ready ⟨{ c.server with keys }, sent⟩ := ⟨h.quiet, h.closed⟩

theorem Ready.send (h : c.Ready) (via : Connection) (command : Command) :
    c.send via (.command command) = (.one (c.server.keys.run command).1,
      ⟨{ c.server with keys := (c.server.keys.run command).2 },
        (via, .command command) :: c.sent⟩) := by
  rw [Client.send, Server.serve_of_quiet h.quiet, Server.accept_command h.closed]

/-- The commands of a transaction that is open are queued and then run together. -/
theorem sendAll_queued (commands : List Command) (queued : List Command)
    (quiet : c.server.failures = [])
    (opened : c.server.transaction = some { queued }) :
    ∃ sent, c.sendAll (commands.map .command ++ [.exec]) =
      (commands.map (fun _ => .one .queued) ++
          [.all (Server.runAll c.server.keys (queued ++ commands)).1],
        ⟨{ c.server with
            keys := (Server.runAll c.server.keys (queued ++ commands)).2, transaction := none },
          sent⟩) := by
  induction commands generalizing c queued with
  | nil =>
      have ran : c.server.serve .main .exec =
          (.all (Server.runAll c.server.keys queued).1, { c.server with
            keys := (Server.runAll c.server.keys queued).2, transaction := none }) := by
        rw [Server.serve_of_quiet quiet, Server.accept_exec opened]
      refine ⟨(.main, .exec) :: c.sent, ?_⟩
      simp only [List.map_nil, List.nil_append, List.append_nil, sendAll, send, ran]
  | cons command rest ih =>
      have put : c.server.serve .main (.command command) = (.one .queued, { c.server with
          transaction := some { queued := queued ++ [command] } }) := by
        rw [Server.serve_of_quiet quiet, Server.accept_queued opened]
      obtain ⟨sent, run⟩ := ih
        (c := ⟨{ c.server with transaction := some { queued := queued ++ [command] } },
          (.main, .command command) :: c.sent⟩) (queued ++ [command]) quiet rfl
      refine ⟨sent, ?_⟩
      rw [List.append_assoc, List.singleton_append] at run
      simp only [List.map_cons, List.cons_append, sendAll, send, put, run]

/-- A command whose reply is no error is answered with what is read from the reply. -/
theorem Ready.ask {α : Type} (h : c.Ready) (command : Command) {reply : Reply} {keys : Keyspace}
    (ran : c.server.keys.run command = (reply, keys)) (fine : reply.error? = none)
    (via : Connection) (read : Reply → Except Error α) :
    c.ask via command read = ((read reply).mapError fun e => .redis e.message,
      ⟨{ c.server with keys }, (via, .command command) :: c.sent⟩) := by
  rw [Client.ask, h.send, ran]
  cases reply with
  | error text => cases fine
  | _ => rfl

theorem sendAll_transaction (h : c.Ready) (commands : List Store.Command) :
    ∃ sent, c.sendAll (transaction commands) =
      (.one .ok :: commands.map (fun _ => .one .queued) ++
          [.all (Server.runAll c.server.keys (commands.map .ofStore)).1],
        ⟨{ c.server with keys := (Server.runAll c.server.keys (commands.map .ofStore)).2 },
          sent⟩) := by
  have begun : c.server.serve .main .multi =
      (.one .ok, { c.server with transaction := some {} }) := by
    rw [Server.serve_of_quiet h.quiet, Server.accept_multi h.closed]
  obtain ⟨sent, run⟩ := sendAll_queued
    (c := ⟨{ c.server with transaction := some {} }, (.main, .multi) :: c.sent⟩)
    (commands.map .ofStore) [] h.quiet rfl
  refine ⟨sent, ?_⟩
  simp only [List.map_map, List.nil_append] at run
  simp only [transaction, List.cons_append, sendAll, send, begun]
  refine (congrArg (fun a : List Answer × Client => (.one .ok :: a.1, a.2)) run).trans ?_
  simp only [h.closed]
  rfl

/-- A batch whose commands are all answered without an error is run as a whole. -/
theorem Ready.exec (h : c.Ready) (batch : Store.Batch)
    (fine : ∀ r ∈ (Server.runAll c.server.keys (batch.commands.map .ofStore)).1,
      r.error? = none) :
    ∃ sent, c.exec batch = (.ok (), ⟨{ c.server with
      keys := (Server.runAll c.server.keys (batch.commands.map .ofStore)).2 }, sent⟩) := by
  cases empty : batch.isEmpty with
  | true =>
      have none : batch.commands = [] := List.isEmpty_iff.mp empty
      refine ⟨c.sent, ?_⟩
      rw [Client.exec, if_pos empty, none]
      rfl
  | false =>
      obtain ⟨sent, run⟩ := sendAll_transaction h batch.commands
      refine ⟨sent, ?_⟩
      have unaborted : abortion? (.one .ok :: batch.commands.map (fun _ => .one .queued) ++
          [.all (Server.runAll c.server.keys (batch.commands.map .ofStore)).1]) = none := by
        simp [abortion?, Reply.error?]
      have unfailed : inner? (.one .ok :: batch.commands.map (fun _ => .one .queued) ++
          [.all (Server.runAll c.server.keys (batch.commands.map .ofStore)).1]) = none := by
        simpa [inner?] using fine
      rw [Client.exec, empty, if_neg Bool.false_ne_true, run]
      simp only [unaborted, unfailed]

end Client

end ReliableQueue.Redis
