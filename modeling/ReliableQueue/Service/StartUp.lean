import ReliableQueue.Config.Settings
import ReliableQueue.Queue.Cluster
import ReliableQueue.Service.Error

/-!
How a worker process starts: it connects to the store, builds its queue, checks that
recovery is safe, sets the sweeper going and starts the queue. The settings are refused
before the store is touched.
-/

namespace ReliableQueue.Service

open Queue (Cluster Handle)

/-- The queue of a worker, with its sweeper and the call that starts it, unless it is refused. -/
def openQueue (s : Config.Settings) (c : Cluster) : Except Queue.Error Unit × Cluster :=
  match Handle.build s.queue.name true true s.queue.options with
  | .error e => (.error e, c)
  | .ok h =>
      let number := c.handles.length
      let (shutdown, c) := (c.addHandle h).newToken
      let swept : Except Queue.Error Cluster :=
        if s.recovery.enabled then c.addSweeper number shutdown s.recovery.sweeper else .ok c
      match swept with
      | .error e => (.error e, c)
      | .ok c => (.ok (), c.invoke number (.start shutdown))

/-- A start on a store that was or was not reached, and the cluster on a store that was. -/
def start (s : Config.Settings) (epoch : Nat) (store : Except Store.Error Store.Memory) :
    Except Error Unit × Option Cluster :=
  match store with
  | .error e => (.error (.redis e.message), none)
  | .ok memory =>
      let (result, c) := openQueue s { epoch, memory }
      (result.mapError fun e => .config e.message, some c)

end ReliableQueue.Service
