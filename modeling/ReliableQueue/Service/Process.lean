import ReliableQueue.Config.Loading
import ReliableQueue.Logging.Filter
import ReliableQueue.Redis.Client
import ReliableQueue.Service.StartUp

/-!
The worker process as it is seen from outside: what it logs and writes while it starts,
and how it ends if it cannot.
-/

namespace ReliableQueue.Service

open Logging (Entry Filter Level Record)
open Queue (Cluster)

/-- What a process does until its queue is started or it gives up. -/
structure Launch where
  /-- Earliest first. -/
  log : List Record
  result : Except Error Unit
  /-- The queue and what runs on its behalf, if its store was reached. -/
  cluster : Option Cluster

namespace Launch

/-- The part of the program that logs a start. -/
def mainTarget : String := "taskqueue_worker"

def storeTarget : String := "taskqueue::store::redis"

def starting (s : Config.Settings) : Record :=
  ⟨mainTarget,
    { level := .info
      message := "Starting task queue worker"
      fields := [("queue", .text s.queue.name), ("workers", .number s.queue.workers)] }⟩

def storeReady : Record :=
  ⟨storeTarget, { level := .info, message := "Redis task store initialized" }⟩

def recoveryDisabled : Record :=
  ⟨mainTarget, { level := .info, message := "Stale task recovery disabled" }⟩

def gaveUp (e : Error) : Record :=
  ⟨mainTarget,
    { level := .error
      message := "Worker exited with error"
      fields :=
        [("code", .quoted e.code), ("fatal", .truth e.isFatal), ("error", .text e.message)] }⟩

/-- The store behind the settings' address. -/
def connect (s : Config.Settings) (n : Redis.Network) : Except Store.Error Store.Memory :=
  match Redis.Client.connect n s.redis.url with
  | .ok client => .ok { contents := client.server.keys.contents }
  | .error e => .error (.redis e.message)

def ofSettings (s : Config.Settings) (n : Redis.Network) (epoch : Nat := 0) : Launch :=
  let store := connect s n
  let (result, cluster) := start s epoch store
  let log := match store, result with
    | .error _, .error e => [starting s, gaveUp e]
    | .ok _, .error e => [starting s, storeReady, gaveUp e]
    | _, .ok _ =>
        [starting s, storeReady] ++ if s.recovery.enabled then [] else [recoveryDisabled]
  { log, result, cluster }

end Launch

/-- What is seen of a process. -/
structure Report where
  /-- The exit code, unless the process runs on. -/
  code : Option Nat
  /-- Lines written for diagnosis. -/
  complaints : List String
  /-- Whether log lines are JSON objects. -/
  asJson : Bool := false
  log : List Record := []

namespace Report

def logLines (r : Report) : List String := r.log.map (·.line r.asJson)

/-- The distinct log lines in the order of their text. -/
def summary (r : Report) : List String := r.logLines.eraseDups.mergeSort (fun a b => decide (a ≤ b))

def failure (e : Error) : String := "Error: " ++ e.debug

/-- The name of the variable that overrides the filter of the settings. -/
def filterVariable : String := "RUST_LOG"

/-- What is said of a part of a filter that makes no sense. -/
def ignored (directive : String) (e : Logging.Directive.Error) : String :=
  "ignoring `" ++ directive ++ "`: " ++ e.message

/-- The filter that holds and what was left out of its text. A variable counts only if
all of it makes sense. -/
def filter (env : Config.Environment) (s : Config.LoggingSettings) : Filter × List String :=
  match (env.lookup filterVariable).bind Filter.ofText? with
  | some f => (f, [])
  | none => (.lenient s.filter, (Filter.leftOut s.filter).map fun (d, e) => ignored d e)

/-- A process in a directory, with its variables. -/
def ofProcess (d : Config.Directory) (env : Config.Environment) (n : Redis.Network) : Report :=
  match Config.Settings.load d env with
  | .error e => { code := some 1, complaints := [failure (.ofConfig e)] }
  | .ok s =>
      let (f, leftOut) := filter (Config.Settings.environment d env) s.logging
      let launch := Launch.ofSettings s n
      let shown := launch.log.filter f.shows
      let (code, complaints) : Option Nat × List String := match launch.result with
        | .error e => (some 1, leftOut ++ [failure e])
        | .ok _ => (none, leftOut)
      { code, complaints, asJson := s.logging.json, log := shown }

end Report

end ReliableQueue.Service
