import ReliableQueue.Config.Error
import ReliableQueue.Config.Layers
import ReliableQueue.Config.Settings
import ReliableQueue.Text.Numeral

/-!
Settings read from merged sources. Scalars are converted where a field wants another
type; a section may also be a list of its fields in order. Members that are no fields
are ignored.
-/

namespace ReliableQueue.Config

namespace Value

/-- How a value is called in the error of a field. -/
def found : Value → String
  | scalar _ .null => "unit value"
  | scalar _ (.truth b) => "boolean `" ++ (if b then "true" else "false") ++ "`"
  | scalar _ (.int i) => "64-bit integer `" ++ toString i ++ "`"
  | scalar _ (.float x) => "floating point `" ++ x.text ++ "`"
  | scalar _ (.text s) => "string " ++ Text.quoted s
  | list .. => "sequence"
  | table .. => "map"

/-- How a value is called in the error of a section. -/
def foundAsSection : Value → String
  | scalar _ (.int i) => "integer `" ++ toString i ++ "`"
  | scalar _ (.float x) =>
      let text := x.text
      let isWhole := x.isFinite && !text.toList.contains '.'
      "floating point `" ++ (if isWhole then text ++ ".0" else text) ++ "`"
  | v => v.found

/-- The error of a value that is not what the field at `key` wants. -/
def mismatch (v : Value) (key expected : String) : Error :=
  let source := match v.origin with
    | some o => " in " ++ o
    | none => ""
  .type v.found expected (" for key `" ++ key ++ "`" ++ source)

def readText (key : String) (v : Value) : Except Error String :=
  match v with
  | scalar _ (.text s) => .ok s
  | scalar _ (.truth b) => .ok (if b then "true" else "false")
  | scalar _ (.int i) => .ok (toString i)
  | scalar _ (.float x) => .ok x.text
  | _ => .error (v.mismatch key "a string")

/-- The largest number of 64 bits. -/
def largestWord : Nat := UInt64.size - 1

def readWord (key : String) (v : Value) : Except Error Nat :=
  match v with
  | scalar _ (.int i) =>
      if i < 0 then .error (v.mismatch key "an unsigned 64 bit or less integer")
      else .ok i.toNat
  | scalar _ (.truth b) => .ok (if b then 1 else 0)
  | scalar _ (.float x) => .ok (x.toNatClamped largestWord)
  | scalar _ (.text s) =>
      let low := Text.lower s
      if low = "true" || low = "on" || low = "yes" then .ok 1
      else if low = "false" || low = "off" || low = "no" then .ok 0
      else
        match Text.word64? s with
        | some n => .ok n
        | none => .error (v.mismatch key "an integer")
  | _ => .error (v.mismatch key "an integer")

def readTruth (key : String) (v : Value) : Except Error Bool :=
  match v with
  | scalar _ (.truth b) => .ok b
  | scalar _ (.int i) => .ok (i ≠ 0)
  | scalar _ (.float x) => .ok (x.magnitude ≠ 0)
  | scalar _ (.text s) =>
      let low := Text.lower s
      if low = "1" || low = "true" || low = "on" || low = "yes" then .ok true
      else if low = "0" || low = "false" || low = "off" || low = "no" then .ok false
      else .error ((scalar v.origin (.text low)).mismatch key "a boolean")
  | _ => .error (v.mismatch key "a boolean")

end Value

/-- A section with its key: its fields by name, or one after the other. -/
structure Section where
  key : String
  fields : List (String × Value) ⊕ List Value

namespace Section

/-- The section in a value; `type` names what it should be. -/
def ofValue (key type : String) : Value → Except Error Section
  | .table _ es => .ok ⟨key, .inl es⟩
  | .list _ vs => .ok ⟨key, .inr vs⟩
  | v => .error (.message ("invalid type: " ++ v.foundAsSection ++ ", expected struct " ++ type))

/-- Reads the field that has a name and a position, if the section has it. -/
def field {α : Type} (s : Section) (position : Nat) (name : String)
    (read : String → Value → Except Error α) : Except Error (Option α) :=
  match s.fields with
  | .inl es =>
      match es.lookup name with
      | none => .ok none
      | some v => (read (s.key ++ "." ++ name) v).map some
  | .inr vs =>
      match vs[position]? with
      | none => .ok none
      | some v => (read (s.key ++ "[" ++ toString position ++ "]") v).map some

/-- The error of a section without its first field. -/
def lacksFirst (s : Section) (name type : String) (count : Nat) : Error :=
  match s.fields with
  | .inl _ => .message ("missing field `" ++ name ++ "`")
  | .inr _ =>
      .message ("invalid length 0, expected struct " ++ type ++ " with " ++ toString count
        ++ (if count = 1 then " element" else " elements"))

end Section

def RedisSettings.read (v : Value) : Except Error RedisSettings := do
  let s ← Section.ofValue "redis" "RedisConfig" v
  match ← s.field 0 "url" Value.readText with
  | some url => return { url }
  | none => throw (s.lacksFirst "url" "RedisConfig" 1)

def QueueSettings.read (v : Value) : Except Error QueueSettings := do
  let s ← Section.ofValue "queue" "QueueConfig" v
  let name ← s.field 0 "name" Value.readText
  let workers ← s.field 1 "workers" Value.readWord
  let bufferSize ← s.field 2 "buffer_size" Value.readWord
  let timeout ← s.field 3 "execution_timeout_secs" Value.readWord
  let poll ← s.field 4 "poll_interval_ms" Value.readWord
  match name with
  | none => throw (s.lacksFirst "name" "QueueConfig" 5)
  | some name =>
      let d : QueueSettings := { name }
      return { name
               workers := workers.getD d.workers
               bufferSize := bufferSize.getD d.bufferSize
               executionTimeoutSeconds := timeout.getD d.executionTimeoutSeconds
               pollIntervalMillis := poll.getD d.pollIntervalMillis }

def RecoverySettings.read (v : Value) : Except Error RecoverySettings := do
  let s ← Section.ofValue "recovery" "RecoveryConfig" v
  let enabled ← s.field 0 "enabled" Value.readTruth
  let interval ← s.field 1 "interval_secs" Value.readWord
  let maxAge ← s.field 2 "max_age_secs" Value.readWord
  let d : RecoverySettings := {}
  return { enabled := enabled.getD d.enabled
           intervalSeconds := interval.getD d.intervalSeconds
           maxAgeSeconds := maxAge.getD d.maxAgeSeconds }

def LoggingSettings.read (v : Value) : Except Error LoggingSettings := do
  let s ← Section.ofValue "logging" "LoggingConfig" v
  let filter ← s.field 0 "filter" Value.readText
  let json ← s.field 1 "json" Value.readTruth
  let d : LoggingSettings := {}
  return { filter := filter.getD d.filter, json := json.getD d.json }

/-- Reads what is there, in the order of the sections, before it asks for what is not. -/
def Settings.read (root : Value) : Except Error Settings := do
  let section? {α : Type} (name : String) (read : Value → Except Error α) :
      Except Error (Option α) :=
    match root.get? name with
    | none => .ok none
    | some v => (read v).map some
  let redis ← section? "redis" RedisSettings.read
  let queue ← section? "queue" QueueSettings.read
  let recovery ← section? "recovery" RecoverySettings.read
  let logging ← section? "logging" LoggingSettings.read
  match redis, queue with
  | none, _ => throw (.message "missing field `redis`")
  | _, none => throw (.message "missing field `queue`")
  | some redis, some queue =>
      return { redis, queue, recovery := recovery.getD {}, logging := logging.getD {} }

end ReliableQueue.Config
