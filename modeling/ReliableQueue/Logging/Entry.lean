import ReliableQueue.Text.Json
import ReliableQueue.Text.Quoted

/-!
Log entries: a level, a message and named fields. Entries of one instant are shown
in the order of their written form.
-/

namespace ReliableQueue.Logging

inductive Level where
  | error | warn | info | debug | trace
deriving DecidableEq, Repr

namespace Level

def name : Level → String
  | .error => "ERROR"
  | .warn => "WARN"
  | .info => "INFO"
  | .debug => "DEBUG"
  | .trace => "TRACE"

/-- Least verbose first. -/
def verbosity : Level → Nat
  | .error => 1
  | .warn => 2
  | .info => 3
  | .debug => 4
  | .trace => 5

def all : List Level := [.error, .warn, .info, .debug, .trace]

end Level

inductive Value where
  | text (s : String)
  /-- A text that plain lines show in quotes. -/
  | quoted (s : String)
  | number (n : Nat)
  | truth (b : Bool)
deriving DecidableEq, Repr

namespace Value

def json : Value → String
  | text s | quoted s => Text.jsonString s
  | number n => toString n
  | truth b => if b then "true" else "false"

/-- The form of a value in plain lines. -/
def plain : Value → String
  | text s => s
  | quoted s => Text.quoted s
  | number n => toString n
  | truth b => if b then "true" else "false"

end Value

structure Entry where
  level : Level
  message : String
  fields : List (String × Value) := []
deriving DecidableEq, Repr

namespace Entry

/-- The fields as a JSON object, by name. -/
def fieldsJson (fields : List (String × Value)) : String :=
  let sorted := fields.mergeSort (fun a b => decide (a.1 ≤ b.1))
  "\x7b" ++ String.intercalate "," (sorted.map fun f => Text.jsonString f.1 ++ ":" ++ f.2.json)
    ++ "\x7d"

/-- The entry at millisecond `t` as a JSON list. -/
def json (t : Nat) (e : Entry) : String :=
  "[" ++ toString t ++ "," ++ Text.jsonString e.level.name ++ "," ++ Text.jsonString e.message
    ++ "," ++ fieldsJson e.fields ++ "]"

end Entry

/-- An entry with the part of the program that it comes from. -/
structure Record where
  target : String
  entry : Entry
deriving DecidableEq, Repr

namespace Record

/-- The record as a plain line. -/
def plain (r : Record) : String :=
  r.entry.level.name ++ " " ++ r.target ++ ": " ++ r.entry.message
    ++ String.join (r.entry.fields.map fun f => " " ++ f.1 ++ "=" ++ f.2.plain)

/-- The record as a JSON object; its message is one of its fields. -/
def json (r : Record) : String :=
  "\x7b\"fields\":" ++ Entry.fieldsJson (("message", .text r.entry.message) :: r.entry.fields)
    ++ ",\"level\":" ++ Text.jsonString r.entry.level.name
    ++ ",\"target\":" ++ Text.jsonString r.target ++ "\x7d"

/-- The line that shows a record. -/
def line (asJson : Bool) (r : Record) : String := if asJson then r.json else r.plain

end Record

/-- Entries with their milliseconds, by time and then by written form. -/
def arrange (entries : List (Nat × Entry)) : List (Nat × Entry) :=
  let keyed := entries.map fun (t, e) => (t, e.json t, e)
  let before (a b : Nat × String × Entry) : Bool :=
    decide (a.1 < b.1) || (a.1 = b.1 && decide (a.2.1 ≤ b.2.1))
  (keyed.mergeSort before).map fun (t, _, e) => (t, e)

end ReliableQueue.Logging
