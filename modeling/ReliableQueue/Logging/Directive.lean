import ReliableQueue.Logging.Entry
import ReliableQueue.Logging.Pattern
import ReliableQueue.Text.Alphanumeric

/-!
Directives of a filter: `target[span{field=value}]=level`, of which any part may be left
out. A text without brackets and equals sign is a level if it can be, and a target if not.
-/

namespace ReliableQueue.Logging

/-- The least severe level that is shown, if any is. -/
abbrev Threshold := Option Level

namespace Threshold

/-- The thresholds that go by a name, each at the place that is its number. -/
def named : List (String × Threshold) :=
  [("off", none), ("error", some .error), ("warn", some .warn), ("info", some .info),
    ("debug", some .debug), ("trace", some .trace)]

/-- A threshold by its name, in any case, or by its number. -/
def ofText? (s : String) : Option Threshold :=
  match Text.word64? s with
  | some n => (named[n]?).map Prod.snd
  | none => named.lookup (s.map Char.toLower)

def admits (t : Threshold) (level : Level) : Bool :=
  t.any fun least => level.verbosity ≤ least.verbosity

end Threshold

/-- A field that an event must have, perhaps with a value. -/
structure FieldPattern where
  name : String
  hasValue : Bool := false
deriving DecidableEq, Repr

/-- The name of a field and, after an equals sign, a pattern for its value. What follows
a second such sign does not count. -/
def FieldPattern.ofText? (s : List Char) : Option FieldPattern :=
  let name := String.ofList (s.takeWhile (· ≠ '='))
  match s.dropWhile (· ≠ '=') with
  | [] => some { name }
  | _ :: rest =>
      if Pattern.isWellFormed (rest.takeWhile (· ≠ '=')) then some { name, hasValue := true }
      else none

structure Directive where
  /-- How the targets begin. -/
  target : Option String := none
  /-- The span that an event must lie in. -/
  span : Option String := none
  field : Option FieldPattern := none
  threshold : Threshold := some .trace
deriving DecidableEq, Repr

namespace Directive

/-- Why a text is no directive. -/
inductive Error where
  | malformed
  | level
  | field
deriving DecidableEq, Repr

def Error.message : Error → String
  | .malformed => "invalid filter directive"
  | .level => "error parsing level filter: expected one of \"off\", \"error\", \"warn\", "
      ++ "\"info\", \"debug\", \"trace\", or a number 0-5"
  | .field => "invalid field filter: error building NFA"

/-- Where the reading of a directive stands; a part that was begun has a start. -/
inductive Stage where
  | start
  | levelOrTarget (first : Nat)
  | span (first : Nat)
  | field (first : Nat)
  /-- After a field. -/
  | fields
  /-- After the closing bracket. -/
  | target
  | level (first : Nat)
deriving DecidableEq, Repr

def dropBytes : Nat → List Char → List Char
  | n + 1, c :: cs => dropBytes (n + 1 - c.utf8Size) cs
  | _, cs => cs

def takeBytes : Nat → List Char → List Char
  | n + 1, c :: cs => c :: takeBytes (n + 1 - c.utf8Size) cs
  | _, _ => []

/-- The part of a text between two byte positions. -/
def slice (text : List Char) (first last : Nat) : List Char :=
  takeBytes (last - first) (dropBytes first text)

/-- Reads the character at byte `i`; `text` is what the positions refer to. -/
def Stage.next (text : List Char) (d : Directive) (s : Stage) (i : Nat) (c : Char) :
    Except Error (Directive × Stage) :=
  let part (first : Nat) : List Char := slice text first i
  let name (first : Nat) : Option String := some (String.ofList (part first))
  match s with
  | .start =>
      if c = '[' then .ok (d, .span (i + 1))
      else if c = '-' || c = ':' || c = '_' || Text.isAlphanumeric c then
        .ok (d, .levelOrTarget i)
      else .error .malformed
  | .levelOrTarget first =>
      if c = '=' then .ok ({ d with target := name first }, .level (i + 1))
      else if c = '[' then .ok ({ d with target := name first }, .span (i + 1))
      else .ok (d, s)
  | .span first =>
      if c = ']' then .ok ({ d with span := name first }, .target)
      else if c = '\x7b' then
        .ok ({ d with span := if (part first).isEmpty then none else name first }, .field (i + 1))
      else .ok (d, s)
  | .field first =>
      if c = '\x7d' then
        if (part first).isEmpty then .error .malformed
        else
          match FieldPattern.ofText? (part first) with
          | some pattern => .ok ({ d with field := some pattern }, .fields)
          | none => .error .field
      else .ok (d, s)
  | .fields => if c = ']' then .ok (d, .target) else .error .malformed
  | .target => if c = '=' then .ok (d, .level (i + 1)) else .error .malformed
  | .level _ => .ok (d, s)

/-- What a text reads as that ends at some stage. -/
def Stage.finish (text : List Char) (d : Directive) : Stage → Except Error Directive
  | .levelOrTarget first =>
      let part := String.ofList (dropBytes first text)
      match Threshold.ofText? part with
      | some threshold => .ok { d with threshold }
      | none => .ok { d with target := some part }
  | .level first =>
      let part := String.ofList (dropBytes first text)
      if part.isEmpty then .ok d
      else
        match Threshold.ofText? part with
        | some threshold => .ok { d with threshold }
        | none => .error .level
  | .target => .ok d
  | .start | .span _ | .field _ | .fields => .error .malformed

/-- Reads the characters from byte `i` on. -/
def Stage.run (text : List Char) (d : Directive) (s : Stage) (i : Nat) :
    List Char → Except Error Directive
  | [] => s.finish text d
  | c :: cs =>
    match s.next text d i c with
    | .ok (d, s) => Stage.run text d s (i + c.utf8Size) cs
    | .error e => .error e

/-- The directive in a text. Blanks at the ends are skipped, but positions count from the
start of the text as it is given. -/
def ofText (s : String) : Except Error Directive :=
  Stage.run s.toList {} .start 0 (Text.trim s.toList)

/-- Whether the directive is about events in some span, of which there are none here. -/
def isForSpans (d : Directive) : Bool := d.span.isSome || d.field.any (·.hasValue)

/-- Whether the directive decides about a target's event with such fields. -/
def covers (d : Directive) (target : String) (fields : List String) : Bool :=
  !d.isForSpans && d.target.all (target.startsWith ·) && d.field.all (fields.contains ·.name)

/-- What tells apart directives that decide about one event: a longer target, then a
field, then the later name. -/
def outranks (a b : Directive) : Bool :=
  let length (d : Directive) : Nat := d.target.elim 0 (·.utf8ByteSize + 1)
  if length a ≠ length b then length b < length a
  else
    match a.field, b.field with
    | some x, some y => decide (y.name < x.name)
    | some _, none => true
    | none, _ => false

end Directive

example : (Directive.ofText "queue[\x7bid\x7d]=warn").toOption =
    some { target := some "queue", field := some ⟨"id", false⟩, threshold := some .warn } := by
  decide +kernel

example : (Directive.ofText "queue=loud").toOption = none := by decide +kernel

end ReliableQueue.Logging
