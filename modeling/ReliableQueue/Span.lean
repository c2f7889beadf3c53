/-!
Lengths of time in whole nanoseconds and their written form: the largest unit
that is not zero, then the rest as a fraction without trailing zeros.
-/

namespace ReliableQueue

/-- A length of time. -/
structure Span where
  nanos : Nat
deriving DecidableEq, Inhabited, Repr

namespace Span

def nanosPerSecond : Nat := 1000000000

def nanosPerMilli : Nat := 1000000

def zero : Span := ⟨0⟩

def ofSeconds (n : Nat) : Span := ⟨n * nanosPerSecond⟩

def ofMillis (n : Nat) : Span := ⟨n * nanosPerMilli⟩

def ofParts (seconds nanos : Nat) : Span := ⟨seconds * nanosPerSecond + nanos⟩

/-- Whole seconds. -/
def seconds (d : Span) : Nat := d.nanos / nanosPerSecond

/-- Nanoseconds past the whole seconds. -/
def subsecond (d : Span) : Nat := d.nanos % nanosPerSecond

/-- Whole milliseconds. -/
def millis (d : Span) : Nat := d.nanos / nanosPerMilli

def isZero (d : Span) : Bool := d.nanos = 0

instance : LE Span := ⟨fun a b => a.nanos ≤ b.nanos⟩

instance : LT Span := ⟨fun a b => a.nanos < b.nanos⟩

instance (a b : Span) : Decidable (a ≤ b) := inferInstanceAs (Decidable (a.nanos ≤ b.nanos))

instance (a b : Span) : Decidable (a < b) := inferInstanceAs (Decidable (a.nanos < b.nanos))

/-- The digits of `part` below `unit`, padded on the left and cut after the last
digit that is not zero; `unit` is a power of ten. -/
def fraction (part unit : Nat) : String :=
  let digits := (toString (unit + part)).toList.drop 1
  let kept := (digits.reverse.dropWhile (· = '0')).reverse
  if kept.isEmpty then "" else String.ofList ('.' :: kept)

/-- Such as `1.05s`, `100ms`, `1.5µs` and `0ns`. -/
def text (d : Span) : String :=
  let n := d.nanos
  let written (unit : Nat) (name : String) :=
    toString (n / unit) ++ fraction (n % unit) unit ++ name
  if nanosPerSecond ≤ n then written nanosPerSecond "s"
  else if nanosPerMilli ≤ n then written nanosPerMilli "ms"
  else if 1000 ≤ n then written 1000 "µs"
  else written 1 "ns"

example : (ofMillis 1050).text = "1.05s" ∧ (ofMillis 100).text = "100ms" ∧
    (⟨1500⟩ : Span).text = "1.5µs" ∧ zero.text = "0ns" := by
  decide +kernel

end Span

end ReliableQueue
