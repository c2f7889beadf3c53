import ReliableQueue.Span

/-!
Numbers of the 64-bit binary floating-point format. A number is its sign and the
remaining 63 bits; these order the numbers of one sign by size, and every finite
number is a whole multiple of `2 ^ -1074`, its count of *units*. Arithmetic is
exact on units followed by one rounding to nearest, ties to even.
-/

namespace ReliableQueue

/-- A number of the format, not-a-numbers included. -/
structure Binary64 where
  negative : Bool
  magnitude : Nat
  magnitude_lt : magnitude < Nat.pow 2 63
deriving DecidableEq

namespace Binary64

/-- Bits of the fraction field. -/
def fractionSize : Nat := Nat.pow 2 52

/-- The magnitude of the infinities; larger magnitudes are not numbers. -/
def infiniteMagnitude : Nat := 2047 * fractionSize

/-- Units in one. -/
def one : Nat := Nat.pow 2 1074

/-- The sign bit followed by the magnitude. -/
def ofBits (n : Nat) : Binary64 :=
  ⟨n / Nat.pow 2 63 % 2 = 1, n % Nat.pow 2 63, Nat.mod_lt _ (by decide)⟩

def bits (x : Binary64) : Nat :=
  (if x.negative then Nat.pow 2 63 else 0) + x.magnitude

def zero : Binary64 := ⟨false, 0, by decide⟩

def infinity (negative : Bool) : Binary64 := ⟨negative, infiniteMagnitude, by decide⟩

/-- The quiet not-a-number that arithmetic answers. -/
def nan : Binary64 := ⟨false, infiniteMagnitude + Nat.pow 2 51, by decide⟩

instance : Inhabited Binary64 := ⟨zero⟩

def isNaN (x : Binary64) : Bool := infiniteMagnitude < x.magnitude

def isInfinite (x : Binary64) : Bool := x.magnitude = infiniteMagnitude

def isFinite (x : Binary64) : Bool := x.magnitude < infiniteMagnitude

/-- The absolute value of a finite number in units. -/
def units (x : Binary64) : Nat :=
  let field := x.magnitude / fractionSize
  let fraction := x.magnitude % fractionSize
  if field = 0 then fraction else (fractionSize + fraction) * Nat.pow 2 (field - 1)

/-- A finite number in units, with its sign. -/
def signedUnits (x : Binary64) : Int :=
  if x.negative then -(x.units : Int) else x.units

/-- `num / den` to the nearest whole number, a half to the even one. -/
def divEven (num den : Nat) : Nat :=
  let q := num / den
  let twice := 2 * (num % den)
  if twice < den then q
  else if den < twice then q + 1
  else q + q % 2

/-- The magnitude nearest to `num / den` units. -/
def roundMagnitude (num den : Nat) : Nat :=
  let shift := (num / den).log2 - 52
  min (shift * fractionSize + divEven num (den * Nat.pow 2 shift)) infiniteMagnitude

/-- The number nearest to `num / den` units in absolute value. -/
def round (negative : Bool) (num den : Nat) : Binary64 :=
  ⟨negative, roundMagnitude num den,
    Nat.lt_of_le_of_lt (Nat.min_le_right _ _) (by decide)⟩

def ofNat (n : Nat) : Binary64 := round false (n * one) 1

def ofInt (i : Int) : Binary64 := round (i < 0) (i.natAbs * one) 1

def neg (x : Binary64) : Binary64 := { x with negative := !x.negative }

def add (x y : Binary64) : Binary64 :=
  if x.isNaN || y.isNaN then nan
  else if x.isInfinite then
    if y.isInfinite && x.negative != y.negative then nan else x
  else if y.isInfinite then y
  else
    let s := x.signedUnits + y.signedUnits
    let negative := if s = 0 then x.negative && y.negative else decide (s < 0)
    round negative s.natAbs 1

def sub (x y : Binary64) : Binary64 := add x y.neg

def mul (x y : Binary64) : Binary64 :=
  let negative := x.negative != y.negative
  if x.isNaN || y.isNaN then nan
  else if x.isInfinite || y.isInfinite then
    if x.magnitude = 0 || y.magnitude = 0 then nan else infinity negative
  else round negative (x.units * y.units) one

def div (x y : Binary64) : Binary64 :=
  let negative := x.negative != y.negative
  if x.isNaN || y.isNaN then nan
  else if x.isInfinite then
    if y.isInfinite then nan else infinity negative
  else if y.isInfinite then { zero with negative }
  else if y.magnitude = 0 then
    if x.magnitude = 0 then nan else infinity negative
  else round negative (x.units * one) y.units

instance : Add Binary64 := ⟨add⟩

instance : Sub Binary64 := ⟨sub⟩

instance : Mul Binary64 := ⟨mul⟩

instance : Div Binary64 := ⟨div⟩

/-- Orders all numbers but the not-a-numbers; the two zeros are equal. -/
def orderKey (x : Binary64) : Int :=
  if x.negative then -(x.magnitude : Int) else x.magnitude

/-- Orders all bit patterns, each of the negative ones below all others. -/
def totalKey (x : Binary64) : Int :=
  if x.negative then -1 - (x.magnitude : Int) else x.magnitude

/-- No not-a-number compares with anything. -/
def le (x y : Binary64) : Bool :=
  !x.isNaN && !y.isNaN && decide (x.orderKey ≤ y.orderKey)

/-- `base` to the whole power `exponent`, by squaring; a negative power is the
reciprocal of the positive one. -/
def power (base : Binary64) (exponent : Int) : Binary64 :=
  let rec go (fuel : Nat) (acc square : Binary64) (n : Nat) : Binary64 :=
    let acc := if n % 2 = 1 then acc * square else acc
    match fuel with
    | 0 => acc
    | fuel + 1 => if n / 2 = 0 then acc else go fuel acc (square * square) (n / 2)
  let r := go exponent.natAbs.log2 (ofNat 1) base exponent.natAbs
  if exponent < 0 then ofNat 1 / r else r

/-- The seconds of a span: whole seconds and fraction are rounded, then added. -/
def ofSpan (d : Span) : Binary64 :=
  ofNat d.seconds + ofNat d.subsecond / ofNat Span.nanosPerSecond

/-- Why a number of seconds is no span. -/
inductive SpanError where
  | negative
  | tooBigOrNaN
deriving DecidableEq, Repr

def SpanError.message : SpanError → String
  | .negative => "cannot convert float seconds to Duration: value is negative"
  | .tooBigOrNaN => "cannot convert float seconds to Duration: value is either too big or NaN"

/-- The span nearest to `x` seconds, in whole nanoseconds. Nothing below zero is near one. -/
def toSpan (x : Binary64) : Except SpanError Span :=
  if x.isNaN then .error .tooBigOrNaN
  else if x.negative && x.magnitude ≠ 0 then .error .negative
  else if x.isInfinite then .error .tooBigOrNaN
  else
    let nanos := divEven (x.units * Span.nanosPerSecond) one
    if UInt64.size * Span.nanosPerSecond ≤ nanos then .error .tooBigOrNaN
    else .ok ⟨nanos⟩

/-- The nearest whole number, a half away from zero, within `0` and `limit`; what
is no number counts as zero. -/
def toNatClamped (x : Binary64) (limit : Nat) : Nat :=
  if x.isNaN || x.negative then 0
  else if x.isInfinite then limit
  else min ((2 * x.units + one) / (2 * one)) limit

example : (ofNat 1).bits = 0x3ff0000000000000 ∧ (ofNat 1 / ofNat 10).bits = 0x3fb999999999999a ∧
    (ofNat (UInt64.size - 1)).bits = 0x43f0000000000000 := by
  decide +kernel

end Binary64

end ReliableQueue
