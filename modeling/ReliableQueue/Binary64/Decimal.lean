import ReliableQueue.Binary64

/-!
Decimal text of binary numbers: the number nearest to a decimal, the fewest digits
that read back as the same number, and their positional form.
-/

namespace ReliableQueue.Binary64

/-- The number nearest to `digits * 10 ^ exponent`. Decimals beyond the range of
the format are cut off before a power is formed. -/
def ofDecimal (negative : Bool) (digits : Nat) (exponent : Int) : Binary64 :=
  let places : Int := (Nat.toDigits 10 digits).length
  if digits = 0 then { zero with negative }
  else if 400 < exponent + places then infinity negative
  else if exponent + places < -400 then { zero with negative }
  else if 0 ≤ exponent then round negative (digits * Nat.pow 10 exponent.toNat * one) 1
  else round negative (digits * one) (Nat.pow 10 (-exponent).toNat)

/-- The place of the first decimal digit of `units`, as a power of ten: the largest
`p` among `-324 .. 308` with `10 ^ p` at most the value. -/
def leadingPlace (units : Nat) : Int :=
  let fits (p : Int) : Bool :=
    if 0 ≤ p then decide (Nat.pow 10 p.toNat * one ≤ units)
    else decide (one ≤ units * Nat.pow 10 (-p).toNat)
  -- `2 ^ b` units are between `10 ^ guess` and `10 ^ (guess + 2)`.
  let b : Int := (units.log2 : Int) - 1074
  let guess : Int := b * 30103 / 100000
  if fits (guess + 1) then guess + 1 else if fits guess then guess else guess - 1

/-- The decimals with `count` digits on either side of the value, in units of
`10 ^ place`. -/
def neighbours (units : Nat) (place : Int) : Nat × Nat :=
  let below :=
    if 0 ≤ place then units / (Nat.pow 10 place.toNat * one)
    else units * Nat.pow 10 (-place).toNat / one
  (below, below + 1)

/-- Whether the lower neighbour is the nearer one, an exact half counting if it is even. -/
def lowerIsNearer (units : Nat) (place : Int) (below : Nat) : Bool :=
  let (num, den) :=
    if 0 ≤ place then (units, Nat.pow 10 place.toNat * one)
    else (units * Nat.pow 10 (-place).toNat, one)
  let twice := 2 * (num - below * den)
  twice < den || (twice = den && below % 2 = 0)

/-- The fewest digits that read back as `x`, with the power of ten of the last one. -/
def shortest (x : Binary64) : Nat × Int :=
  let units := x.units
  let top := leadingPlace units
  let reads (digits : Nat) (place : Int) : Bool :=
    (ofDecimal false digits place).magnitude = x.magnitude
  let rec search (fuel : Nat) (place : Int) : Nat × Int :=
    let (low, high) := neighbours units place
    match reads low place, reads high place with
    | true, true => (if lowerIsNearer units place low then low else high, place)
    | true, false => (low, place)
    | false, true => (high, place)
    | false, false =>
      match fuel with
      | 0 => (low, place)
      | fuel + 1 => search fuel (place - 1)
  if units = 0 then (0, 0) else search 17 top

/-- Digits in positional form, never with an exponent. -/
def positional (digits : Nat) (place : Int) : String :=
  let ds := Nat.toDigits 10 digits
  if 0 ≤ place then
    String.ofList (ds ++ List.replicate (if digits = 0 then 0 else place.toNat) '0')
  else
    let after := (-place).toNat
    let padded := List.replicate (after + 1 - ds.length) '0' ++ ds
    let (whole, rest) := padded.splitAt (padded.length - after)
    let kept := (rest.reverse.dropWhile (· = '0')).reverse
    String.ofList (if kept.isEmpty then whole else whole ++ '.' :: kept)

/-- The fewest digits that read back, in positional form. -/
def text (x : Binary64) : String :=
  if x.isNaN then "NaN"
  else
    let sign := if x.negative then "-" else ""
    if x.isInfinite then sign ++ "inf"
    else
      let (digits, place) := x.shortest
      sign ++ positional digits place


end ReliableQueue.Binary64
