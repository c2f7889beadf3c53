import ReliableQueue.Binary64.Decimal

/-!
Numbers written out in text: whole numbers with an optional sign, and decimals with an
optional fraction and exponent. Nothing else may stand in the text.
-/

namespace ReliableQueue.Text

def isDigit (c : Char) : Bool := '0' ≤ c && c ≤ '9'

def digitsValue (ds : List Char) : Nat :=
  ds.foldl (fun n c => n * 10 + (c.toNat - '0'.toNat)) 0

/-- The value of digits alone, at least one. -/
def natOfDigits? (ds : List Char) : Option Nat :=
  if ds.isEmpty || !ds.all isDigit then none else some (digitsValue ds)

/-- An unsigned 64-bit number; a plus sign is allowed. -/
def word64? (s : String) : Option Nat :=
  let ds := match s.toList with
    | '+' :: ds => ds
    | ds => ds
  (natOfDigits? ds).filter (· < UInt64.size)

/-- A signed 64-bit number. -/
def int64? (s : String) : Option Int :=
  let value : Option Int := match s.toList with
    | '+' :: ds => (natOfDigits? ds).map Int.ofNat
    | '-' :: ds => (natOfDigits? ds).map fun n => -(n : Int)
    | ds => (natOfDigits? ds).map Int.ofNat
  value.filter fun i => -(Nat.pow 2 63 : Int) ≤ i ∧ i < Nat.pow 2 63

/-- The sign of a number and what follows it. -/
def splitSign : List Char → Bool × List Char
  | '+' :: cs => (false, cs)
  | '-' :: cs => (true, cs)
  | cs => (false, cs)

/-- The exponent that ends a decimal, or nothing at all. -/
def exponent? : List Char → Option Int
  | [] => some 0
  | c :: cs =>
    if c = 'e' || c = 'E' then
      let (negative, ds) := splitSign cs
      (natOfDigits? ds).map fun n => if negative then -(n : Int) else n
    else none

/-- A number without its sign: digits with or without a fraction, then an exponent. -/
def unsignedDecimal? (negative : Bool) (cs : List Char) : Option Binary64 :=
  let whole := cs.takeWhile isDigit
  let (fraction, tail) := match cs.dropWhile isDigit with
    | '.' :: rest => (rest.takeWhile isDigit, rest.dropWhile isDigit)
    | rest => ([], rest)
  if whole.isEmpty && fraction.isEmpty then none
  else
    (exponent? tail).map fun e =>
      .ofDecimal negative (digitsValue (whole ++ fraction)) (e - fraction.length)

/-- A decimal, or one of the words for infinity and not-a-number in any case. -/
def float? (s : String) : Option Binary64 :=
  let (negative, cs) := splitSign s.toList
  let word := String.ofList (cs.map Char.toLower)
  if word = "inf" || word = "infinity" then some (.infinity negative)
  else if word = "nan" then some .nan
  else unsignedDecimal? negative cs

end ReliableQueue.Text
