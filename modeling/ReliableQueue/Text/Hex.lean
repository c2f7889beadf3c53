/-!
Bytes written as pairs of lower-case hexadecimal digits. Reading accepts what
writing produces, and upper-case digits.
-/

namespace ReliableQueue.Text

/-- A sequence of bytes. -/
abbrev Bytes := List UInt8

def hexDigit (n : Nat) : Char :=
  if n < 10 then Char.ofNat ('0'.toNat + n) else Char.ofNat ('a'.toNat + (n - 10))

def hexValue? (c : Char) : Option Nat :=
  if '0' ≤ c && c ≤ '9' then some (c.toNat - '0'.toNat)
  else if 'a' ≤ c && c ≤ 'f' then some (c.toNat - 'a'.toNat + 10)
  else if 'A' ≤ c && c ≤ 'F' then some (c.toNat - 'A'.toNat + 10)
  else none

def hexOfBytes (bs : Bytes) : String :=
  String.ofList (bs.flatMap fun b => [hexDigit (b.toNat / 16), hexDigit (b.toNat % 16)])

/-- The bytes behind pairs of digits. -/
def bytesOfDigits? : List Char → Option Bytes
  | [] => some []
  | [_] => none
  | a :: b :: rest => do
      let high ← hexValue? a
      let low ← hexValue? b
      return UInt8.ofNat (high * 16 + low) :: (← bytesOfDigits? rest)

def bytesOfHex? (s : String) : Option Bytes := bytesOfDigits? s.toList

/-- The number behind hexadecimal digits, at least one. -/
def natOfHex? (s : String) : Option Nat :=
  if s.isEmpty then none
  else s.toList.foldlM (fun n c => (hexValue? c).map (n * 16 + ·)) 0

end ReliableQueue.Text
