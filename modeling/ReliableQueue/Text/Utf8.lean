import ReliableQueue.Text.Hex

/-!
Bytes as text in UTF-8, and text in which bytes are written as a percent sign with two
hexadecimal digits.
-/

namespace ReliableQueue.Text

/-- The bytes that continue a sequence with a first byte: their number, and the range that
the first of them is in. -/
def continuation (b : UInt8) : Nat × UInt8 × UInt8 :=
  if b < 0xc2 then (0, 0x80, 0xbf)
  else if b < 0xe0 then (1, 0x80, 0xbf)
  else if b = 0xe0 then (2, 0xa0, 0xbf)
  else if b = 0xed then (2, 0x80, 0x9f)
  else if b < 0xf0 then (2, 0x80, 0xbf)
  else if b = 0xf0 then (3, 0x90, 0xbf)
  else if b < 0xf4 then (3, 0x80, 0xbf)
  else if b = 0xf4 then (3, 0x80, 0x8f)
  else (0, 0x80, 0xbf)

/-- The bits of a first byte that belong to its character. -/
def firstBits (b : UInt8) : Nat :=
  if b < 0x80 then b.toNat
  else if b < 0xe0 then b.toNat % 0x20
  else if b < 0xf0 then b.toNat % 0x10
  else b.toNat % 0x08

/-- A sequence under way: the bytes that it still wants, the range of the next one, and
the bits so far. -/
structure Sequence where
  left : Nat := 0
  low : UInt8 := 0x80
  high : UInt8 := 0xbf
  bits : Nat := 0

/-- A byte that begins a sequence; a character, if it is all of one. -/
def beginSequence (b : UInt8) : List (Option Char) × Sequence :=
  match continuation b with
  | (0, _) => ([if b < 0x80 then some (Char.ofNat b.toNat) else none], {})
  | (left + 1, low, high) => ([], { left := left + 1, low, high, bits := firstBits b })

/-- The characters in bytes, and nothing for each part that is none. -/
def decodeFrom (s : Sequence) : Bytes → List (Option Char)
  | [] => if s.left = 0 then [] else [none]
  | b :: rest =>
    match s.left with
    | 0 =>
        let (found, s) := beginSequence b
        found ++ decodeFrom s rest
    | left + 1 =>
        if s.low ≤ b && b ≤ s.high then
          let bits := s.bits * 0x40 + b.toNat % 0x40
          if left = 0 then some (Char.ofNat bits) :: decodeFrom {} rest
          else decodeFrom { left, bits } rest
        else
          let (found, s) := beginSequence b
          none :: found ++ decodeFrom s rest

/-- The text that bytes are, if they are one. -/
def textOfBytes? (bs : Bytes) : Option String :=
  ((decodeFrom {} bs).mapM id).map String.ofList

/-- The text in bytes; each part that is none becomes a replacement character. -/
def textOfBytesLossy (bs : Bytes) : String :=
  String.ofList ((decodeFrom {} bs).map (·.getD '\ufffd'))

def bytesOfChars (cs : List Char) : Bytes := cs.flatMap String.utf8EncodeChar

/-- The bytes of a text with percent signs. -/
def percentDecode : List Char → Bytes
  | [] => []
  | '%' :: a :: b :: rest =>
    match hexValue? a, hexValue? b with
    | some high, some low => UInt8.ofNat (high * 16 + low) :: percentDecode rest
    | _, _ => bytesOfChars ['%'] ++ percentDecode (a :: b :: rest)
  | c :: rest => String.utf8EncodeChar c ++ percentDecode rest
termination_by cs => cs.length

example : textOfBytes? (percentDecode "a%c3%a9%".toList) = some "aé%" := by decide +kernel

example : textOfBytesLossy [0xe2, 0x82, 0x41, 0xff] = "\ufffdA\ufffd" := by decide +kernel

end ReliableQueue.Text
