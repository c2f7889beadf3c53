import ReliableQueue.Text.CharSet
import ReliableQueue.Text.Numeral
import ReliableQueue.Text.Pieces
import ReliableQueue.Text.Utf8

/-!
Hosts of addresses. Sixteen bytes in brackets may be a host of any address. Otherwise the
host of a web address is a name or four bytes; that of any other is nearly any text.
-/

namespace ReliableQueue.Redis

/-- What is wrong with an address. -/
inductive UrlFault where
  | noScheme | emptyHost | name | character | fourBytes | sixteenBytes | port
deriving DecidableEq, Repr

def UrlFault.text : UrlFault → String
  | .noScheme => "RelativeUrlWithoutBase"
  | .emptyHost => "EmptyHost"
  | .name => "IdnaError"
  | .character => "InvalidDomainCharacter"
  | .fourBytes => "InvalidIpv4Address"
  | .sixteenBytes => "InvalidIpv6Address"
  | .port => "InvalidPort"

namespace Host

/-! ### Sixteen bytes -/

/-- A byte in decimal digits, without zeros in front. -/
def isDecimalByte (s : List Char) : Bool :=
  (s = ['0'] || s.head? ≠ some '0') && (Text.natOfDigits? s).any (· < UInt8.size)

/-- Two bytes in hexadecimal digits. -/
def isGroup (s : List Char) : Bool :=
  0 < s.length && s.length ≤ 4 && s.all fun c => (Text.hexValue? c).isSome

/-- Four bytes with dots between them. -/
def isDotted (s : List Char) : Bool :=
  let parts := Text.pieces (· = '.') s
  parts.length = 4 && parts.all isDecimalByte

/-- The number of groups in a text with colons between them; four bytes with dots may
stand at its end for two. -/
def groupCount? (mayBeDotted : Bool) (s : List Char) : Option Nat :=
  if s.isEmpty then some 0
  else
    let parts := Text.pieces (· = ':') s
    let isLastDotted := mayBeDotted && parts.getLast?.any isDotted
    let plain := if isLastDotted then parts.dropLast else parts
    if plain.all isGroup then some (plain.length + if isLastDotted then 2 else 0) else none

/-- What stands before and after the first two colons in a row. -/
def splitTwoColons? : List Char → Option (List Char × List Char)
  | ':' :: ':' :: cs => some ([], cs)
  | c :: cs => (splitTwoColons? cs).map fun (before, after) => (c :: before, after)
  | [] => none

/-- Whether a text stands for sixteen bytes: eight groups, or fewer with two colons for
those left out. -/
def isSixteenBytes (s : List Char) : Bool :=
  match splitTwoColons? s with
  | none => groupCount? true s = some 8
  | some (left, right) =>
    match groupCount? false left, groupCount? true right with
    | some a, some b => a + b ≤ 7
    | _, _ => false

/-- A host in brackets. -/
def bracketed (s : List Char) : Except UrlFault String :=
  if s.getLast? = some ']' && isSixteenBytes (s.drop 1).dropLast then .ok (String.ofList s)
  else .error .sixteenBytes

/-! ### Four bytes -/

/-- The digits of a number and their base: zero and x for sixteen, zero for eight. -/
def baseOf (s : List Char) : Nat × List Char :=
  match s with
  | '0' :: c :: rest => if c = 'x' || c = 'X' then (16, rest) else (8, c :: rest)
  | s => (10, s)

/-- A number of any base. -/
def number? (s : List Char) : Option Nat :=
  if s.isEmpty then none
  else
    let (base, digits) := baseOf s
    digits.foldlM (fun n c =>
      match Text.hexValue? c with
      | some d => if d < base then some (n * base + d) else none
      | none => none) 0

/-- The parts between dots; a dot at the end counts for nothing. -/
def dotParts (s : List Char) : List (List Char) :=
  let parts := Text.pieces (· = '.') s
  if parts.getLast? = some [] then parts.dropLast else parts

def endsInNumber (s : List Char) : Bool :=
  match (dotParts s).getLast? with
  | some last => (Text.natOfDigits? last).isSome || (number? last).isSome
  | none => false

/-- Whether a text stands for four bytes: the last of its numbers makes up for those that
are left out. -/
def isFourBytes (s : List Char) : Bool :=
  let parts := dotParts s
  parts.length ≤ 4 &&
    match (parts.mapM number?).map List.reverse with
    | some (last :: others) =>
        last < Nat.pow 2 (8 * (4 - others.length)) && others.all (· < UInt8.size)
    | _ => false

/-! ### Names -/

/-- Whether a character may not stand in a name. -/
def isForbiddenInName (c : Char) : Bool :=
  c.toNat ≤ 0x20 || (0x7f ≤ c.toNat && c.toNat < 0xa0) || Text.isBlank c || c = '\ufffd'
    || "%#/:<>?@[\\]^|".toList.contains c

/-- The host of a web address. -/
def ofWeb (s : List Char) : Except UrlFault String :=
  if s.head? = some '[' then bracketed s
  else
    match Text.textOfBytes? (Text.percentDecode s) with
    | none => .error .name
    | some name =>
      let cs := name.toList
      if cs.any isForbiddenInName then .error .name
      else if cs.isEmpty then .error .emptyHost
      else if endsInNumber cs && !isFourBytes cs then .error .fourBytes
      else .ok name

def isForbidden (c : Char) : Bool :=
  c = '\x00' || " #/:<>?@[\\]^|".toList.contains c

/-- The host of any other address; it may be empty. -/
def ofOther (s : List Char) : Except UrlFault String :=
  if s.head? = some '[' then bracketed s
  else if s.any isForbidden then .error .character
  else .ok (String.ofList s)

/-- Whether a host is known without asking for it. -/
def isKnown (s : String) : Bool :=
  s = "localhost" || s.startsWith "[" || isFourBytes s.toList

end Host

example : Host.isSixteenBytes "::ffff:127.0.0.1".toList = true := by decide +kernel

example : Host.isSixteenBytes "1:2:3:4:5:6:7::8".toList = false := by decide +kernel

example : Host.isFourBytes "0x7f.1".toList = true := by decide +kernel

end ReliableQueue.Redis
