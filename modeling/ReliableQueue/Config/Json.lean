import ReliableQueue.Config.Value
import ReliableQueue.Text.Hex
import ReliableQueue.Text.Numeral

/-!
JSON documents as configuration sources. A document is an object; of two members of
one name the later one counts. Whole numbers beyond 64 signed bits are read as the
nearest floating-point numbers, as others are, which must not be infinite.
-/

namespace ReliableQueue.Config.Json

open Text (isDigit hexValue?)

/-- Containers inside each other, the outermost included, are fewer than this. -/
def depthLimit : Nat := 128

def isBlank (c : Char) : Bool := c = ' ' || c = '\t' || c = '\n' || c = '\r'

def skipBlanks (cs : List Char) : List Char := cs.dropWhile isBlank

/-! ### Numbers -/

/-- The exponent of a number, if it has one; `none` if it is not well formed. -/
def readExponent? : List Char → Option (Option Int × List Char)
  | c :: cs =>
    if c = 'e' || c = 'E' then
      let (negative, ds) := Text.splitSign cs
      let digits := ds.takeWhile isDigit
      if digits.isEmpty then none
      else
        let n : Nat := Text.digitsValue digits
        some (some (if negative then -(n : Int) else n), ds.dropWhile isDigit)
    else some (none, c :: cs)
  | [] => some (none, [])

/-- A number whose sign was read. -/
def readNumber? (negative : Bool) (cs : List Char) : Option (Scalar × List Char) := do
  let whole := cs.takeWhile isDigit
  let rest := cs.dropWhile isDigit
  if whole.isEmpty || (whole.head? = some '0' && 1 < whole.length) then none
  else
    let (fraction, rest) ← match rest with
      | '.' :: rest =>
          let ds := rest.takeWhile isDigit
          if ds.isEmpty then none else some (some ds, rest.dropWhile isDigit)
      | rest => some (none, rest)
    let (exponent, rest) ← readExponent? rest
    let n : Nat := Text.digitsValue whole
    if fraction.isNone && exponent.isNone && !negative && n < Nat.pow 2 63 then
      return (.int n, rest)
    else if fraction.isNone && exponent.isNone && negative && 0 < n && n ≤ Nat.pow 2 63 then
      return (.int (-(n : Int)), rest)
    else
      let ds := fraction.getD []
      let x := Binary64.ofDecimal negative (Text.digitsValue (whole ++ ds))
        (exponent.getD 0 - ds.length)
      if x.isInfinite then none else return (.float x, rest)

/-! ### Strings -/

def hex4? : List Char → Option (Nat × List Char)
  | a :: b :: c :: d :: rest => do
      let n ← [a, b, c, d].foldlM (fun n x => (hexValue? x).map (n * 16 + ·)) 0
      return (n, rest)
  | _ => none

/-- The character of an escape after its backslash; two escapes may stand for one. -/
def readEscape? : List Char → Option (Char × List Char)
  | '"' :: cs => some ('"', cs)
  | '\\' :: cs => some ('\\', cs)
  | '/' :: cs => some ('/', cs)
  | 'b' :: cs => some ('\x08', cs)
  | 'f' :: cs => some ('\x0c', cs)
  | 'n' :: cs => some ('\n', cs)
  | 'r' :: cs => some ('\r', cs)
  | 't' :: cs => some ('\t', cs)
  | 'u' :: cs => do
      let (high, rest) ← hex4? cs
      if 0xdc00 ≤ high && high < 0xe000 then none
      else if 0xd800 ≤ high && high < 0xdc00 then
        match rest with
        | '\\' :: 'u' :: rest =>
            let (low, rest) ← hex4? rest
            if 0xdc00 ≤ low && low < 0xe000 then
              return (Char.ofNat (0x10000 + (high - 0xd800) * 0x400 + (low - 0xdc00)), rest)
            else none
        | _ => none
      else return (Char.ofNat high, rest)
  | _ => none

/-- The characters of a string up to its closing quote. -/
def readChars? : Nat → List Char → Option (List Char × List Char)
  | 0, _ => none
  | _ + 1, [] => none
  | fuel + 1, c :: cs =>
    if c = '"' then some ([], cs)
    else if c.toNat < 0x20 then none
    else do
      let (c, rest) ← if c = '\\' then readEscape? cs else some (c, cs)
      let (more, rest) ← readChars? fuel rest
      return (c :: more, rest)

def readString? (cs : List Char) : Option (String × List Char) :=
  (readChars? (cs.length + 1) cs).map fun (s, rest) => (String.ofList s, rest)

/-! ### Values -/

/-- Drops a word from the front of the text. -/
def dropWord? : List Char → List Char → Option (List Char)
  | [], cs => some cs
  | w :: ws, c :: cs => if w = c then dropWord? ws cs else none
  | _ :: _, [] => none

mutual
/-- A value; `depth` bounds the containers around it. -/
def readValue? (origin : String) : Nat → Nat → List Char → Option (Value × List Char)
  | 0, _, _ => none
  | fuel + 1, depth, cs =>
    let scalar (s : Scalar) (rest : List Char) : Value × List Char :=
      (.scalar (some origin) s, rest)
    match skipBlanks cs with
    | '"' :: cs => (readString? cs).map fun (s, rest) => scalar (.text s) rest
    | '-' :: cs => (readNumber? true cs).map fun (s, rest) => scalar s rest
    | '[' :: cs =>
        if depth ≤ 1 then none
        else
          match skipBlanks cs with
          | ']' :: rest => some (.list (some origin) [], rest)
          | cs => (readItems? origin fuel (depth - 1) cs).map fun (vs, rest) =>
              (.list (some origin) vs, rest)
    | '\x7b' :: cs =>
        if depth ≤ 1 then none
        else
          match skipBlanks cs with
          | '\x7d' :: rest => some (.table (some origin) [], rest)
          | cs => (readMembers? origin fuel (depth - 1) cs).map fun (es, rest) =>
              (.table (some origin) es, rest)
    | c :: cs =>
        if isDigit c then (readNumber? false (c :: cs)).map fun (s, rest) => scalar s rest
        else if c = 't' then (dropWord? ['r', 'u', 'e'] cs).map (scalar (.truth true))
        else if c = 'f' then (dropWord? ['a', 'l', 's', 'e'] cs).map (scalar (.truth false))
        else if c = 'n' then (dropWord? ['u', 'l', 'l'] cs).map (scalar .null)
        else none
    | [] => none

/-- The items of a list up to its end, at least one. -/
def readItems? (origin : String) : Nat → Nat → List Char → Option (List Value × List Char)
  | 0, _, _ => none
  | fuel + 1, depth, cs => do
    let (v, rest) ← readValue? origin fuel depth cs
    match skipBlanks rest with
    | ']' :: rest => return ([v], rest)
    | ',' :: rest =>
        let (vs, rest) ← readItems? origin fuel depth rest
        return (v :: vs, rest)
    | _ => none

/-- The members of an object up to its end, at least one. -/
def readMembers? (origin : String) :
    Nat → Nat → List Char → Option (List (String × Value) × List Char)
  | 0, _, _ => none
  | fuel + 1, depth, cs => do
    match skipBlanks cs with
    | '"' :: cs =>
        let (key, rest) ← readString? cs
        match skipBlanks rest with
        | ':' :: rest =>
            let (v, rest) ← readValue? origin fuel depth rest
            match skipBlanks rest with
            | '\x7d' :: rest => return ([(key, v)], rest)
            | ',' :: rest =>
                let (es, rest) ← readMembers? origin fuel depth rest
                -- The later of two members of one name counts.
                return (if es.any (·.1 = key) then es else (key, v) :: es, rest)
            | _ => none
        | _ => none
    | _ => none
end

/-- The members of a document, if it is an object. -/
def read? (origin text : String) : Option (List (String × Value)) := do
  let cs := text.toList
  let (v, rest) ← readValue? origin (2 * cs.length + 2) depthLimit cs
  if !(skipBlanks rest).isEmpty then none
  else
    match v with
    | .table _ es => some es
    | _ => none

end ReliableQueue.Config.Json
