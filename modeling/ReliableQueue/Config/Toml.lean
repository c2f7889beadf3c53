import ReliableQueue.Config.Value
import ReliableQueue.Text.Hex
import ReliableQueue.Text.Numeral

/-!
Documents of tables and keys as configuration sources: one `key = value` a line, under
headers that name tables. A key is set once and a table is opened once; tables that
were only named on the way to others may still be opened.
-/

namespace ReliableQueue.Config.Toml

open Text (isDigit hexValue?)

/-- Containers inside each other are fewer than this, and so are the parts of a key. -/
def depthLimit : Nat := 80

/-! ### Tables under construction -/

/-- A table: whether it was only named on the way to another, whether a dotted key
named it, and what it holds. -/
inductive Draft where
  | mk (isImplicit isDotted : Bool) (entries : List (String × (Value ⊕ Draft ⊕ List Draft)))

namespace Draft

abbrev Item := Value ⊕ Draft ⊕ List Draft

def isImplicit : Draft → Bool
  | mk i _ _ => i

def isDotted : Draft → Bool
  | mk _ d _ => d

def entries : Draft → List (String × Item)
  | mk _ _ es => es

def empty (isImplicit isDotted : Bool) : Draft := mk isImplicit isDotted []

def get? (t : Draft) (key : String) : Option Item := t.entries.lookup key

def put (key : String) (item : Item) : List (String × Item) → List (String × Item)
  | [] => [(key, item)]
  | e :: rest => if e.1 = key then (key, item) :: rest else e :: put key item rest

def set (t : Draft) (key : String) (item : Item) : Draft :=
  match t with
  | mk i d es => mk i d (put key item es)

def erase (t : Draft) (key : String) : Draft :=
  match t with
  | mk i d es => mk i d (es.filter fun e => e.1 ≠ key)

/-- Visits the table at the end of a path, making the tables on the way, and puts back
what the visit makes of it. A dotted path does not lead through tables that were opened. -/
def visit {α : Type} (f : Draft → Option (α × Draft)) (dotted : Bool) :
    List String → Draft → Option (α × Draft)
  | [], t => f t
  | key :: path, t =>
    match (t.get? key).getD (.inr (.inl (empty true dotted))) with
    | .inl _ => none
    | .inr (.inl inner) =>
        if dotted && !inner.isImplicit then none
        else (visit f dotted path inner).map fun (a, inner) => (a, t.set key (.inr (.inl inner)))
    | .inr (.inr inners) =>
        match inners.getLast? with
        | none => none
        | some last =>
            (visit f dotted path last).map fun (a, last) =>
              (a, t.set key (.inr (.inr (inners.dropLast ++ [last]))))

/-- Changes the table at the end of a path. -/
def modifyAt (f : Draft → Option Draft) (dotted : Bool) (path : List String) (t : Draft) :
    Option Draft :=
  (visit (fun t => (f t).map ((), ·)) dotted path t).map Prod.snd

/-- Sets a key for the first time, at the end of a dotted path. -/
def setKey (t : Draft) (path : List String) (key : String) (v : Value) : Option Draft :=
  modifyAt (fun inner =>
    if inner.isDotted = path.isEmpty || (inner.get? key).isSome then none
    else some (inner.set key (.inl v))) true path t

mutual
def toValue (origin : String) : Draft → Value
  | mk _ _ es => .table (some origin) (valuesOf origin es)
termination_by structural t => t

def valuesOf (origin : String) :
    List (String × (Value ⊕ Draft ⊕ List Draft)) → List (String × Value)
  | [] => []
  | e :: es => entryValue origin e :: valuesOf origin es
termination_by structural es => es

def entryValue (origin : String) : String × (Value ⊕ Draft ⊕ List Draft) → String × Value
  | (key, item) => (key, itemValue origin item)
termination_by structural e => e

def itemValue (origin : String) : Value ⊕ Draft ⊕ List Draft → Value
  | .inl v => v
  | .inr t => tablesValue origin t
termination_by structural i => i

def tablesValue (origin : String) : Draft ⊕ List Draft → Value
  | .inl t => toValue origin t
  | .inr ts => .list (some origin) (listValue origin ts)
termination_by structural i => i

def listValue (origin : String) : List Draft → List Value
  | [] => []
  | t :: ts => toValue origin t :: listValue origin ts
termination_by structural ts => ts
end

end Draft

/-! ### Blanks and comments -/

def isBlank (c : Char) : Bool := c = ' ' || c = '\t'

def skipBlanks (cs : List Char) : List Char := cs.dropWhile isBlank

/-- Drops one line break, if there is one. -/
def dropBreak? : List Char → Option (List Char)
  | '\n' :: cs => some cs
  | '\r' :: '\n' :: cs => some cs
  | _ => none

/-- Characters of comments and, quotes and backslashes apart, of strings. -/
def isPlain (c : Char) : Bool := c = '\t' || (0x20 ≤ c.toNat && c.toNat ≠ 0x7f)

/-- Drops a comment up to its line break. -/
def dropComment (cs : List Char) : List Char :=
  match cs with
  | '#' :: cs => cs.dropWhile isPlain
  | cs => cs

/-- Drops blanks, comments and line breaks. -/
def skipLines : Nat → List Char → List Char
  | 0, cs => cs
  | fuel + 1, cs =>
    match dropBreak? (dropComment (skipBlanks cs)) with
    | some cs => skipLines fuel cs
    | none => dropComment (skipBlanks cs)

/-! ### Strings -/

/-- The character behind hexadecimal digits, if there is one of that number. -/
def charOfHex? (digits : List Char) : Option Char := do
  let n ← digits.foldlM (fun n c => (hexValue? c).map (n * 16 + ·)) 0
  if n < 0xd800 || (0xe000 ≤ n && n < 0x110000) then some (Char.ofNat n) else none

def readHex? (count : Nat) (cs : List Char) : Option (Char × List Char) :=
  if cs.length < count then none
  else (charOfHex? (cs.take count)).map fun c => (c, cs.drop count)

/-- The character of an escape after its backslash. -/
def readEscape? : List Char → Option (Char × List Char)
  | '"' :: cs => some ('"', cs)
  | '\\' :: cs => some ('\\', cs)
  | 'b' :: cs => some ('\x08', cs)
  | 'f' :: cs => some ('\x0c', cs)
  | 'n' :: cs => some ('\n', cs)
  | 'r' :: cs => some ('\r', cs)
  | 't' :: cs => some ('\t', cs)
  | 'u' :: cs => readHex? 4 cs
  | 'U' :: cs => readHex? 8 cs
  | _ => none

/-- The rest of a string on one line, after its opening quote. -/
def readLine? (quote : Char) : Nat → List Char → Option (List Char × List Char)
  | 0, _ => none
  | _ + 1, [] => none
  | fuel + 1, c :: cs =>
    if c = quote then some ([], cs)
    else if c = '\\' && quote = '"' then do
      let (c, rest) ← readEscape? cs
      let (more, rest) ← readLine? quote fuel rest
      return (c :: more, rest)
    else if isPlain c then do
      let (more, rest) ← readLine? quote fuel cs
      return (c :: more, rest)
    else none

/-- Drops blanks and line breaks. -/
def skipBreaks : Nat → List Char → List Char
  | 0, cs => cs
  | fuel + 1, cs =>
    match dropBreak? (skipBlanks cs) with
    | some cs => skipBreaks fuel cs
    | none => skipBlanks cs

/-- What follows a backslash that ends a line: the next character that is no blank. -/
def dropContinuation? (cs : List Char) : Option (List Char) :=
  (dropBreak? (skipBlanks cs)).map fun cs => skipBreaks cs.length cs

/-- The rest of a string over several lines. It ends at three quotes; up to two more may
stand before them. -/
def readLines? (quote : Char) : Nat → List Char → Option (List Char × List Char)
  | 0, _ => none
  | _ + 1, [] => none
  | fuel + 1, c :: cs =>
    if c = quote then
      let quotes := 1 + (cs.takeWhile (· = quote)).length
      let rest := cs.drop (quotes - 1)
      if quotes < 3 then do
        let (more, rest) ← readLines? quote fuel rest
        return (List.replicate quotes quote ++ more, rest)
      else
        let inside := min (quotes - 3) 2
        some (List.replicate inside quote, List.replicate (quotes - 3 - inside) quote ++ rest)
    else if c = '\\' && quote = '"' then
      match dropContinuation? cs with
      | some rest => readLines? quote fuel rest
      | none => do
          let (c, rest) ← readEscape? cs
          let (more, rest) ← readLines? quote fuel rest
          return (c :: more, rest)
    else
      match dropBreak? (c :: cs) with
      | some rest => do
          let (more, rest) ← readLines? quote fuel rest
          return ('\n' :: more, rest)
      | none =>
          if isPlain c then do
            let (more, rest) ← readLines? quote fuel cs
            return (c :: more, rest)
          else none

/-- A string in single or double quotes, over several lines if there are three. -/
def readString? (cs : List Char) : Option (String × List Char) :=
  let text (r : Option (List Char × List Char)) := r.map fun (s, rest) => (String.ofList s, rest)
  match cs with
  | a :: b :: c :: rest =>
      if (a = '"' || a = '\'') && a = b && a = c then
        let body := (dropBreak? rest).getD rest
        text (readLines? a (body.length + 1) body)
      else if a = '"' || a = '\'' then text (readLine? a (cs.length + 1) (b :: c :: rest))
      else none
  | a :: rest =>
      if a = '"' || a = '\'' then text (readLine? a (cs.length + 1) rest) else none
  | [] => none

/-! ### Keys -/

def isBareChar (c : Char) : Bool := c.isAlphanum || c = '_' || c = '-'

def readSimpleKey? (cs : List Char) : Option (String × List Char) :=
  match cs with
  | '"' :: rest => (readLine? '"' cs.length rest).map fun (s, rest) => (String.ofList s, rest)
  | '\'' :: rest => (readLine? '\'' cs.length rest).map fun (s, rest) => (String.ofList s, rest)
  | cs =>
      let name := cs.takeWhile isBareChar
      if name.isEmpty then none else some (String.ofList name, cs.dropWhile isBareChar)

/-- At most `count` simple keys with dots between them. -/
def readKeys? : Nat → List Char → Option (List String × List Char)
  | 0, _ => none
  | count + 1, cs => do
    let (key, rest) ← readSimpleKey? (skipBlanks cs)
    match skipBlanks rest with
    | '.' :: rest =>
        let (keys, rest) ← readKeys? count rest
        return (key :: keys, rest)
    | rest => return ([key], rest)

def readKey? (cs : List Char) : Option (List String × List Char) :=
  readKeys? (depthLimit - 1) cs

/-! ### Numbers -/

/-- Digits of a base with single underscores between them. -/
def readDigits? (isBase : Char → Bool) : Nat → List Char → Option (List Char × List Char)
  | 0, _ => none
  | _ + 1, [] => none
  | fuel + 1, c :: cs =>
    if !isBase c then none
    else
      match cs with
      | '_' :: rest => (readDigits? isBase fuel rest).map fun (ds, rest) => (c :: ds, rest)
      | d :: rest =>
          if isBase d then
            (readDigits? isBase fuel (d :: rest)).map fun (ds, rest) => (c :: ds, rest)
          else some ([c], cs)
      | [] => some ([c], [])

def digits? (isBase : Char → Bool) (cs : List Char) : Option (List Char × List Char) :=
  readDigits? isBase (cs.length + 1) cs

/-- A number of 64 signed bits. -/
def int64? (i : Int) : Option Scalar :=
  if -(Nat.pow 2 63 : Int) ≤ i ∧ i < Nat.pow 2 63 then some (.int i) else none

/-- A whole number after its base mark. -/
def readBased? (base : Nat) (isBase : Char → Bool) (cs : List Char) :
    Option (Scalar × List Char) := do
  let (ds, rest) ← digits? isBase cs
  let n := ds.foldl (fun n c => n * base + (hexValue? c).getD 0) 0
  let s ← int64? n
  return (s, rest)

/-- The exponent of a number, if it has one; `none` if it is not well formed. -/
def readExponent? : List Char → Option (Option Int × List Char)
  | c :: cs =>
    if c = 'e' || c = 'E' then do
      let (negative, cs) := Text.splitSign cs
      let (ds, rest) ← digits? isDigit cs
      let n : Nat := Text.digitsValue ds
      return (some (if negative then -(n : Int) else n), rest)
    else some (none, c :: cs)
  | [] => some (none, [])

/-- A decimal number whose sign was read. -/
def readDecimal? (negative : Bool) (cs : List Char) : Option (Scalar × List Char) := do
  let (whole, rest) ← match cs with
    | '0' :: rest => some (['0'], rest)
    | cs => digits? isDigit cs
  let (fraction, rest) ← match rest with
    | '.' :: rest => (digits? isDigit rest).map fun (ds, rest) => (some ds, rest)
    | rest => some (none, rest)
  let (exponent, rest) ← readExponent? rest
  if fraction.isNone && exponent.isNone then
    let n : Nat := Text.digitsValue whole
    let s ← int64? (if negative then -(n : Int) else n)
    return (s, rest)
  else
    let ds := fraction.getD []
    let x := Binary64.ofDecimal negative (Text.digitsValue (whole ++ ds))
      (exponent.getD 0 - ds.length)
    if x.isInfinite && !negative then none else return (.float x, rest)

def dropWord? : List Char → List Char → Option (List Char)
  | [], cs => some cs
  | w :: ws, c :: cs => if w = c then dropWord? ws cs else none
  | _ :: _, [] => none

/-- A number with or without a sign. -/
def readNumber? (cs : List Char) : Option (Scalar × List Char) :=
  match cs with
  | '0' :: 'x' :: rest => readBased? 16 (fun c => (hexValue? c).isSome) rest
  | '0' :: 'o' :: rest => readBased? 8 (fun c => '0' ≤ c && c ≤ '7') rest
  | '0' :: 'b' :: rest => readBased? 2 (fun c => c = '0' || c = '1') rest
  | cs =>
      let (negative, rest) := Text.splitSign cs
      match dropWord? ['i', 'n', 'f'] rest, dropWord? ['n', 'a', 'n'] rest with
      | some rest, _ => some (.float (.infinity negative), rest)
      | _, some rest => some (.float .nan, rest)
      | _, _ => readDecimal? negative rest

/-! ### Dates and times -/

/-- A number of exactly `count` digits. -/
def readFixed? (count : Nat) (cs : List Char) : Option (Nat × List Char) :=
  let ds := cs.take count
  if ds.length = count && ds.all isDigit then some (Text.digitsValue ds, cs.drop count) else none

def expect? (c : Char) : List Char → Option (List Char)
  | d :: cs => if c = d then some cs else none
  | [] => none

def isLeap (year : Nat) : Bool :=
  year % 4 = 0 && (year % 100 ≠ 0 || year % 400 = 0)

def daysOf (year month : Nat) : Nat :=
  match month with
  | 2 => if isLeap year then 29 else 28
  | 4 | 6 | 9 | 11 => 30
  | _ => 31

def padded (width n : Nat) : List Char :=
  let ds := Nat.toDigits 10 n
  List.replicate (width - ds.length) '0' ++ ds

/-- A date in its written form. -/
def readDate? (cs : List Char) : Option (List Char × List Char) := do
  let (year, rest) ← readFixed? 4 cs
  let rest ← expect? '-' rest
  let (month, rest) ← readFixed? 2 rest
  let rest ← expect? '-' rest
  let (day, rest) ← readFixed? 2 rest
  if 1 ≤ month && month ≤ 12 && 1 ≤ day && day ≤ daysOf year month then
    return (padded 4 year ++ '-' :: padded 2 month ++ '-' :: padded 2 day, rest)
  else none

/-- The fraction of a second in its written form: nine digits at most and no zeros at
the end. -/
def readSubsecond? (cs : List Char) : Option (List Char × List Char) :=
  match cs with
  | '.' :: rest =>
      let ds := rest.takeWhile isDigit
      if ds.isEmpty then none
      else
        let kept := ((ds.take 9).reverse.dropWhile (· = '0')).reverse
        some (if kept.isEmpty then [] else '.' :: kept, rest.dropWhile isDigit)
  | cs => some ([], cs)

/-- A time of day in its written form, up to an hour. -/
def readTime? (lastHour : Nat) (cs : List Char) : Option (List Char × List Char) := do
  let (hour, rest) ← readFixed? 2 cs
  let rest ← expect? ':' rest
  let (minute, rest) ← readFixed? 2 rest
  let rest ← expect? ':' rest
  let (second, rest) ← readFixed? 2 rest
  let (fraction, rest) ← readSubsecond? rest
  if hour ≤ lastHour && minute ≤ 59 && second ≤ 60 then
    return (padded 2 hour ++ ':' :: padded 2 minute ++ ':' :: padded 2 second ++ fraction, rest)
  else none

/-- The written form of an offset in minutes. -/
def offsetText (negative : Bool) (minutes : Nat) : List Char :=
  (if negative && minutes ≠ 0 then '-' else '+') :: padded 2 (minutes / 60)
    ++ ':' :: padded 2 (minutes % 60)

/-- An offset in its written form, if there is one; its hours and minutes must be allowed. -/
def readOffset? (allows : Nat → Nat → Bool) (cs : List Char) : Option (List Char × List Char) :=
  match cs with
  | c :: rest =>
    if c = 'Z' || c = 'z' then some (['Z'], rest)
    else if c = '+' || c = '-' then do
      let (hour, rest) ← readFixed? 2 rest
      let rest ← expect? ':' rest
      let (minute, rest) ← readFixed? 2 rest
      if allows hour minute then return (offsetText (c = '-') (60 * hour + minute), rest)
      else none
    else some ([], cs)
  | [] => some ([], [])

/-- A date, a time, or both, in the written form. -/
def readMoment? (cs : List Char) : Option (String × List Char) :=
  match readDate? cs with
  | none => (readTime? 23 cs).map fun (s, rest) => (String.ofList s, rest)
  | some (date, rest) =>
    let dateOnly := (String.ofList date, rest)
    match rest with
    | d :: more =>
      if d = 'T' || d = 't' || d = ' ' then
        match readTime? 23 more with
        | none => some dateOnly
        | some (time, rest) =>
            (readOffset? (fun hour minute => hour ≤ 23 && minute ≤ 59) rest).map
              fun (offset, rest) => (String.ofList (date ++ 'T' :: time ++ offset), rest)
      else some dateOnly
    | [] => some dateOnly

/-- The written form of a moment that is all of a text. A day may end at its hour 24 and
an offset may be any up to a day. -/
def momentOfText? (s : String) : Option String := do
  let finish (r : List Char × List Char) : Option (List Char) :=
    if r.2.isEmpty then some r.1 else none
  let cs := s.toList
  if cs[2]? = some ':' then
    return String.ofList (← finish (← readTime? 24 cs))
  else
    let (date, rest) ← readDate? cs
    match rest with
    | [] => return String.ofList date
    | d :: rest =>
      if d = 'T' || d = 't' || d = ' ' then
        let (time, rest) ← readTime? 24 rest
        let offset ← finish
          (← readOffset? (fun hour minute => 60 * hour + minute ≤ 24 * 60) rest)
        return String.ofList (date ++ 'T' :: time ++ offset)
      else none

/-- The key of a table that stands for a moment. -/
def momentKey : String := "$__toml_private_datetime"

/-- A moment as a table. -/
def moment (origin s : String) : Value :=
  .table (some origin) [(momentKey, .scalar (some origin) (.text s))]

mutual
/-- Puts texts in the place of the tables that stand for moments: those whose first key is
reserved for that. It must hold a moment in a text. -/
def settle? : Value → Option Value
  | .scalar o s => some (.scalar o s)
  | .list o vs => (settleItems? vs).map (.list o)
  | .table o es =>
    match es.head? with
    | none => some (.table o [])
    | some (key, v) =>
      if key = momentKey then
        match v with
        | .scalar _ (.text s) => (momentOfText? s).map fun s => .scalar o (.text s)
        | _ => none
      else (settleEntries? es).map (.table o)
termination_by structural v => v

def settleItems? : List Value → Option (List Value)
  | [] => some []
  | v :: vs => do return (← settle? v) :: (← settleItems? vs)
termination_by structural vs => vs

def settleEntries? : List (String × Value) → Option (List (String × Value))
  | [] => some []
  | e :: es => do return (← settleEntry? e) :: (← settleEntries? es)
termination_by structural es => es

def settleEntry? : String × Value → Option (String × Value)
  | (key, v) => (settle? v).map (key, ·)
termination_by structural e => e
end

/-! ### Values -/

/-- Values that hold no others. -/
def readScalar? (cs : List Char) : Option (Scalar × List Char) :=
  match cs with
  | [] => none
  | c :: rest =>
    if c = '"' || c = '\'' then (readString? cs).map fun (s, rest) => (.text s, rest)
    else if c = 't' then (dropWord? ['r', 'u', 'e'] rest).map fun rest => (.truth true, rest)
    else if c = 'f' then (dropWord? ['a', 'l', 's', 'e'] rest).map fun rest => (.truth false, rest)
    else readNumber? cs

mutual
/-- A value; `depth` bounds the containers around it. -/
def readValue? (origin : String) : Nat → Nat → List Char → Option (Value × List Char)
  | 0, _, _ => none
  | fuel + 1, depth, cs =>
    match cs with
    | '[' :: cs =>
        if depth ≤ 1 then none
        else
          (readItems? origin fuel (depth - 1) cs).map fun (vs, rest) =>
            (.list (some origin) vs, rest)
    | '\x7b' :: cs =>
        if depth ≤ 1 then none
        else
          match skipBlanks cs with
          | '\x7d' :: rest => some (.table (some origin) [], rest)
          | cs =>
              (readPairs? origin fuel (depth - 1) (.empty false false) cs).map fun (t, rest) =>
                (t.toValue origin, rest)
    | cs =>
        match readMoment? cs with
        | some (s, rest) => some (moment origin s, rest)
        | none => (readScalar? cs).map fun (s, rest) => (.scalar (some origin) s, rest)

/-- The items of a list up to its end; a comma may follow the last one. -/
def readItems? (origin : String) : Nat → Nat → List Char → Option (List Value × List Char)
  | 0, _, _ => none
  | fuel + 1, depth, cs =>
    match skipLines (cs.length + 1) cs with
    | ']' :: rest => some ([], rest)
    | cs => do
        let (v, rest) ← readValue? origin fuel depth cs
        match skipLines (rest.length + 1) rest with
        | ']' :: rest => return ([v], rest)
        | ',' :: rest =>
            let (vs, rest) ← readItems? origin fuel depth rest
            return (v :: vs, rest)
        | _ => none

/-- The pairs of a table written in one line, at least one, up to its end. -/
def readPairs? (origin : String) : Nat → Nat → Draft → List Char → Option (Draft × List Char)
  | 0, _, _, _ => none
  | fuel + 1, depth, t, cs => do
    let (keys, rest) ← readKey? cs
    let rest ← expect? '=' rest
    let (v, rest) ← readValue? origin fuel depth (skipBlanks rest)
    let t ← t.setKey keys.dropLast (keys.getLast?.getD "") v
    match skipBlanks rest with
    | '\x7d' :: rest => return (t, rest)
    | ',' :: rest => readPairs? origin fuel depth t rest
    | _ => none
end

/-! ### Documents -/

/-- What was read of a document: all tables that are closed, and the open one with its
path and whether it is an item of a list. -/
structure Document where
  root : Draft := .empty false false
  path : List String := []
  isItem : Bool := false
  opened : Draft := .empty false false

namespace Document

/-- Puts the open table in its place. -/
def close? (d : Document) : Option Draft :=
  match d.path.getLast? with
  | none => some d.opened
  | some key =>
    Draft.modifyAt (fun parent =>
      if d.isItem then
        match (parent.get? key).getD (.inr (.inr [])) with
        | .inr (.inr ts) => some (parent.set key (.inr (.inr (ts ++ [d.opened]))))
        | _ => none
      else if (parent.get? key).isSome then none
      else some (parent.set key (.inr (.inl d.opened)))) false d.path.dropLast d.root

/-- Opens a table that was at most named before, and takes it out of its place. -/
def openTable? (d : Document) (path : List String) : Option Document := do
  let root ← d.close?
  let key := path.getLast?.getD ""
  let (opened, root) ← Draft.visit (fun parent =>
    match parent.get? key with
    | none => some (.empty false false, parent)
    | some (.inr (.inl t)) =>
        if t.isImplicit && !t.isDotted then some (.mk false false t.entries, parent.erase key)
        else none
    | some _ => none) false path.dropLast root
  return { root, path, isItem := false, opened }

/-- Opens a further table of a list. -/
def openItem? (d : Document) (path : List String) : Option Document := do
  let root ← d.close?
  let key := path.getLast?.getD ""
  let root ← Draft.modifyAt (fun parent =>
    match (parent.get? key).getD (.inr (.inr [])) with
    | .inr (.inr ts) => some (parent.set key (.inr (.inr ts)))
    | _ => none) false path.dropLast root
  return { root, path, isItem := true, opened := .empty false false }

end Document

/-- The end of a line, comments included. -/
def endLine? (cs : List Char) : Option (List Char) :=
  match dropComment (skipBlanks cs) with
  | [] => some []
  | cs => dropBreak? cs

def readHeader? (closing : List Char) (cs : List Char) : Option (List String × List Char) := do
  let (keys, rest) ← readKey? cs
  let rest ← dropWord? closing rest
  let rest ← endLine? rest
  return (keys, rest)

/-- Reads the lines of a document. -/
def readLinesOf (origin : String) : Nat → Document → List Char → Option Document
  | 0, _, _ => none
  | fuel + 1, d, cs =>
    match skipLines (cs.length + 1) cs with
    | [] => some d
    | '[' :: '[' :: rest => do
        let (path, rest) ← readHeader? [']', ']'] rest
        readLinesOf origin fuel (← d.openItem? path) rest
    | '[' :: rest => do
        let (path, rest) ← readHeader? [']'] rest
        readLinesOf origin fuel (← d.openTable? path) rest
    | cs => do
        let (keys, rest) ← readKey? cs
        let rest ← expect? '=' rest
        let rest := skipBlanks rest
        let (v, rest) ← readValue? origin (2 * rest.length + 2) depthLimit rest
        let opened ← d.opened.setKey keys.dropLast (keys.getLast?.getD "") v
        readLinesOf origin fuel { d with opened } (← endLine? rest)

/-- A mark of the byte order at the start of a text does not count. -/
def dropMark : List Char → List Char
  | '\ufeff' :: cs => cs
  | cs => cs

/-- The keys of a document. -/
def read? (origin text : String) : Option (List (String × Value)) := do
  let cs := dropMark text.toList
  let d ← readLinesOf origin (cs.length + 1) {} cs
  match ← settle? ((← d.close?).toValue origin) with
  | .table _ es => return es
  | _ => none

example : momentOfText? "1979-05-27 24:00:00.50-00:90" =
    some "1979-05-27T24:00:00.5-01:30" := by
  decide +kernel

end ReliableQueue.Config.Toml
