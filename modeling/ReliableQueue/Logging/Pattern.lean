import ReliableQueue.Text.Hex
import ReliableQueue.Text.Numeral

/-!
Patterns for the values of fields: whether a text is a well-formed one. Patterns know
groups, alternatives, repetitions without counts, sets of characters, and escapes; they
know no tables of letters and no boundaries of words.
-/

namespace ReliableQueue.Logging.Pattern

/-- What an escape stands for. -/
inductive Escaped where
  | literal (c : Char)
  /-- An end of the text. -/
  | edge
deriving DecidableEq, Repr

/-- The character behind exactly `count` hexadecimal digits. -/
def readCode? (count : Nat) (cs : List Char) : Option (Escaped × List Char) := do
  let digits := cs.take count
  if digits.length < count then none
  else
    let n ← digits.foldlM (fun n c => (Text.hexValue? c).map (n * 16 + ·)) 0
    if n < 0xd800 || (0xe000 ≤ n && n < 0x110000) then
      return (.literal (Char.ofNat n), cs.drop count)
    else none

/-- The characters that letters stand for after a backslash. -/
def controls : List (Char × Char) :=
  [('a', '\x07'), ('f', '\x0c'), ('t', '\t'), ('n', '\n'), ('r', '\r'), ('v', '\x0b')]

/-- An escape after its backslash. -/
def readEscape? : List Char → Option (Escaped × List Char)
  | [] => none
  | c :: cs =>
    if c = 'x' then readCode? 2 cs
    else if c = 'u' then readCode? 4 cs
    else if c = 'U' then readCode? 8 cs
    else if c = 'A' || c = 'z' then some (.edge, cs)
    else
      match controls.lookup c with
      | some control => some (.literal control, cs)
      | none =>
        if c.toNat < 0x80 && !c.isAlphanum && c ≠ '<' && c ≠ '>' then some (.literal c, cs)
        else none

/-! ### Sets -/

/-- One character of a set. -/
def readMember? : List Char → Option (Char × List Char)
  | [] => none
  | '\\' :: cs =>
    match readEscape? cs with
    | some (.literal c, rest) => some (c, rest)
    | _ => none
  | c :: cs => some (c, cs)

/-- The names of sets in brackets and colons. -/
def setNames : List String :=
  ["alnum", "alpha", "ascii", "blank", "cntrl", "digit", "graph", "lower", "print", "punct",
    "space", "upper", "word", "xdigit"]

/-- A named set after its opening bracket, up to the closing one. -/
def dropNamedSet? : List Char → Option (List Char)
  | ':' :: cs =>
    let cs := if cs.head? = some '^' then cs.drop 1 else cs
    match cs.dropWhile (· ≠ ':') with
    | ':' :: ']' :: rest =>
        if setNames.contains (String.ofList (cs.takeWhile (· ≠ ':'))) then some rest else none
    | _ => none
  | _ => none

/-- What follows the opening bracket of a set: a mark of exclusion, hyphens, and, if there
are none of these, a closing bracket that is a member. -/
def dropSetStart (cs : List Char) : List Char :=
  let cs := if cs.head? = some '^' then cs.drop 1 else cs
  let rest := cs.dropWhile (· = '-')
  if rest.length = cs.length && cs.head? = some ']' then cs.drop 1 else rest

/-- Drops the rest of a set in which `depth` more sets are open. -/
def dropSet? : Nat → Nat → List Char → Option (List Char)
  | 0, _, _ => none
  | _ + 1, _, [] => none
  | fuel + 1, depth, c :: cs =>
    if c = ']' then
      match depth with
      | 0 => some cs
      | depth + 1 => dropSet? fuel depth cs
    else if c = '[' then
      match dropNamedSet? cs with
      | some rest => dropSet? fuel depth rest
      | none => dropSet? fuel (depth + 1) (dropSetStart cs)
    else if (c = '&' || c = '-' || c = '~') && cs.head? = some c then
      dropSet? fuel depth (cs.drop 1)
    else do
      let (first, rest) ← readMember? (c :: cs)
      match rest with
      | '-' :: next :: more =>
          if next = ']' || next = '-' then dropSet? fuel depth rest
          else
            let (last, rest) ← readMember? (next :: more)
            if last < first then none else dropSet? fuel depth rest
      | rest => dropSet? fuel depth rest

/-! ### Groups -/

/-- The flags of a group: letters, each once, of which those after a hyphen are off. -/
def areFlags (flags : List Char) : Bool :=
  let letters := flags.filter (· ≠ '-')
  letters.all "msUuRx".toList.contains && letters.Nodup && flags.getLast? ≠ some '-'
    && (flags.filter (· = '-')).length ≤ 1

def isNameStart (c : Char) : Bool := c.isAlpha || c = '_'

def isName (cs : List Char) : Bool :=
  cs.head?.any isNameStart && cs.all fun c => isNameStart c || c.isDigit || "._[]".toList.contains c

/-- What follows the opening parenthesis of a group: nothing, a name or flags. Flags
alone are no group. -/
def openGroup? : List Char → Option (Bool × List Char)
  | '?' :: 'P' :: '<' :: cs | '?' :: '<' :: cs =>
    let name := cs.takeWhile (· ≠ '>')
    if isName name && name.length < cs.length then some (true, cs.drop (name.length + 1))
    else none
  | '?' :: cs =>
    let flags := cs.takeWhile fun c => c ≠ ':' && c ≠ ')'
    match cs.drop flags.length with
    | ':' :: rest => if areFlags flags then some (true, rest) else none
    | ')' :: rest => if areFlags flags && !flags.isEmpty then some (false, rest) else none
    | _ => none
  | cs => some (true, cs)

/-- Whether the rest of a pattern is well formed, in which `depth` groups are open.
A repetition needs something before it. -/
def isWellFormedFrom : Nat → Nat → Bool → List Char → Bool
  | 0, _, _, _ => false
  | _ + 1, depth, _, [] => depth = 0
  | fuel + 1, depth, hasItem, c :: cs =>
    if c = '(' then
      match openGroup? cs with
      | some (true, rest) => isWellFormedFrom fuel (depth + 1) false rest
      | some (false, rest) => isWellFormedFrom fuel depth false rest
      | none => false
    else if c = ')' then
      match depth with
      | 0 => false
      | depth + 1 => isWellFormedFrom fuel depth true cs
    else if c = '|' then isWellFormedFrom fuel depth false cs
    else if c = '*' || c = '+' || c = '?' then
      let rest := if cs.head? = some '?' then cs.drop 1 else cs
      hasItem && isWellFormedFrom fuel depth true rest
    else if c = '\x7b' then false
    else if c = '[' then
      match dropSet? (cs.length + 1) 0 (dropSetStart cs) with
      | some rest => isWellFormedFrom fuel depth true rest
      | none => false
    else if c = '\\' then
      match readEscape? cs with
      | some (_, rest) => isWellFormedFrom fuel depth true rest
      | none => false
    else isWellFormedFrom fuel depth true cs

/-- Whether a text is a number or a well-formed pattern. -/
def isWellFormed (s : List Char) : Bool :=
  (Text.float? (String.ofList s)).isSome || isWellFormedFrom (s.length + 1) 0 false s

example : isWellFormed "a+(b|[^]c-e[:digit:]])*?".toList = true := by decide +kernel

example : ["*", "(a", "a)", "[a", "[b-a]", "\\d", "x\x7b2"].all (!isWellFormed ·.toList) := by
  decide +kernel

end ReliableQueue.Logging.Pattern
