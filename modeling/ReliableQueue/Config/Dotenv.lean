import ReliableQueue.Config.Environment
import ReliableQueue.Text.Alphanumeric

/-!
Files of variable definitions, one `NAME=value` a line. Values may be quoted, may run
over several lines inside quotes, and may refer to variables. Reading stops at the
first definition that is not well formed.
-/

namespace ReliableQueue.Config.Dotenv

open Text (isBlank dropBlanks dropBlanksRight isAlphanumeric)

/-! ### Lines -/

/-- Where a walk along a line stands. -/
inductive Scan where
  | plain
  | escape
  | single
  | singleEscape
  | double
  | doubleEscape
  | comment
  | blank
deriving DecidableEq, Repr

def Scan.next (s : Scan) (c : Char) : Scan :=
  let opening (other : Scan) : Scan :=
    if c = '\\' then .escape
    else if c = '"' then .double
    else if c = '\'' then .single
    else other
  match s with
  | .blank => if c = '#' then .comment else opening .plain
  | .escape => .plain
  | .plain => if isBlank c && c ≠ '\n' && c ≠ '\r' then .blank else opening .plain
  | .double => if c = '\\' then .doubleEscape else if c = '"' then .plain else .double
  | .doubleEscape => .double
  | .single => if c = '\\' then .singleEscape else if c = '\'' then .plain else .single
  | .singleEscape => .single
  | .comment => .comment

/-- Walks along a line; answers what stands before a comment and where the walk ends. -/
def Scan.walk (s : Scan) : List Char → List Char × Scan
  | [] => ([], s)
  | c :: cs =>
    match s.next c with
    | .comment => ([], .comment)
    | s =>
        let (kept, last) := Scan.walk s cs
        (c :: kept, last)

/-- One line with its line break, and the rest. -/
def splitLine (cs : List Char) : List Char × List Char :=
  let line := cs.takeWhile (· ≠ '\n')
  match cs.dropWhile (· ≠ '\n') with
  | b :: rest => (line ++ [b], rest)
  | [] => (line, [])

def dropLineBreak (cs : List Char) : List Char :=
  match cs.reverse with
  | '\n' :: '\r' :: r => r.reverse
  | '\n' :: r => r.reverse
  | _ => cs

/-- The next definition's text and the rest; nothing at the end, and an error for a text
that is still open there. -/
def nextText : Nat → Scan → List Char → List Char → Option (Except Unit (List Char × List Char))
  | 0, _, _, _ => none
  | fuel + 1, s, before, cs =>
    match cs with
    | [] => if s = .plain then none else some (.error ())
    | _ =>
      let (line, rest) := splitLine cs
      if (dropBlanks (before ++ line)).head?.any (· = '#') then some (.ok ([], rest))
      else
        match Scan.walk s line with
        | (_, .plain) => some (.ok (dropLineBreak (before ++ line), rest))
        | (kept, .comment) => some (.ok (before ++ kept, rest))
        | (_, s) => nextText fuel s (before ++ line) rest

/-! ### Definitions -/

/-- Where the reading of a value stands. -/
inductive Mode where
  | plain
  | escaped (inDouble : Bool)
  | single
  | double
  /-- After a dollar sign, with what was read of the name. -/
  | reference (inDouble : Bool) (name : List Char)
  /-- After a dollar sign and a brace. -/
  | braced (inDouble : Bool) (name : List Char)
  /-- After the blank that ends a value. -/
  | ended
deriving DecidableEq, Repr

def Mode.unquoted (inDouble : Bool) : Mode := if inDouble then .double else .plain

/-- What the variables that are set, and then those defined so far, say of a name. -/
def refer (env defined : Environment) (name : List Char) : List Char :=
  let name := String.ofList name
  ((env.lookup name).or (defined.lookup name)).getD "" |>.toList

/-- What reading one character of a value adds to it, and where the reading then stands;
nothing if the value is over, an error if the character may not stand there. -/
def readChar (env defined : Environment) (mode : Mode) (c : Char) :
    Except Unit (Option (List Char × Mode)) :=
  let skip (mode : Mode) : Except Unit (Option (List Char × Mode)) := .ok (some ([], mode))
  let keep (mode : Mode) : Except Unit (Option (List Char × Mode)) := .ok (some ([c], mode))
  match mode with
  | .ended =>
      if c = ' ' || c = '\t' then skip .ended else if c = '#' then .ok none else .error ()
  | .escaped inDouble =>
      if c = '\\' || c = '\'' || c = '"' || c = '$' || c = ' ' then keep (.unquoted inDouble)
      else if c = 'n' then .ok (some (['\n'], .unquoted inDouble))
      else .error ()
  | .single => if c = '\'' then skip .plain else keep .single
  | .reference inDouble name =>
      if isAlphanumeric c then skip (.reference inDouble (name ++ [c]))
      else if c = '\x7b' && name.isEmpty then skip (.braced inDouble [])
      else if c = '$' then .ok (some (refer env defined name, .reference inDouble []))
      else .ok (some (refer env defined name ++ [c], .unquoted inDouble))
  | .braced inDouble name =>
      if c = '\x7d' then .ok (some (refer env defined name, .unquoted inDouble))
      else skip (.braced inDouble (name ++ [c]))
  | .double =>
      if c = '$' then skip (.reference true [])
      else if c = '"' then skip .plain
      else if c = '\\' then skip (.escaped true)
      else keep .double
  | .plain =>
      if c = '$' then skip (.reference false [])
      else if c = '\'' then skip .single
      else if c = '"' then skip .double
      else if c = '\\' then skip (.escaped false)
      else if c = ' ' || c = '\t' then skip .ended
      else keep .plain

/-- The value that a text stands for, with all quotes closed at its end. -/
def readValue? (env defined : Environment) : Mode → List Char → Option (List Char)
  | .plain, [] | .escaped false, [] | .ended, [] => some []
  | .reference false name, [] => some (refer env defined name)
  | _, [] => none
  | mode, c :: cs =>
    match readChar env defined mode c with
    | .error () => none
    | .ok none => some []
    | .ok (some (added, mode)) => (readValue? env defined mode cs).map (added ++ ·)

def isNameStart (c : Char) : Bool := c.isAlpha || c = '_'

def isNameChar (c : Char) : Bool := c.isAlphanum || c = '_' || c = '.'

def readName? (cs : List Char) : Option (String × List Char) :=
  match cs with
  | c :: _ =>
    if isNameStart c then
      some (String.ofList (cs.takeWhile isNameChar), dropBlanks (cs.dropWhile isNameChar))
    else none
  | [] => none

def dropEquals? : List Char → Option (List Char)
  | '=' :: cs => some cs
  | _ => none

/-- The name and the value's text of a definition; the word `export` may stand first. -/
def readHead? (cs : List Char) : Option (String × List Char) := do
  let (name, rest) ← readName? cs
  match dropEquals? rest with
  | some rest => return (name, rest)
  | none =>
    if name = "export" then
      let (name, rest) ← readName? rest
      return (name, ← dropEquals? rest)
    else none

/-- The definition in a text: none in a blank one or a comment, an error in one that is
not well formed. Blanks at the end do not count, even in the middle of a value. -/
def readDefinition (env defined : Environment) (cs : List Char) :
    Except Unit (Option (String × String)) :=
  match dropBlanks (dropBlanksRight cs) with
  | [] => .ok none
  | '#' :: _ => .ok none
  | cs =>
    match readHead? cs with
    | none => .error ()
    | some (name, rest) =>
      match dropBlanks rest with
      | [] => .ok (some (name, ""))
      | '#' :: _ => .ok (some (name, ""))
      | rest =>
        match readValue? env defined .plain rest with
        | none => .error ()
        | some value => .ok (some (name, String.ofList value))

/-- Adds the definitions of a file to the variables, up to the first that is not well
formed. A variable that is set stays as it is; `defined` holds what the file said so far. -/
def load : Nat → Environment → Environment → List Char → Environment
  | 0, env, _, _ => env
  | fuel + 1, env, defined, cs =>
    match nextText (cs.length + 1) .plain [] cs with
    | none | some (.error ()) => env
    | some (.ok (text, rest)) =>
      match readDefinition env defined text with
      | .error () => env
      | .ok none => load fuel env defined rest
      | .ok (some (name, value)) =>
        let env := if (env.lookup name).isSome then env else env ++ [(name, value)]
        load fuel env ((name, value) :: defined) rest

/-- The variables after reading a file's text. -/
def apply (env : Environment) (text : String) : Environment :=
  let cs := match text.toList with
    | '\ufeff' :: cs => cs
    | cs => cs
  load (cs.length + 1) env [] cs

end ReliableQueue.Config.Dotenv
