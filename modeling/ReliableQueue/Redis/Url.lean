import ReliableQueue.Redis.Host

/-!
Addresses of servers: a scheme, a user with a password, a host, a port, a path and
parameters. Web addresses have a host always and may leave out the slashes before it.
-/

namespace ReliableQueue.Redis

structure Url where
  scheme : String
  /-- As it is written. -/
  user : List Char := []
  /-- As it is written. -/
  password : List Char := []
  host : Option String := none
  port : Option Nat := none
  path : List String := []
  query : List Char := []
deriving DecidableEq, Repr

namespace Url

/-! ### Parts -/

/-- Whether a character is taken off the ends of an address. -/
def isMargin (c : Char) : Bool := c.toNat ≤ 0x20

def isLineBreak (c : Char) : Bool := c = '\t' || c = '\n' || c = '\r'

/-- What counts of an address as it is given. -/
def clean (s : String) : List Char :=
  let cs := s.toList.dropWhile isMargin
  ((cs.reverse.dropWhile isMargin).reverse).filter (!isLineBreak ·)

def isSchemeChar (c : Char) : Bool := c.isAlphanum || c = '+' || c = '-' || c = '.'

/-- The scheme and what follows its colon. -/
def scheme? (cs : List Char) : Option (String × List Char) :=
  let name := cs.takeWhile isSchemeChar
  match name.head?, cs.dropWhile isSchemeChar with
  | some first, ':' :: rest =>
      if first.isAlpha then some (String.ofList (name.map Char.toLower), rest) else none
  | _, _ => none

/-- How an address with some scheme is read. -/
inductive Form where
  | web
  | file
  | other
deriving DecidableEq, Repr

def Form.ofScheme (s : String) : Form :=
  if ["http", "https", "ws", "wss", "ftp"].contains s then .web
  else if s = "file" then .file
  else .other

/-- Whether a character parts the path of an address. -/
def Form.isSlash (f : Form) (c : Char) : Bool := c = '/' || (c = '\\' && f ≠ .other)

def isMark (c : Char) : Bool := c = '?' || c = '#'

/-- The user and the password before a host, and what follows them. They end at the last
sign for that; the part of a host that follows may be empty only if they are. -/
def splitUser (f : Form) (cs : List Char) :
    Except UrlFault (List Char × List Char × List Char) :=
  let authority := cs.takeWhile fun c => !f.isSlash c && !isMark c
  let host := (authority.reverse.takeWhile (· ≠ '@')).reverse
  if host.length = authority.length then .ok ([], [], cs)
  else
    let both := authority.take (authority.length - host.length - 1)
    let rest := cs.drop (both.length + 1)
    let user := both.takeWhile (· ≠ ':')
    let password := (both.dropWhile (· ≠ ':')).drop 1
    if both.isEmpty then
      if host.isEmpty && !rest.isEmpty then .error .emptyHost else .ok ([], [], rest)
    else .ok (user, password, rest)

/-- The host and what follows it. A colon in brackets does not end it. -/
def splitHost (f : Form) (inBrackets : Bool) : List Char → List Char × List Char
  | [] => ([], [])
  | c :: cs =>
    if f.isSlash c || isMark c || (c = ':' && !inBrackets) then ([], c :: cs)
    else
      let (host, rest) := splitHost f (if c = '[' then true else inBrackets && c ≠ ']') cs
      (c :: host, rest)

def endsPort (c : Char) : Bool := c = '/' || c = '\\' || isMark c

/-- The port after a host, if there is one. -/
def splitPort : List Char → Except UrlFault (Option Nat × List Char)
  | ':' :: cs =>
    let digits := cs.takeWhile (!endsPort ·)
    let rest := cs.dropWhile (!endsPort ·)
    if digits.isEmpty then .ok (none, rest)
    else
      match (Text.natOfDigits? digits).filter (· < UInt16.size) with
      | some port => .ok (some port, rest)
      | none => .error .port
  | cs => .ok (none, cs)

/-- A dot, or its number. -/
def dropDot? : List Char → Option (List Char)
  | '.' :: cs => some cs
  | '%' :: '2' :: 'e' :: cs | '%' :: '2' :: 'E' :: cs => some cs
  | _ => none

def isDot (part : List Char) : Bool := dropDot? part = some []

def isTwoDots (part : List Char) : Bool := (dropDot? part).bind dropDot? = some []

/-- Resolves the dots in the parts of a path; `before` are those that count so far, the
last one first. -/
def resolve (before : List (List Char)) : List (List Char) → List (List Char)
  | [] => before.reverse
  | part :: parts =>
    let before := if isTwoDots part then before.drop 1 else before
    if isTwoDots part || isDot part then
      resolve (if parts.isEmpty then [] :: before else before) parts
    else resolve (part :: before) parts

/-- The path in a text that ends before its parameters. -/
def readPath (f : Form) (cs : List Char) : List String :=
  let cs := cs.takeWhile (!isMark ·)
  if cs.isEmpty then []
  else
    let parts := Text.pieces f.isSlash (if cs.head?.any f.isSlash then cs.drop 1 else cs)
    (resolve [] parts).map String.ofList

/-- The parameters in a text, before anything that follows them. -/
def readQuery (cs : List Char) : List Char :=
  match cs.dropWhile (!isMark ·) with
  | '?' :: cs => cs.takeWhile (· ≠ '#')
  | _ => []

/-! ### Addresses -/

/-- An address after its scheme and slashes. -/
def readHosted (scheme : String) (f : Form) (cs : List Char) : Except UrlFault Url := do
  let (user, password, rest) ← splitUser f cs
  let (host, rest) := splitHost f false rest
  let host ← if f = .web then
      if host.isEmpty then throw .emptyHost else Host.ofWeb host
    else Host.ofOther host
  if host.isEmpty && rest.head? = some ':' then throw .emptyHost
  let (port, rest) ← splitPort rest
  if host.isEmpty && !(user.isEmpty && password.isEmpty) then throw .emptyHost
  return { scheme, user, password, host := if host.isEmpty then none else some host, port,
           path := readPath f rest, query := readQuery rest }

/-- A letter with a colon or a bar names a drive. -/
def isDrive : List Char → Bool
  | [a, b] => a.isAlpha && (b = ':' || b = '|')
  | _ => false

/-- The address of a file, after its scheme. A host that is a drive, or before one, does
not count, nor does the machine itself. -/
def readFile (cs : List Char) : Except UrlFault Url := do
  let here : Url := { scheme := "file" }
  match cs with
  | a :: b :: rest =>
    if Form.file.isSlash a && Form.file.isSlash b then
      let ends (c : Char) : Bool := Form.file.isSlash c || isMark c
      let host := rest.takeWhile (!ends ·)
      let rest := rest.dropWhile (!ends ·)
      if host.isEmpty || isDrive host then return here
      let name ← Host.ofWeb host
      let parts := readPath .file rest
      if name = "localhost" || parts.head?.any (isDrive ·.toList) then return here
      return { here with host := some name, path := parts.dropWhile (·.isEmpty)
                         query := readQuery rest }
    else return here
  | _ => return here

/-- Reads an address. -/
def parse (s : String) : Except UrlFault Url :=
  match scheme? (clean s) with
  | none => .error .noScheme
  | some (scheme, rest) =>
    match Form.ofScheme scheme with
    | .web => readHosted scheme .web (rest.dropWhile Form.web.isSlash)
    | .file => readFile rest
    | .other =>
      match rest with
      | '/' :: '/' :: rest => readHosted scheme .other rest
      | rest => .ok { scheme, query := readQuery rest }

/-- The parameters by name. -/
def parameters (u : Url) : List (String × String) :=
  let text (cs : List Char) : String :=
    Text.textOfBytesLossy (Text.percentDecode (cs.map fun c => if c = '+' then ' ' else c))
  ((Text.pieces (· = '&') u.query).filter (!·.isEmpty)).map fun piece =>
    (text (piece.takeWhile (· ≠ '=')), text ((piece.dropWhile (· ≠ '=')).drop 1))

example : (parse "redis://u:p@localhost:6380/x/../2?a").toOption =
    some ⟨"redis", ['u'], ['p'], some "localhost", some 6380, ["2"], ['a']⟩ := by
  decide +kernel

end Url

end ReliableQueue.Redis
