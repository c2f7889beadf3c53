import ReliableQueue.Config.Dotenv
import ReliableQueue.Config.Json
import ReliableQueue.Config.Reading
import ReliableQueue.Config.Toml
import ReliableQueue.Text.Pieces

/-!
Where settings come from: the default file, over it the file of the environment that
the process runs in, over both the environment variables. A variable that is not set
may be defined in a file of its own.
-/

namespace ReliableQueue.Config

/-- The files under the working directory, by their paths from it. -/
structure Directory where
  name : String
  files : List (String × String)

inductive Format where
  | toml
  | json
deriving DecidableEq, Repr

namespace Format

def ofExtension? (ext : String) : Option Format :=
  if ext = "toml" then some .toml else if ext = "json" then some .json else none

def fileExtension : Format → String
  | toml => "toml"
  | json => "json"

/-- In the order in which a path without an extension is tried. -/
def all : List Format := [toml, json]

def read? (f : Format) (origin text : String) : Option (List (String × Value)) :=
  match f with
  | toml => Toml.read? origin text
  | json => Json.read? origin text

end Format

namespace Path

/-- What stands between the slashes of a path. -/
def pieces (path : String) : List String := (Text.pieces (· = '/') path.toList).map String.ofList

/-- The parts of a path that lead anywhere. -/
def parts (path : String) : List String := (pieces path).filter fun p => p ≠ "" && p ≠ "."

def isAbsolute (path : String) : Bool := path.startsWith "/"

/-- Whether a path can only mean a directory. -/
def namesDirectory (path : String) : Bool :=
  (pieces path).getLast?.any fun p => p = "" || p = "." || p = ".."

def join (ps : List String) : String := String.intercalate "/" ps

/-- The parts of a path after its ways up were taken. -/
def direct (path : String) : List String :=
  (parts path).foldl (fun place p => if p = ".." then place.dropLast else place ++ [p]) []

/-- What stands after the last dot of a name that does not start with it. -/
def extension? (name : String) : Option String :=
  let after := name.toList.reverse.takeWhile (· ≠ '.')
  let before := name.toList.reverse.dropWhile (· ≠ '.')
  if before.length ≤ 1 then none else some (String.ofList after.reverse)

end Path

namespace Directory

/-- Whether some file lies below a place. -/
def hasDirectory (d : Directory) (place : List String) : Bool :=
  d.files.any fun f =>
    let parts := Path.parts f.1
    place.length < parts.length && place.isPrefixOf parts

/-- The place that the parts of a path lead to from another, up to parents and down.
A way up leads from a directory, and not out of this one. -/
def place? (d : Directory) (start : List String) : List String → Option (List String)
  | [] => some start
  | ".." :: parts =>
      if !start.isEmpty && d.hasDirectory start then place? d start.dropLast parts else none
  | name :: parts => place? d (start ++ [name]) parts

/-- The text of the file that the parts of a path lead to. -/
def text? (d : Directory) (parts : List String) : Option String := do
  let place ← d.place? [] parts
  (d.files.find? fun f => Path.parts f.1 = place).map Prod.snd

/-- The file that a path means, with its format: the file itself, or the one whose
extension is left out. -/
def find (d : Directory) (path : String) : Except Error (List String × Format) :=
  let parts := Path.parts path
  let missing : Except Error (List String × Format) := .error (.missingFile path)
  if Path.isAbsolute path then missing
  else
    match parts.getLast? with
    | none => missing
    | some last =>
      if (d.text? parts).isSome && !Path.namesDirectory path then
        match (Path.extension? last).bind Format.ofExtension? with
        | some f => .ok (parts, f)
        | none => .error (.unknownFormat (d.name ++ "/" ++ path))
      else if last = ".." then missing
      else
        let named (f : Format) : List String := parts.dropLast ++ [last ++ "." ++ f.fileExtension]
        match Format.all.find? fun f => (d.text? (named f)).isSome with
        | some f => .ok (named f, f)
        | none => missing

/-- The source in a file that is there. -/
def readSource (d : Directory) (parts : List String) (f : Format) :
    Except Error (List (String × Value)) :=
  let origin := Path.join parts
  match f.read? origin ((d.text? parts).getD "") with
  | some source => .ok source
  | none => .error (.fileParse origin)

/-- The source behind a path. -/
def source (d : Directory) (path : String) : Except Error (List (String × Value)) := do
  let (parts, f) ← d.find path
  d.readSource parts f

/-- The source behind a path, or an empty one if there is no such file. -/
def sourceIfAny (d : Directory) (path : String) : Except Error (List (String × Value)) :=
  match d.find path with
  | .error _ => .ok []
  | .ok (parts, f) => d.readSource parts f

end Directory

namespace Settings

/-- The settings of sources that are given from the lowest on. -/
def ofSources (sources : List (List (String × Value))) : Except Error Settings :=
  read (sources.foldl Value.overlay .emptyTable)

/-- The variables with those that the definition file adds. -/
def environment (d : Directory) (env : Environment) : Environment :=
  match d.text? [".env"] with
  | some text => Dotenv.apply env text
  | none => env

/-- The name of the environment that the process runs in. -/
def environmentName (env : Environment) : String :=
  (env.lookup "TASKQUEUE_ENV").getD "development"

/-- The settings of a process. -/
def load (d : Directory) (env : Environment) : Except Error Settings := do
  let env := environment d env
  let base ← d.sourceIfAny "config/default"
  let specific ← d.sourceIfAny ("config/" ++ environmentName env)
  ofSources [base, specific, env.source]

/-- The settings in one file and the environment variables. -/
def fromFile (d : Directory) (env : Environment) (path : String) : Except Error Settings := do
  ofSources [← d.source path, env.source]

end Settings

end ReliableQueue.Config
