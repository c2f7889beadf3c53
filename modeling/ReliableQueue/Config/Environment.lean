import ReliableQueue.Config.Layers

/-!
Environment variables as a configuration source. A name starts with the prefix, in any
case, and two underscores separate the parts of a path. A value is a truth value, a
whole number or a number if it can be read as one, and text if not.
-/

namespace ReliableQueue.Config

/-- The variables of a process, in any order; no name occurs twice. -/
abbrev Environment := List (String × String)

namespace Environment

def namePrefix : String := "taskqueue__"

def origin : String := "the environment"

/-- Two underscores become a dot, from the left. -/
def dotted : List Char → List Char
  | '_' :: '_' :: cs => '.' :: dotted cs
  | c :: cs => c :: dotted cs
  | [] => []

/-- The path that a variable's name stands for. -/
def path? (name : String) : Option String :=
  let low := Text.lower name
  if low.startsWith namePrefix then
    some (String.ofList (dotted (low.toList.drop namePrefix.length)))
  else none

def scalar (value : String) : Scalar :=
  let low := Text.lower value
  if low = "true" then .truth true
  else if low = "false" then .truth false
  else
    match Text.int64? value with
    | some i => .int i
    | none =>
      match Text.float? value with
      | some x => .float x
      | none => .text value

/-- The settings among the variables. -/
def source (env : Environment) : List (String × Value) :=
  env.filterMap fun (name, value) =>
    (path? name).map fun path => (path, .scalar (some origin) (scalar value))

end Environment

end ReliableQueue.Config
