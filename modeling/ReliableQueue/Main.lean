import ReliableQueue.Service.Process

/-!
The worker program: it reads its settings from the working directory and the process
environment, starts, and reports a start that failed.
-/

namespace ReliableQueue.Main

open Config (Directory Environment)

/-- The file at a path, if it can be read, under its direct path. -/
def readFile? (path : String) : IO (List (String × String)) := do
  try
    return [(Config.Path.join (Config.Path.direct path), ← IO.FS.readFile path)]
  catch _ => return []

/-- The files that settings of an environment can be in. -/
def candidates (env : Environment) : List String :=
  ["config/default", "config/" ++ Config.Settings.environmentName env].flatMap fun base =>
    base :: Config.Format.all.map fun f => base ++ "." ++ f.fileExtension

/-- The variables in a block that ends each of them with a zero byte. -/
def ofBlock (block : String) : Environment :=
  (block.splitOn "\x00").filterMap fun line =>
    let name := line.toList.takeWhile (· ≠ '=')
    if name.length < line.length then
      some (String.ofList name, String.ofList (line.toList.drop (name.length + 1)))
    else none

def readEnvironment : IO Environment := do
  match ← readFile? "/proc/self/environ" with
  | [(_, block)] => return ofBlock block
  | _ => return []

/-- The working directory, with the files that settings can be in. -/
def readDirectory (env : Environment) : IO Directory := do
  let name := (← IO.currentDir).toString
  let definitions ← readFile? ".env"
  let settled := Config.Settings.environment ⟨name, definitions⟩ env
  return ⟨name, definitions ++ (← (candidates settled).flatMapM readFile?)⟩

end ReliableQueue.Main

open ReliableQueue in
/-- This program opens no connections of its own, so its start ends there. -/
def main : IO UInt32 := do
  let env ← Main.readEnvironment
  let report := Service.Report.ofProcess (← Main.readDirectory env) env .unreachable
  for line in report.logLines do
    IO.println line
  for line in report.complaints do
    IO.eprintln line
  return UInt32.ofNat (report.code.getD 0)
