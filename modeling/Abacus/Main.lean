import Abacus.Command.Run
import Std.Time.Zoned

/-!
# The program

The command line: it looks at the files that a command names, runs the command, and carries out the
changes that the run made to the workspace.

## Main definitions

* `Program.observe` — the part of the file system on the way to a path.
* `Program.apply` — makes the files and directories of a workspace.
* `main` — the program.
-/

open Abacus

namespace Program

/-- What stands at a path of the file system. What is there and cannot be read as a file is taken
for a directory. -/
def look (path : String) : IO (Option Node) := do
  try
    let content ← IO.FS.readBinFile path
    return some (.file content.toList)
  catch
    | .noFileOrDirectory .. => return none
    | _ => return some .directory

/-- The workspace with what stands on the way to a path and at it. Nothing else of the file system
is looked at. -/
def observe (ws : Workspace) (path : Path) : IO Workspace := do
  let mut seen := ws
  for count in [1 : path.steps.length + 1] do
    let way : Path := { path with steps := path.steps.take count }
    if let .ok place := seen.locate way then
      if let some node ← look way.text then
        seen := seen.put place node
  return seen

/-- The text of a place, as a path. -/
def placeText (place : Place) : String :=
  match place with
  | "/" :: rest => "/" ++ "/".intercalate rest
  | "//" :: rest => "//" ++ "/".intercalate rest
  | steps => "/".intercalate steps

/-- Makes what a workspace has beyond another. Nodes are made in the order in which the run made
them, directories before what they hold. -/
def apply (before after : Workspace) : IO Unit := do
  for (place, node) in after.nodes.reverse do
    if before.node? place != some node then
      match node with
      | .directory => IO.FS.createDirAll (placeText place)
      | .file content => IO.FS.writeBinFile (placeText place) ⟨content.toArray⟩

/-- A number in at least some count of digits. -/
def padded (count n : Nat) : String :=
  let digits := toString n
  String.ofList (List.replicate (count - digits.length) '0') ++ digits

/-- The present time, to the second, in UTC. -/
def timestamp : IO String := do
  let now := Std.Time.DateTime.ofTimestamp (← Std.Time.Timestamp.now)
    Std.Time.TimeZone.ZoneRules.UTC
  return padded 4 now.year.toInt.toNat ++ padded 2 now.month.toNat ++ padded 2 now.day.toNat ++
    "T" ++ padded 2 now.hour.toNat ++ padded 2 now.minute.toNat ++ padded 2 now.second.toNat ++
    "Z"

/-- The variables of the environment that settings are made of. -/
def environment : IO (List (String × String)) := do
  let names := [Settings.strictVariable, Settings.digitsVariable]
  names.filterMapM fun name => do
    return (← IO.getEnv name).map fun text => (name, text)

/-- The paths that an invocation names. -/
def pathsOf : Command.Invocation → List Path
  | .batch path json .. => (path :: json.toList).map Path.ofText
  | _ => []

/-- How to use the program. -/
def usage : String :=
  "Usage: abacus eval EXPRESSION [--strict | --lenient] [--digits N]\n" ++
  "       abacus tokens EXPRESSION [--strict | --lenient]\n" ++
  "       abacus batch FILE [--json FILE] [--strict | --lenient] [--digits N]\n"

/-- Runs a command on the file system. -/
def run (invocation : Command.Invocation) : IO UInt32 := do
  let before ← (pathsOf invocation).foldlM observe Workspace.empty
  let ending := Command.run (← environment) before (← timestamp) invocation
  IO.print ending.output
  IO.eprint ending.errors
  apply before ending.workspace
  if let some abort := ending.abort then
    IO.eprintln (repr abort).pretty
  return ending.exitCode.toUInt32

end Program

/-- The program: runs the command that the arguments ask for. -/
def main (args : List String) : IO UInt32 := do
  match Command.Arguments.parse args with
  | .run invocation => Program.run invocation
  | .help =>
    IO.print Program.usage
    return 0
  | .nothing =>
    IO.print Program.usage
    return 2
  | .wrong =>
    IO.eprint Program.usage
    return 2
