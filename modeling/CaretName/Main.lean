import CaretName.CommandLine.Report

/-!
# The program

Reads the files and variables that a command line can need, and prints what the command comes
to. This build starts no programs, so it writes names to standard output only.
-/
namespace CaretName

/-- The variables of the environment that are settings. -/
def settingVariables : List String :=
  ["COPYQN_CLIPBOARD__PROVIDER", "COPYQN_CLIPBOARD__COMMAND",
    "COPYQN_CLIPBOARD__CLEAR_ON_UNRESOLVED", "COPYQN_OUTPUT__ECHO_STATUS"]

/-- The paths of files that a request can need, with a user's own folder. -/
def neededPaths (home : Option String) : Option Request → List String
  | some (.copy file _ config) =>
    file :: (config <|> home.map Config.pathIn).toList
  | some (.resolve file _ _) => [file]
  | some (.declarations file _) => [file]
  | _ => []

/-- The bytes of the file at a path. -/
def readFile (path : String) : IO (Except Refusal ByteArray) := do
  try return .ok (← IO.FS.readBinFile path)
  catch refusal => match refusal with
    | .noFileOrDirectory .. => return .error .missing
    | .permissionDenied .. => return .error .forbidden
    | .inappropriateType _ code _ =>
      return .error (if code == 21 then .isFolder else .notFolder)
    | other => return .error (.because (toString other))

/-- What a command line can need of the machine. -/
def lookAround (words : List String) : IO Surroundings := do
  let home ← IO.getEnv "HOME"
  let files ← (neededPaths home (CommandLine.read? words)).mapM fun path => do
    return (path, ← readFile path)
  let environment ← settingVariables.filterMapM fun name => do
    return (← IO.getEnv name).map fun text => (name, text)
  return {
    read := fun path => (files.lookup path).getD (.error .missing)
    find? := fun _ => none
    start := fun _ => .error (.because "Operation not supported (os error 95)")
    environment, home }

end CaretName

/-- Run the command of a command line. -/
def main (words : List String) : IO UInt32 := do
  let report := CaretName.CommandLine.run (← CaretName.lookAround words) words
  IO.print report.output
  match report.trouble with
  | some trouble => IO.eprintln ("Error: " ++ trouble.report)
  | none => pure ()
  return report.status.toUInt32
