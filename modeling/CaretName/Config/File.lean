import CaretName.Config.Load
import CaretName.Surroundings.Basic

/-!
# The configuration file

A command reads the file that it is told to, or else the one in the user's own folder. A file
that does not exist is as good as an empty one, but one that cannot be read is a failure.
-/
namespace CaretName.Config

/-- The failure that a user without a folder is. -/
def noHome : Failure := .config "Unable to determine home directory"

/-- The path of the file in the user's own folder. -/
def pathIn (home : String) : String := home ++ "/.copyqn/config.toml"

/-- The path of the file to read. -/
def filePath (surroundings : Surroundings) : Option String → Except Failure String
  | some path => .ok path
  | none =>
    match surroundings.home with
    | some home => .ok (pathIn home)
    | none => .error noHome

/-- The settings of the file at a path, if there is one. -/
def fileLayer (surroundings : Surroundings) (path : String) : Except Failure (Option Setting) :=
  if !surroundings.holds path then .ok none
  else match surroundings.readText path with
    | .error _ => .error notBuilt
    | .ok text =>
      match fileSettings? path text with
      | some setting => .ok (some setting)
      | none => .error notBuilt

/-- The configuration of a command that is told the path of a file, or none. -/
def load (surroundings : Surroundings) (path : Option String) : Except Failure Config := do
  let path ← filePath surroundings path
  let file ← fileLayer surroundings path
  ofLayers file surroundings.environment

end CaretName.Config
