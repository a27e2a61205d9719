import CaretName.Failure

/-!
# Configuration

Which clipboard is written to, what is done when nothing resolves, and what is printed.
-/
namespace CaretName

/-- The clipboard to write to. -/
structure ClipboardConfig where
  /-- `auto`, the name of a clipboard program, `command` or `stdout`. -/
  provider : String := "auto"
  /-- The program that `command` stands for, with its arguments. -/
  command : List String := []
  /-- Whether the clipboard is cleared when nothing resolves. -/
  clearOnUnresolved : Bool := false
  deriving DecidableEq, Repr, Inhabited

/-- What is printed. -/
structure OutputConfig where
  /-- Whether a name that was copied is printed as well. -/
  echoStatus : Bool := true
  deriving DecidableEq, Repr, Inhabited

/-- The whole configuration. -/
structure Config where
  clipboard : ClipboardConfig := {}
  output : OutputConfig := {}
  deriving DecidableEq, Repr, Inhabited

/-- The names that a provider may have. -/
def ClipboardConfig.providers : List String :=
  ["auto", "wl-copy", "pbcopy", "xclip", "xsel", "clip", "command", "stdout"]

/-- A name between double quotes. -/
def inQuotes (name : String) : String := "\"" ++ name ++ "\""

namespace Config

/-- The failure that an unknown provider is. -/
def unknownProvider (provider : String) : Failure :=
  .config ("Invalid clipboard provider '" ++ provider ++ "'. Must be one of: [" ++
    ", ".intercalate (ClipboardConfig.providers.map inQuotes) ++ "]")

/-- The failure that a command without a program is. -/
def noProgram : Failure :=
  .config "clipboard.command must name a program when provider is 'command'"

/-- Why a configuration cannot be used, if it cannot. -/
def fault? (config : Config) : Option Failure :=
  let clipboard := config.clipboard
  if !ClipboardConfig.providers.contains clipboard.provider then
    some (unknownProvider clipboard.provider)
  else if clipboard.provider == "command" && clipboard.command.isEmpty then some noProgram
  else none

/-- Check that a configuration can be used. -/
def validate (config : Config) : Except Failure Unit :=
  match config.fault? with
  | some failure => .error failure
  | none => .ok ()

end Config

end CaretName
