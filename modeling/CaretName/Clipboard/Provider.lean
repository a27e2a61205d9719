import CaretName.Clipboard.Basic
import CaretName.Config.Basic

/-!
# Choosing a clipboard

The configuration names the clipboard: a known program, the first known program that is found,
a command of the user's own, or standard output.
-/
namespace CaretName

/-- A clipboard program that is known by a name. -/
structure Provider where
  name : String
  program : String
  args : List String := []
  clearArgs : Option (List String) := none
  deriving DecidableEq, Repr

namespace Provider

/-- The known programs, in the order in which they are tried: those of desktops come first. -/
def all : List Provider :=
  [{ name := "wl-copy", program := "wl-copy", clearArgs := some ["--clear"] },
    { name := "pbcopy", program := "pbcopy" },
    { name := "xclip", program := "xclip", args := ["-selection", "clipboard"] },
    { name := "xsel", program := "xsel", args := ["--clipboard", "--input"],
      clearArgs := some ["--clipboard", "--clear"] },
    { name := "clip", program := "clip.exe" }]

/-- The known program with a name. -/
def named? (name : String) : Option Provider := all.find? (·.name == name)

/-- The clipboard of a known program, where it is found. -/
def open? (surroundings : Surroundings) (provider : Provider) : Option ClipboardProgram :=
  (surroundings.find? provider.program).map fun (path, program) =>
    ⟨path, .ok program, provider.args, provider.clearArgs⟩

end Provider

namespace ClipboardConfig

/-- The failure that a command without a program is. -/
def commandMissing : Failure :=
  .config "clipboard.command must name a program when provider is \"command\""

/-- The failure that finding no program at all is. -/
def noneFound : Failure :=
  .clipboard ("No clipboard program found on PATH (tried " ++
    ", ".intercalate (Provider.all.map (·.program)) ++ ")")

/-- The failure that not finding a program is. -/
def notFound (provider : Provider) : Failure := .clipboard (provider.program ++ " not found on PATH")

/-- The failure that a name of no program is. -/
def unknown (name : String) : Failure := .config ("Unknown clipboard provider: " ++ name)

/-- The first known program that is found. -/
def openFirst (surroundings : Surroundings) : Except Failure ClipboardProgram :=
  match Provider.all.findSome? (·.open? surroundings) with
  | some clipboard => .ok clipboard
  | none => .error noneFound

/-- The known program with a name. -/
def openNamed (surroundings : Surroundings) (name : String) : Except Failure ClipboardProgram :=
  match Provider.named? name with
  | none => .error (unknown name)
  | some provider =>
    match provider.open? surroundings with
    | some clipboard => .ok clipboard
    | none => .error (notFound provider)

/-- The program of a command. -/
def openCommand (surroundings : Surroundings) :
    List String → Except Failure ClipboardProgram
  | [] => .error commandMissing
  | program :: args => .ok ⟨program, surroundings.start program, args, none⟩

/-- The clipboard that a configuration names. -/
def openClipboard (config : ClipboardConfig) (surroundings : Surroundings) :
    Except Failure (Clipboard ClipboardEvent) :=
  let ofProgram := fun (clipboard : ClipboardProgram) =>
    Clipboard.mapEvents ClipboardEvent.ran clipboard.write
  if config.provider == "stdout" then
    .ok (Clipboard.mapEvents ClipboardEvent.printed Clipboard.lines)
  else if config.provider == "command" then
    (openCommand surroundings config.command).map ofProgram
  else if config.provider == "auto" then (openFirst surroundings).map ofProgram
  else (openNamed surroundings config.provider).map ofProgram

end ClipboardConfig

end CaretName
