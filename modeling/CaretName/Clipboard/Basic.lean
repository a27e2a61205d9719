import CaretName.Failure
import CaretName.Surroundings.Basic

/-!
# Clipboards

A clipboard is given new contents, or cleared. It answers whether that worked, together with
the events that it led to, so that a clipboard without a memory of its own can be told about
afterwards. Most clipboards are programs that read the new contents from their input.
-/
namespace CaretName

/-- What is to become of a clipboard: new contents, or none. -/
abbrev Contents := Option String

/-- A clipboard: whether new contents were taken, and what happened. -/
abbrev Clipboard (Event : Type) := Contents → Except Failure Unit × List Event

/-- One run of a program, with what it read from its input if it had one. -/
structure Run where
  program : String
  args : List String
  input : Option String
  deriving DecidableEq, Repr

/-- What can be seen from outside of a write to a clipboard. -/
inductive ClipboardEvent where
  | ran (run : Run)
  | printed (text : String)
  deriving DecidableEq, Repr

/-- A clipboard program and how it is called. -/
structure ClipboardProgram where
  /-- The path or the name that it is started by. -/
  path : String
  /-- What starting it leads to. -/
  program : Except Refusal Program
  args : List String
  /-- The arguments that clear the clipboard, where there are any. -/
  clearArgs : Option (List String)

/-- How many bytes are taken of an input that is not read. -/
def pipeCapacity : Nat := 65536

namespace ClipboardProgram

variable (clipboard : ClipboardProgram)

/-- The failure that not starting is. -/
def notStarted (refusal : Refusal) : Failure :=
  .clipboard ("Failed to start " ++ clipboard.path ++ ": " ++ refusal.words)

/-- The failure that an unread input is. -/
def notRead (status : Nat) : Failure :=
  .clipboard ("Failed to write to " ++ clipboard.path ++ " (exit status: " ++ toString status ++
    "): " ++ Refusal.brokenPipe.words)

/-- The failure that a status other than zero is. -/
def ended (status : Nat) : Failure :=
  .clipboard (clipboard.path ++ " exited with exit status: " ++ toString status)

/-- What comes of a run with an input or without. -/
def verdict (program : Program) (input : Option String) : Except Failure Unit :=
  if !program.reads && input.any (pipeCapacity < ·.utf8ByteSize) then
    .error (clipboard.notRead program.status)
  else if program.status != 0 then .error (clipboard.ended program.status)
  else .ok ()

/-- Start the program once. -/
def run (args : List String) (input : Option String) : Except Failure Unit × List Run :=
  match clipboard.program with
  | .error refusal => (.error (clipboard.notStarted refusal), [])
  | .ok program =>
    (clipboard.verdict program input,
      [⟨program.name, args, if program.reads then input else none⟩])

/-- Write to the clipboard. Where there are no arguments for clearing, it is written an empty
text. -/
def write : Clipboard Run
  | some text => clipboard.run clipboard.args (some text)
  | none =>
    match clipboard.clearArgs with
    | some args => clipboard.run args none
    | none => clipboard.run clipboard.args (some "")

end ClipboardProgram

namespace Clipboard

/-- A clipboard that prints each text on a line of its own and nothing for a clear. -/
def lines : Clipboard String
  | some text => (.ok (), [text ++ "\n"])
  | none => (.ok (), [])

/-- A clipboard that keeps a record of what it is given, unless it refuses everything. -/
def recorder (refusal : Option Failure) : Clipboard Contents := fun contents =>
  match refusal with
  | some failure => (.error failure, [])
  | none => (.ok (), [contents])

/-- The same clipboard with its events put in another way. -/
def mapEvents {Event Other : Type} (change : Event → Other) (clipboard : Clipboard Event) :
    Clipboard Other := fun contents =>
  let (result, events) := clipboard contents
  (result, events.map change)

end Clipboard

end CaretName
