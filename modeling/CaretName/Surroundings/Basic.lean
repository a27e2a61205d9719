import CaretName.Config.Environment

/-!
# Surroundings of a command

What a command can see of the machine it runs on: files, the environment, and programs that it
can start. They are given as functions, so whoever reads a real machine and whoever makes one
up can run the same commands.
-/
namespace CaretName

/-- Why the system refuses something. -/
inductive Refusal where
  | missing
  | notFolder
  | isFolder
  | notText
  | forbidden
  | brokenPipe
  /-- Anything else, in the words of the system. -/
  | because (words : String)
  deriving DecidableEq, Repr

/-- The words of the system for a refusal. -/
def Refusal.words : Refusal → String
  | missing => "No such file or directory (os error 2)"
  | notFolder => "Not a directory (os error 20)"
  | isFolder => "Is a directory (os error 21)"
  | notText => "stream did not contain valid UTF-8"
  | forbidden => "Permission denied (os error 13)"
  | brokenPipe => "Broken pipe (os error 32)"
  | because words => words

/-- A program as the one who starts it sees it. -/
structure Program where
  name : String
  /-- The status it ends with. -/
  status : Nat
  /-- Whether it reads its input before it ends. -/
  reads : Bool
  deriving DecidableEq, Repr, Inhabited

/-- What a command can see of the machine it runs on. -/
structure Surroundings where
  /-- The bytes of the file at a path. -/
  read : String → Except Refusal ByteArray
  /-- The program with a name among those that are found by name, and its path. -/
  find? : String → Option (String × Program)
  /-- The program that a name or a path starts. -/
  start : String → Except Refusal Program
  environment : Environment
  /-- The path of the user's own folder. -/
  home : Option String

namespace Surroundings

/-- The text of the file at a path. -/
def readText (surroundings : Surroundings) (path : String) : Except Refusal String := do
  match String.fromUTF8? (← surroundings.read path) with
  | some text => .ok text
  | none => .error .notText

/-- Whether there is a file or a folder at a path. -/
def holds (surroundings : Surroundings) (path : String) : Bool :=
  match surroundings.read path with
  | .ok _ => true
  | .error .isFolder => true
  | .error .forbidden => true
  | .error _ => false

end Surroundings

end CaretName
