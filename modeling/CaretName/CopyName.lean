import CaretName.Caret
import CaretName.Clipboard.Basic
import CaretName.Language
import CaretName.SourceFile.Analysis
import CaretName.Surroundings.Basic

/-!
# Copying the name under a caret

The file at a path and a caret in it give a name, which is written to a clipboard. A file of
another language is left alone and not even read. A caret without a name leaves the clipboard
as it is, or clears it if so configured.
-/
namespace CaretName

/-- What comes of looking for a name. -/
inductive Outcome where
  /-- The file is of no language that is known. -/
  | unsupported
  /-- Neither the element under the caret nor the file has a name. -/
  | unresolved
  | resolved (resolution : Resolution)
  deriving DecidableEq, Repr

namespace Outcome

/-- The name that was found. -/
def qualifiedName? : Outcome → Option String
  | resolved resolution => some resolution.qualifiedName
  | _ => none

/-- What is said about a file of another language. -/
def unsupportedStatus (path : String) : String := "It isn't a Java file: " ++ path

/-- A line about the outcome for the file at a path, empty where nothing was found. -/
def status (path : String) : Outcome → String
  | unsupported => unsupportedStatus path
  | unresolved => ""
  | resolved resolution => resolution.qualifiedName

/-- The outcome of a resolution that may have found nothing. -/
def ofResolution : Option Resolution → Outcome
  | some resolution => resolved resolution
  | none => unresolved

/-- What the clipboard is to hold after an outcome, where it is to change. -/
def contents? (clearOnUnresolved : Bool) : Outcome → Option Contents
  | resolved resolution => some (some resolution.qualifiedName)
  | unresolved => if clearOnUnresolved then some none else none
  | unsupported => none

end Outcome

/-- What was being done when writing to the clipboard failed. -/
def Contents.activity : Contents → String
  | some _ => "Failed to write to clipboard"
  | none => "Failed to clear clipboard"

/-- A result with the activity that its trouble interrupts. -/
def withActivity {α : Type} (activity : String) (result : Except Trouble α) :
    Except Trouble α := result.mapError (.during activity)

namespace Surroundings

variable (surroundings : Surroundings)

/-- The source at a path. -/
def source (path : String) : Except Trouble String :=
  withActivity ("Failed to read " ++ path) ((surroundings.readText path).mapError fun refusal =>
    .system refusal.words)

/-- The byte of a caret in the file at a path, if there is a caret. -/
def caretByte (path source : String) : Option Caret → Except Trouble (Option Nat)
  | none => .ok none
  | some caret =>
    withActivity ("Invalid caret position for " ++ path)
      (((caret.byte source.toList).map some).mapError fun error => .failed error.toFailure)

/-- The name for a caret in the file at a path, or for the file where there is no caret. -/
def resolvePath (path : String) (caret : Option Caret) : Except Trouble Outcome :=
  if (Language.ofPath? path).isNone then .ok .unsupported
  else do
    let source ← surroundings.source path
    let byte ← caretByte path source caret
    let resolution ← withActivity ("Failed to analyze " ++ path)
      (((SourceFile.ofSource source).resolve path byte).mapError .failed)
    .ok (.ofResolution resolution)

/-- The types declared at the top of the file at a path, if its language is known. -/
def listDeclarations (path : String) : Except Trouble (Option (List Declaration)) :=
  if (Language.ofPath? path).isNone then .ok none
  else (surroundings.source path).map fun source => some (SourceFile.ofSource source).declarations

/-- Write the outcome of a look-up to a clipboard. -/
def publish {Event : Type} (clearOnUnresolved : Bool) (clipboard : Clipboard Event)
    (outcome : Outcome) : Except Trouble Outcome × List Event :=
  match outcome.contents? clearOnUnresolved with
  | none => (.ok outcome, [])
  | some contents =>
    let (result, events) := clipboard contents
    (withActivity contents.activity ((result.mapError .failed).map fun () => outcome), events)

/-- Copy the name for a caret in the file at a path to a clipboard. -/
def copyName {Event : Type} (path : String) (caret : Option Caret) (clearOnUnresolved : Bool)
    (clipboard : Clipboard Event) : Except Trouble Outcome × List Event :=
  match surroundings.resolvePath path caret with
  | .error trouble => (.error trouble, [])
  | .ok outcome => publish clearOnUnresolved clipboard outcome

end Surroundings

end CaretName
