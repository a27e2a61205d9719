import CaretName.Failure
import CaretName.Grammar.Parse
import CaretName.Resolution
import CaretName.SourceFile.Locate

/-!
# Names for positions in a source

From the text of a file and a byte of it to an element and a qualified name.
-/
namespace CaretName.SourceFile

/-- The file with a source. -/
def ofSource (source : String) : SourceFile := ofRoot (Grammar.parse source)

variable (file : SourceFile)

/-- The failure of a request for a byte past the end of a file. -/
def pastEnd (path : String) (offset : Nat) : Failure :=
  .invalidInput ("Offset " ++ toString offset ++ " is past the end of " ++ path ++ " (" ++
    toString file.root.stop ++ " bytes)")

/-- The element at a byte of the file at a path. -/
def locate (path : String) (offset : Nat) : Except Failure (Option Element) :=
  if file.root.stop < offset then .error (file.pastEnd path offset)
  else .ok (file.elementAt? offset)

/-- The name for a byte of the file at a path, or for the file when no byte is given. -/
def resolve (path : String) : Option Nat → Except Failure (Option Resolution)
  | none => .ok (Resolution.resolve none file.declarations)
  | some offset =>
    (file.locate path offset).map fun element => Resolution.resolve element file.declarations

end CaretName.SourceFile
