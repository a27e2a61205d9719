import CaretName.SourceFile.Basic

/-!
# Languages by file name

The extension of a file tells its language. The last component of a path counts, and a name
whose only dot is its first character has no extension.
-/
namespace CaretName

/-- The components of a path. Empty ones and those that stay where they are do not count, except
for one at the very start. -/
def pathComponents (path : String) : List String :=
  match (path.splitOn "/") with
  | [] => []
  | first :: rest =>
    (if first == "" then [] else [first]) ++ rest.filter fun part => part != "" && part != "."

/-- The name of the file that a path leads to. -/
def fileName? (path : String) : Option String :=
  ((pathComponents path).getLast?).filter fun name => name != "." && name != ".."

/-- The part of a file name after its last dot. -/
def extension? (path : String) : Option String := do
  let name := (← fileName? path).toList.reverse
  let after := name.takeWhile (· != '.')
  match name.drop after.length with
  | '.' :: before => if before.isEmpty then none else some (String.ofList after.reverse)
  | _ => none

/-- A language whose files can be looked into. -/
structure Language where
  name : String
  /-- Extensions of its files, in lower case. -/
  extensions : List String
  scheme : Scheme

namespace Language

/-- The language that the lookups of this library are for. -/
def java : Language := ⟨"java", ["java"], SourceFile.scheme⟩

/-- All languages. -/
def all : List Language := [java]

/-- The language of a file. -/
def ofPath? (path : String) : Option Language := do
  let extension := (← extension? path).toLower
  all.find? (·.extensions.contains extension)

/-- The naming scheme of the language with a name. -/
def schemeOf (name : String) : Scheme :=
  ((all.find? (·.name == name)).map scheme).getD Scheme.unknown

end Language

end CaretName
