import CaretName.Tree.Place
import CaretName.Text.Blank
import CaretName.Text.Compact

/-!
# Package and imports of a file

The header of a compilation unit gives the package its types belong to, and the types that go
by their simple names although they are declared elsewhere. Imports of static members and of
all types of a package name no type.
-/
namespace CaretName

/-- The package and the single-type imports of a file. -/
structure Header where
  package : Option String
  /-- Simple names with the qualified names they stand for, in the order of the file. -/
  imports : List (String × String)
  deriving DecidableEq, Repr

/-- The dotted name in a declaration of a package or an import, without white space. -/
def dottedName? (declaration : Place) : Option String :=
  (declaration.constructs.find? (·.isAny [.scopedIdentifier, .identifier])).map fun name =>
    withoutBlanks name.text

/-- The part of a dotted name after its last dot. -/
def lastSegment (name : String) : String :=
  String.ofList (name.toList.reverse.takeWhile (· != '.')).reverse

namespace Header

/-- What an import declares: a simple name and the name it stands for. -/
def import? (declaration : Place) : Option (String × String) :=
  if declaration.children.any fun child => child.isMark "static" || child.is .asterisk then none
  else (dottedName? declaration).map fun name => (lastSegment name, name)

/-- The header of a file. Of several package declarations the last one counts. -/
def ofRoot (root : Node) : Header :=
  let places := root.places []
  { package := ((places.filter (·.is .packageDeclaration)).getLast?).bind dottedName?
    imports := (places.filter (·.is .importDeclaration)).filterMap import? }

/-- The qualified name of a name declared at the top of the file. -/
def qualify (header : Header) (name : String) : String :=
  match header.package with
  | some package => package ++ "." ++ name
  | none => name

/-- The qualified name that a simple name is imported for. The last import of a name counts. -/
def imported? (header : Header) (name : String) : Option String :=
  (header.imports.reverse.find? (·.1 == name)).map (·.2)

end Header

end CaretName
