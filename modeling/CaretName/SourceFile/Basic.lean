import CaretName.SourceFile.Header
import CaretName.Naming.Scheme

/-!
# Source files

A source file is its syntax tree with its header. All lookups of names are functions on it.
-/
namespace CaretName

/-- A file as its lookups see it. -/
structure SourceFile where
  root : Node
  header : Header
  deriving Repr

namespace SourceFile

/-- The file with a syntax tree. -/
def ofRoot (root : Node) : SourceFile := ⟨root, Header.ofRoot root⟩

/-- The place of the whole file. -/
def place (file : SourceFile) : Place := Place.root file.root

/-- How types are named by nesting: a type inside a body of code or of an anonymous class is
local. -/
def scheme : Scheme where
  separator := "."
  named :=
    [.classDeclaration, .interfaceDeclaration, .enumDeclaration, .recordDeclaration,
      .annotationTypeDeclaration]
  boundaries :=
    [.block, .constructorBody, .staticInitializer, .objectCreationExpression, .enumConstant]

end SourceFile

end CaretName
