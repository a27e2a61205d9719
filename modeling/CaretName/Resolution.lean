import CaretName.Element

/-!
# Qualified names

The name of an element is written from the element alone. Where there is no element, or one
without a qualified form, the name of the file's primary type stands in: the first public type
wherever it is declared, or else the first type.
-/
namespace CaretName

/-- The qualified name of an element, if it has one. -/
def Element.qualifiedName? : Element → Option String
  | .type qualifiedName => some qualifiedName
  | .variable declaredType simpleName => some (declaredType ++ "." ++ simpleName)
  | .method enclosingType simpleName parameters =>
    some (enclosingType ++ "#" ++ simpleName ++ TypeRef.displayAll parameters)
  | .constructor enclosingType parameters =>
    some (enclosingType ++ TypeRef.displayAll parameters)
  | .other => none

/-- The qualified name of the primary type among the declarations of a file. -/
def primaryType? (declarations : List Declaration) : Option String :=
  (declarations.find? (·.isPublic) <|> declarations.head?).map (·.qualifiedName)

/-- Where a name comes from. -/
inductive Origin where
  /-- The element under the caret. -/
  | element (kind : ElementKind)
  /-- The primary type of the file. -/
  | file
  deriving DecidableEq, Repr

/-- A qualified name and where it comes from. -/
structure Resolution where
  qualifiedName : String
  origin : Origin
  deriving DecidableEq, Repr

namespace Resolution

/-- The name of an element, where it has one. -/
def ofElement? (element : Element) : Option Resolution :=
  element.qualifiedName?.map fun qualifiedName => ⟨qualifiedName, .element element.kind⟩

/-- The name of the primary type of a file, where it declares any. -/
def ofFile? (declarations : List Declaration) : Option Resolution :=
  (primaryType? declarations).map fun qualifiedName => ⟨qualifiedName, .file⟩

/-- Whether resolving an element has to look at the declarations of the file. -/
def needsFile (element : Option Element) : Bool := (element.bind ofElement?).isNone

/-- The name of the element, or else of the primary type of the file. -/
def resolve (element : Option Element) (declarations : List Declaration) : Option Resolution :=
  element.bind ofElement? <|> ofFile? declarations

end Resolution

end CaretName
