import CaretName.SourceFile.Basic
import CaretName.Element

/-!
# Declared types and their members

A type scope is what members belong to: the declaration of a type, or the body of an anonymous
class. This module finds the type scopes around a place and the declarations of types visible
from it, and gives types their qualified names.
-/
namespace CaretName

/-- Constructs that declare a type. -/
def typeDeclarations : List Construct :=
  [.classDeclaration, .interfaceDeclaration, .enumDeclaration, .recordDeclaration,
    .annotationTypeDeclaration]

/-- Constructs whose children may be declarations of types. -/
def memberContainers : List Construct :=
  [.program, .classBody, .interfaceBody, .enumBody, .enumBodyDeclarations, .annotationTypeBody,
    .block, .constructorBody, .switchBlockStatementGroup]

namespace Place

/-- Whether the place declares a type. -/
def isTypeDeclaration (place : Place) : Bool := place.isAny typeDeclarations

/-- Whether the place is the body of an anonymous class, created or belonging to a constant. -/
def isAnonymousBody (place : Place) : Bool :=
  place.is .classBody &&
    place.parent?.any (·.isAny [.objectCreationExpression, .enumConstant])

/-- Whether members belong to the place. -/
def isTypeScope (place : Place) : Bool := place.isTypeDeclaration || place.isAnonymousBody

/-- The body that holds the members of a type scope. -/
def typeBody? (scope : Place) : Option Place :=
  if scope.is .classBody then some scope else scope.child? .body

/-- The members of a body. What follows the constants of an enum counts as members of it. -/
def members (body : Place) : List Place :=
  body.parts.flatMap fun child =>
    if child.is .enumBodyDeclarations then child.parts else [child]

/-- The members of a type scope. -/
def scopeMembers (scope : Place) : List Place := (scope.typeBody?.map members).getD []

/-- The simple name that a declaration introduces. -/
def declaredName? (declaration : Place) : Option String :=
  (declaration.child? .name).map Place.text

/-- Whether a declaration is marked public. -/
def isPublic (declaration : Place) : Bool :=
  (declaration.children.find? (·.is .modifiers)).any fun modifiers =>
    modifiers.children.any (·.isMark "public")

/-- The nearest type scope around a place, which itself does not count. -/
def enclosingScope? (place : Place) : Option Place := place.ancestors.find? isTypeScope

/-- The nearest declaration of a type around a place, which itself does not count. -/
def enclosingType? (place : Place) : Option Place := place.ancestors.find? isTypeDeclaration

/-- Whether a declaration of a type introduces a name. -/
def declaresType (name : String) (place : Place) : Bool :=
  place.isTypeDeclaration && place.declaredName? == some name

/-- The declaration of a type with a simple name that a place or its members give. -/
def typeNamedHere? (name : String) (place : Place) : Option Place :=
  if place.declaresType name then some place
  else if place.isAny memberContainers then place.members.find? (declaresType name)
  else none

/-- The declaration of a type that a simple name means at a place, going outward. -/
def visibleType? (name : String) (site : Place) : Option Place :=
  site.outward.findSome? (typeNamedHere? name)

end Place

namespace SourceFile

variable (file : SourceFile)

/-- The qualified name of a declared type. A local type has no package. -/
def qualifiedName (declaration : Place) : String :=
  let path := scheme.path declaration
  if path.isLocal then path.joined else file.header.qualify path.joined

/-- The qualified name of a type scope. Anonymous classes have the empty name. -/
def scopeName (scope : Place) : String :=
  if scope.isAnonymousBody then "" else file.qualifiedName scope

/-- All declarations of types in the file: a type before those declared in it. -/
def allTypes : List Place := Place.search Place.isTypeDeclaration [file.place]

/-- The first declaration of a type with a qualified name. -/
def typeNamed? (name : String) : Option Place :=
  file.allTypes.find? fun declaration => file.qualifiedName declaration == name

/-- The types declared at the top of the file. -/
def declarations : List Declaration :=
  (file.place.parts.filter Place.isTypeDeclaration).map fun declaration =>
    ⟨file.qualifiedName declaration, declaration.isPublic⟩

end SourceFile

end CaretName
