import CaretName.SourceFile.TypeScope
import CaretName.Text.Compact

/-!
# What the name of a type means

A simple name is looked up as a type parameter, a declaration visible from its place, an import
and a type of `java.lang`, in this order. A dotted name is looked up by its first segment. A
name that nothing declares belongs to the package of the file if it is capitalised, and starts
the name of a package otherwise.
-/
namespace CaretName

/-- Types of `java.lang` that are known without an import. -/
def standardTypes : List String :=
  ["AssertionError", "AutoCloseable", "Boolean", "Byte", "CharSequence", "Character", "Class",
    "ClassCastException", "ClassLoader", "CloneNotSupportedException", "Cloneable",
    "Comparable", "Deprecated", "Double", "Enum", "Error", "Exception", "Float",
    "FunctionalInterface", "IllegalArgumentException", "IllegalStateException",
    "IndexOutOfBoundsException", "Integer", "InterruptedException", "Iterable", "Long", "Math",
    "NullPointerException", "Number", "NumberFormatException", "Object", "OutOfMemoryError",
    "Override", "Process", "Record", "Runnable", "Runtime", "RuntimeException", "SafeVarargs",
    "SecurityException", "Short", "StackOverflowError", "String", "StringBuffer",
    "StringBuilder", "SuppressWarnings", "System", "Thread", "ThreadLocal", "Throwable",
    "UnsupportedOperationException", "Void"]

/-- What a simple name of a type means. -/
inductive TypeMeaning where
  /-- The type with a qualified name. -/
  | type (qualifiedName : String)
  /-- A type parameter. -/
  | typeVariable
  deriving DecidableEq, Repr

/-- Whether a name looks like that of a type. -/
def isCapitalised (name : String) : Bool := name.toList.head?.any isCapital

/-- The element that a dotted name means when it is complete. It names a type only if its last
segment looks like one. -/
def completeName (names : List String) : Element :=
  if names.getLast?.any isCapitalised then .type (".".intercalate names) else .other

/-- Constructs that make up dotted names. -/
def dottedNames : List Construct := [.scopedIdentifier, .scopedTypeIdentifier, .genericType]

/-- Constructs that declare type parameters. -/
def genericDeclarations : List Construct :=
  [.classDeclaration, .interfaceDeclaration, .recordDeclaration, .methodDeclaration,
    .constructorDeclaration]

/-- Constructs of the types that are no classes. -/
def primitiveTypes : List Construct :=
  [.integralType, .floatingPointType, .booleanType, .voidType]

mutual

/-- The segments of a dotted name in order. Type arguments and annotations are passed over. -/
def Node.segments (above : List Step) : Node → List Place
  | .leaf kind role span gap text =>
    let place : Place := ⟨.leaf kind role span gap text, above⟩
    if place.isAny [.identifier, .typeIdentifier] then [place] else []
  | .branch kind role span children =>
    let place : Place := ⟨.branch kind role span children, above⟩
    if place.isAny [.identifier, .typeIdentifier] then [place]
    else if place.isAny dottedNames then segmentsAmong place 0 children
    else []

/-- The segments in those of the children, numbered from `index`, that are parts. -/
def segmentsAmong (around : Place) (index : Nat) : List Node → List Place
  | [] => []
  | node :: rest =>
    (if node.isPart then node.segments (⟨around.node, index⟩ :: around.above) else []) ++
      segmentsAmong around (index + 1) rest

end

namespace Place

/-- The segments of a dotted name in order. -/
def segments (place : Place) : List Place := place.node.segments place.above

/-- The whole dotted name that a segment belongs to. -/
def wholeName (segment : Place) : Place :=
  ((segment.ancestors.takeWhile (·.isAny dottedNames)).getLast?).getD segment

/-- The texts of a dotted name up to one of its segments. -/
def pathTo (segment : Place) : List String :=
  let segments := segment.wholeName.segments
  let before := segments.takeWhile (!segment.same ·)
  (segments.take (before.length + 1)).map text

/-- Whether the place is an annotation. -/
def annotates (place : Place) : Bool := place.isAny [.annotationWithArguments, .annotationMarker]

/-- A type without the annotations in front of it. -/
def unannotated (type : Place) : Place :=
  if type.is .annotatedType then (type.parts.reverse.find? (!·.annotates)).getD type else type

/-- The type parameters that a declaration introduces, by their names. -/
def typeParameterNames (declaration : Place) : List String :=
  (((declaration.child? .typeParameters).map parts).getD []).filterMap fun parameter =>
    if parameter.is .typeParameter then
      (parameter.parts.find? (·.isAny [.typeIdentifier, .identifier])).map text
    else none

/-- Whether a name means a type parameter of a declaration around a place. -/
def seesTypeVariable (name : String) (site : Place) : Bool :=
  site.outward.any fun place =>
    place.isAny genericDeclarations && place.typeParameterNames.contains name

/-- The simple name of a class type that has no type arguments of its own. -/
def rawTypeName? (type : Place) : Option String :=
  let type := type.unannotated
  if type.is .typeIdentifier then some type.text
  else if type.is .scopedTypeIdentifier then
    (type.parts.reverse.find? (·.is .typeIdentifier)).map text
  else none

/-- The simple name of a class type: its last segment, type arguments dropped. -/
def simpleTypeName? (type : Place) : Option String :=
  let type := type.unannotated
  if type.is .genericType then type.constructs.head?.bind rawTypeName? else type.rawTypeName?

/-- How the type of a parameter appears among parameters. `dimensions` are the brackets after
the name of the parameter; a parameter that takes any number of values is an array. -/
def typeRef (type : Place) (dimensions : String) (takesMany : Bool) : TypeRef :=
  let written := compactType type.text
  if takesMany then .array (written ++ dimensions ++ "...")
  else if dimensions != "" then .array (written ++ dimensions)
  else
    let type := type.unannotated
    if type.isAny primitiveTypes then .primitive written
    else if type.is .arrayType then .array written
    else if type.is .typeIdentifier && seesTypeVariable type.text type then .typeVariable written
    else .declared (type.simpleTypeName?.getD written) written

end Place

namespace SourceFile

variable (file : SourceFile)

/-- What declares or imports a simple name, as seen from a place. -/
def lookupType? (name : String) (site : Place) : Option TypeMeaning :=
  if site.seesTypeVariable name then some .typeVariable
  else match site.visibleType? name with
    | some declaration => some (.type (file.qualifiedName declaration))
    | none =>
      match file.header.imported? name with
      | some imported => some (.type imported)
      | none =>
        if standardTypes.contains name then some (.type ("java.lang." ++ name)) else none

/-- What a simple name means. One that nothing declares belongs to the package of the file. -/
def typeMeaning (name : String) (site : Place) : TypeMeaning :=
  (file.lookupType? name site).getD (.type (file.header.qualify name))

/-- The element that a dotted name means, such as `Outer.Inner` or `java.util.List`. -/
def dottedElement (names : List String) (site : Place) : Element :=
  match names with
  | [] => .other
  | first :: rest =>
    let under (base : String) : Element := .type (rest.foldl (fun name part => name ++ "." ++ part) base)
    match file.lookupType? first site with
    | some (.type base) => under base
    | some .typeVariable => .other
    | none => if isCapitalised first then under (file.header.qualify first) else completeName names

/-- The declaration in this file of a class type that has no type arguments of its own. -/
def rawTypeDeclaration? (type : Place) : Option Place :=
  let type := type.unannotated
  if type.is .typeIdentifier then
    match file.lookupType? type.text type with
    | some (.type name) => file.typeNamed? name
    | _ => none
  else if type.is .scopedTypeIdentifier then
    match file.dottedElement (type.segments.map Place.text) type with
    | .type name => file.typeNamed? name
    | _ => none
  else none

/-- The declaration in this file of a class type. -/
def typeDeclaration? (type : Place) : Option Place :=
  let type := type.unannotated
  if type.is .genericType then type.constructs.head?.bind file.rawTypeDeclaration?
  else file.rawTypeDeclaration? type

end SourceFile

end CaretName
