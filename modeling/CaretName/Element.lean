/-!
# Elements of a program

What can stand under a caret: a type, a variable, a method, a constructor, or something that
has no qualified form. An element holds what its qualified name is made of and nothing else.
-/
namespace CaretName

/-- The kinds of elements. -/
inductive ElementKind where
  | type
  | variable
  | method
  | constructor
  | other
  deriving DecidableEq, Repr

/-- The name of a kind. -/
def ElementKind.name : ElementKind → String
  | .type => "type"
  | .variable => "variable"
  | .method => "method"
  | .constructor => "constructor"
  | .other => "other"

/-- All kinds. -/
def ElementKind.all : List ElementKind := [.type, .variable, .method, .constructor, .other]

/-- The kind with a name. -/
def ElementKind.ofName? (name : String) : Option ElementKind :=
  ElementKind.all.find? fun kind => kind.name == name

/-- The declared type of a parameter. -/
inductive TypeRef where
  /-- A class, an interface, an enum, a record or an annotation type: its simple name, and its
  text as written. -/
  | declared (simpleName text : String)
  /-- A primitive type. -/
  | primitive (text : String)
  /-- An array, or the type of a parameter that takes any number of values. -/
  | array (text : String)
  /-- A type parameter. -/
  | typeVariable (text : String)
  deriving DecidableEq, Repr

namespace TypeRef

/-- The type as written. -/
def text : TypeRef → String
  | declared _ text => text
  | primitive text => text
  | array text => text
  | typeVariable text => text

/-- The type as it appears among parameters: a declared type goes by its simple name. -/
def display : TypeRef → String
  | declared simpleName _ => simpleName
  | primitive text => text
  | array text => text
  | typeVariable text => text

/-- Parameter types in parentheses. -/
def displayAll (types : List TypeRef) : String :=
  "(" ++ ", ".intercalate (types.map display) ++ ")"

end TypeRef

/-- A named entity of a program. -/
inductive Element where
  /-- A class, an interface, an enum, a record or an annotation type. -/
  | type (qualifiedName : String)
  /-- A field, a local variable, a parameter or an enum constant. -/
  | variable (declaredType simpleName : String)
  /-- A method of the type that declares it. -/
  | method (enclosingType simpleName : String) (parameters : List TypeRef)
  /-- A constructor of a type. -/
  | constructor (enclosingType : String) (parameters : List TypeRef)
  /-- Anything without a qualified form: packages, type parameters, statements. -/
  | other
  deriving DecidableEq, Repr

/-- The kind of an element. -/
def Element.kind : Element → ElementKind
  | .type _ => .type
  | .variable _ _ => .variable
  | .method _ _ _ => .method
  | .constructor _ _ => .constructor
  | .other => .other

/-- A type declared at the top of a file. -/
structure Declaration where
  qualifiedName : String
  isPublic : Bool
  deriving DecidableEq, Repr

end CaretName
