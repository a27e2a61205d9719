import CaretName.SourceFile.Variable

/-!
# Methods and constructors

Overloads are told apart by the number of arguments alone: the first one in the source that
takes that many is chosen, or the first one of all.
-/
namespace CaretName

namespace Place

/-- Whether a list of parameters takes a number of arguments. -/
def takes (list : Place) (count : Nat) : Bool :=
  let parameters := list.parameters
  if parameters.getLast?.any (·.is .spreadParameter) then parameters.length ≤ count + 1
  else count == parameters.length

/-- The number of arguments that a call or a creation gives. -/
def argumentCount (call : Place) : Nat :=
  ((call.child? .arguments).map (·.parts.length)).getD 0

/-- The types of the parameters in a list. -/
def parameterTypes (list : Place) : List TypeRef :=
  list.parameters.filterMap fun parameter =>
    if parameter.is .formalParameter then
      (parameter.child? .type).map fun type => type.typeRef parameter.bracketsAfterName false
    else
      parameter.spreadType?.map fun type =>
        type.typeRef ((parameter.spreadDeclarator?.map bracketsAfterName).getD "") true

/-- The methods with a name that a type scope declares itself. -/
def methodsNamed (name : String) (scope : Place) : List Place :=
  scope.scopeMembers.filter fun member =>
    member.is .methodDeclaration && member.declaredName? == some name

/-- The method with a name that a call with a number of arguments means in a type scope. -/
def method? (name : String) (count : Nat) (scope : Place) : Option Place :=
  let candidates := scope.methodsNamed name
  candidates.find? (fun method => (method.child? .parameters).any (·.takes count)) <|>
    candidates.head?

/-- The components of a record. -/
def components? (scope : Place) : Option Place :=
  if scope.is .recordDeclaration then scope.child? .parameters else none

/-- The constructors that a type scope declares. -/
def constructors (scope : Place) : List Place :=
  scope.scopeMembers.filter (·.isAny [.constructorDeclaration, .compactConstructorDeclaration])

end Place

namespace SourceFile

variable (file : SourceFile)

/-- The element for the declaration of a method or of an element of an annotation type. -/
def methodElement (method : Place) : Element :=
  .method ((method.enclosingScope?.map file.scopeName).getD "") (method.declaredName?.getD "")
    (((method.child? .parameters).map Place.parameterTypes).getD [])

/-- The element for the declaration of a constructor. A compact constructor takes the
components of its record. -/
def constructorElement (constructor : Place) : Element :=
  let scope := constructor.enclosingScope?
  let parameters :=
    if constructor.is .compactConstructorDeclaration then scope.bind (·.child? .parameters)
    else constructor.child? .parameters
  .constructor ((scope.map file.scopeName).getD "")
    ((parameters.map Place.parameterTypes).getD [])

/-- Whether a constructor takes a number of arguments, given the components of its record. -/
def constructorTakes (components : Option Place) (count : Nat) (constructor : Place) : Bool :=
  (if constructor.is .compactConstructorDeclaration then components
    else constructor.child? .parameters).any (·.takes count)

/-- The constructor that the creation of a type with a number of arguments means. A record has
one for its components, and a class that declares none has one without parameters. -/
def constructorOf? (scope : Place) (count : Nat) : Option Element :=
  scope.typeBody?.bind fun _ =>
    let constructors := scope.constructors
    let components := scope.components?
    match constructors.find? (constructorTakes components count) with
    | some constructor => some (file.constructorElement constructor)
    | none =>
      if components.any (·.takes count) then
        components.map fun list => .constructor (file.scopeName scope) list.parameterTypes
      else if !constructors.any (·.is .constructorDeclaration) && count == 0 &&
          scope.is .classDeclaration then
        some (.constructor (file.scopeName scope) [])
      else constructors.head?.map file.constructorElement

end SourceFile

end CaretName
