import CaretName.SourceFile.Callable

/-!
# Receivers

What stands in front of a dot decides in which type a member is looked up. A receiver is an
expression, and its type scope is found from the declared types in the file: no type is
inferred beyond what variables, methods and casts say.
-/
namespace CaretName

namespace Place

/-- The names of a chain of field accesses that starts from a name. The fuel bounds the length
of the chain. -/
def accessPathWithin? : Nat → Place → Option (List String)
  | 0, _ => none
  | fuel + 1, place =>
    if place.is .identifier then some [place.text]
    else if place.is .fieldAccess then
      match place.child? .object, place.child? .field with
      | some object, some field =>
        (accessPathWithin? fuel object).map fun names => names ++ [field.text]
      | _, _ => none
    else none

/-- The names of a chain of field accesses that starts from a name. -/
def accessPath? (place : Place) : Option (List String) :=
  place.accessPathWithin? place.node.height

/-- The leftmost expression of a chain of field accesses. The fuel bounds the length. -/
def accessBaseWithin? : Nat → Place → Option Place
  | 0, _ => none
  | fuel + 1, place =>
    if place.is .fieldAccess then (place.child? .object).bind (accessBaseWithin? fuel)
    else some place

/-- The variable that a chain of field accesses starts from. -/
def accessVariable? (place : Place) : Option Place :=
  (place.accessBaseWithin? place.node.height).bind fun base =>
    if base.is .identifier then base.variableNamed? base.text else none

end Place

namespace SourceFile

variable (file : SourceFile)

/-- The declaration in this file of the type of a variable, from its name. -/
def variableType? (name : Place) : Option Place :=
  name.declaredType?.bind fun declared =>
    match declared.type? with
    | some type => file.typeDeclaration? type
    | none =>
      name.parent?.bind fun parent =>
        if parent.is .enumConstant then parent.enclosingType? else none

/-- The declaration in this file of the class that a class extends. -/
def superclass? (declaration : Place) : Option Place :=
  ((declaration.child? .superclass).bind (·.parts.head?)).bind file.typeDeclaration?

/-- The type that a chain of names means when it starts from no variable. -/
def accessedType? (access : Place) : Option Place :=
  if access.accessVariable?.isSome then none
  else access.accessPath?.bind fun names =>
    match file.dottedElement names access with
    | .type name => file.typeNamed? name
    | _ => none

/-- The method that a call means, given how the type scope of a receiver is found. A call
without a receiver means a method of the innermost type scope around it that has one of the
name. -/
def calledThrough? (scopeOf : Place → Option Place) (call : Place) : Option Place :=
  (call.child? .name).bind fun name =>
    match call.child? .object with
    | some object => (scopeOf object).bind (Place.method? name.text call.argumentCount)
    | none => (call.ancestors.filter Place.isTypeScope).findSome?
        (Place.method? name.text call.argumentCount)

/-- The type scope in this file that an expression has for its type. The fuel bounds how many
expressions lie one inside the other. -/
def receiverWithin? : Nat → Place → Option Place
  | 0, _ => none
  | fuel + 1, object =>
    match object.kind with
    | .construct .thisWord => object.enclosingScope?
    | .construct .superWord => object.enclosingType?.bind file.superclass?
    | .construct .identifier =>
      match object.variableNamed? object.text with
      | some name => file.variableType? name
      | none =>
        match file.lookupType? object.text object with
        | some (.type name) => file.typeNamed? name
        | _ => none
    | .construct .fieldAccess =>
      file.accessedType? object <|>
        ((object.child? .object).bind (receiverWithin? fuel)).bind fun scope =>
          ((object.child? .field).bind fun field => scope.fieldNamed? field.text).bind
            file.variableType?
    | .construct .methodInvocation =>
      ((calledThrough? (receiverWithin? fuel) object).bind (·.child? .type)).bind
        file.typeDeclaration?
    | .construct .objectCreationExpression | .construct .castExpression =>
      (object.child? .type).bind file.typeDeclaration?
    | .construct .parenthesizedExpression =>
      object.constructs.head?.bind (receiverWithin? fuel)
    | _ => none

/-- The type scope in this file that an expression has for its type. -/
def receiver? (object : Place) : Option Place :=
  file.receiverWithin? object.node.height object

/-- The method that a call means, if this file declares it. -/
def called? (call : Place) : Option Place := calledThrough? file.receiver? call

end SourceFile

end CaretName
