import CaretName.SourceFile.Receiver

/-!
# The element under a caret

A caret on a name, or just after one, means what the name means by its part in the grammar.
Anywhere else it means the declaration it stands in, unless code lies between.
-/
namespace CaretName

/-- Constructs of code: a caret inside one of them is on no declaration. -/
def codeConstructs : List Construct :=
  [.expressionStatement, .labeledStatement, .ifStatement, .whileStatement, .doStatement,
    .forStatement, .enhancedForStatement, .assertStatement, .breakStatement,
    .continueStatement, .returnStatement, .yieldStatement, .throwStatement,
    .synchronizedStatement, .tryStatement, .tryWithResourcesStatement, .assignmentExpression,
    .binaryExpression, .instanceofExpression, .lambdaExpression, .ternaryExpression,
    .unaryExpression, .updateExpression, .castExpression, .parenthesizedExpression,
    .arrayCreationExpression, .objectCreationExpression, .templateExpression,
    .switchExpression, .decimalIntegerLiteral, .hexIntegerLiteral, .octalIntegerLiteral,
    .binaryIntegerLiteral, .decimalFloatingPointLiteral, .hexFloatingPointLiteral,
    .characterLiteral, .stringLiteral, .nullLiteral, .classLiteral]

namespace Place

/-- Whether the place is a name. -/
def isName (place : Place) : Bool := place.isAny [.identifier, .typeIdentifier]

/-- Whether the place is the name that one of the given constructs introduces. -/
def isNameOf (constructs : List Construct) (name : Place) : Bool :=
  name.parent?.any (·.isAny constructs) && name.hasRole .name

/-- What a name in the header of the file means; none for names elsewhere. -/
def headerElement? (name : Place) : Option Element :=
  name.ancestors.findSome? fun around =>
    if around.is .packageDeclaration then some .other
    else if around.is .importDeclaration then some (completeName name.pathTo)
    else none

/-- The element of a declaration of variables: its variable, if it declares just one. -/
def soleVariable (declaration : Place) : Element :=
  match declaration.declarators with
  | [declarator] => ((declarator.child? .name).map variableElement).getD .other
  | _ => .other

end Place

namespace SourceFile

variable (file : SourceFile)

/-- The element of a name used as that of a type. -/
def typeElement (name : Place) : Element :=
  if name.text == "var" then .other
  else match file.typeMeaning name.text name with
    | .type qualifiedName => .type qualifiedName
    | .typeVariable => .other

/-- The element of a field access, from the access and the name of its field. -/
def accessElement (access field : Place) : Element :=
  let named : Option Element :=
    access.accessPath?.bind fun names =>
      if access.accessVariable?.isSome then none
      else match file.dottedElement names access with
        | .type name => (file.typeNamed? name).map fun _ => .type name
        | _ => none
  match named with
  | some element => element
  | none =>
    (((access.child? .object).bind file.receiver?).bind (Place.fieldNamed? field.text)).elim
      .other Place.variableElement

/-- The element of a method reference, from the reference and the name of its method. The
arguments are not known here, so the first method of the name is meant. -/
def referenceElement (reference name : Place) : Element :=
  let scope : Option Place :=
    reference.constructs.head?.bind fun receiver =>
      if receiver.isAny [.typeIdentifier, .scopedTypeIdentifier, .genericType] then
        file.typeDeclaration? receiver
      else file.receiver? receiver
  (scope.bind fun scope => (scope.methodsNamed name.text).head?).elim .other file.methodElement

/-- The element of the creation of an object: the constructor it calls. -/
def creationElement (creation : Place) : Element :=
  (((creation.child? .type).bind file.typeDeclaration?).bind fun scope =>
    file.constructorOf? scope creation.argumentCount).getD .other

/-- The element of the call of another constructor at the start of a constructor. -/
def constructorCallElement (call keyword : Place) : Element :=
  match call.enclosingType? with
  | none => .other
  | some current =>
    let target := if keyword.is .thisWord then some current else file.superclass? current
    (target.bind fun scope => file.constructorOf? scope call.argumentCount).getD .other

/-- The element of a name that has no part of its own in the construct around it. -/
def plainNameElement (name : Place) : Element :=
  if name.is .typeIdentifier then file.typeElement name
  else match name.variableNamed? name.text with
    | some declaration => declaration.variableElement
    | none => if isCapitalised name.text then file.typeElement name else .other

/-- The element of a name by its part in the construct around it. -/
def roleElement (name parent : Place) : Element :=
  if parent.is .fieldAccess && name.hasRole .field then file.accessElement parent name
  else if parent.is .methodInvocation && name.hasRole .name then
    (file.called? parent).elim .other file.methodElement
  else if parent.is .methodReference && !parent.constructs.head?.any name.same then
    file.referenceElement parent name
  else if parent.isAny [.typeParameter, .labeledStatement, .breakStatement,
      .continueStatement] then .other
  else if parent.is .elementValuePair && name.hasRole .key then .other
  else if parent.is .switchLabel then
    match file.enumConstant? name.text with
    | some constant => constant.variableElement
    | none => file.plainNameElement name
  else file.plainNameElement name

/-- The element that a name means. -/
def nameElement (name : Place) : Element :=
  match name.parent? with
  | none => .other
  | some parent =>
    if parent.isTypeDeclaration && name.hasRole .name then .type (file.qualifiedName parent)
    else if name.isNameOf [.methodDeclaration, .annotationTypeElementDeclaration] then
      file.methodElement parent
    else if name.isNameOf [.constructorDeclaration, .compactConstructorDeclaration] then
      file.constructorElement parent
    else if name.declaresVariable then name.variableElement
    else match name.headerElement? with
      | some element => element
      | none =>
        if parent.isAny dottedNames && 1 < name.pathTo.length then
          file.dottedElement name.pathTo name
        else file.roleElement name parent

/-- The element that a token means: a name, the `new` of a creation, or the keyword of a call
of another constructor. -/
def tokenElement? (token : Place) : Option Element :=
  token.parent?.bind fun parent =>
    if token.isName then some (file.nameElement token)
    else if token.isMark "new" && parent.is .objectCreationExpression then
      some (file.creationElement parent)
    else if token.isAny [.thisWord, .superWord] && parent.is .explicitConstructorInvocation then
      some (file.constructorCallElement parent token)
    else none

/-- The element of the innermost declaration among places that lead outward. Code in between
has no qualified form, and outside all declarations there is no element. -/
def enclosingElement? : List Place → Option Element
  | [] => none
  | place :: rest =>
    if place.is .program then none
    else if place.isTypeDeclaration then some (.type (file.qualifiedName place))
    else if place.isAny [.methodDeclaration, .annotationTypeElementDeclaration] then
      some (file.methodElement place)
    else if place.isAny [.constructorDeclaration, .compactConstructorDeclaration] then
      some (file.constructorElement place)
    else if place.isAny [.fieldDeclaration, .constantDeclaration, .localVariableDeclaration] then
      some place.soleVariable
    else if place.isAny [.variableDeclarator, .formalParameter, .catchFormalParameter,
        .enumConstant] then
      match place.child? .name with
      | some name => some name.variableElement
      | none => enclosingElement? rest
    else if place.isAny [.packageDeclaration, .importDeclaration, .block, .constructorBody,
        .staticInitializer] then some .other
    else if place.isAnonymousBody || place.isAny codeConstructs then some .other
    else enclosingElement? rest

/-- The name that ends at a byte. -/
def nameEndingAt? (offset : Nat) : Option Place :=
  if offset == 0 then none
  else
    let previous := file.root.placeAt ⟨offset - 1, offset⟩
    if previous.stop == offset && previous.isName then some previous else none

/-- The token at a byte. At the end of the file it is the file itself. -/
def tokenAt (offset : Nat) : Place :=
  file.root.placeAt ⟨offset, if offset < file.root.stop then offset + 1 else offset⟩

/-- The element at a byte: that of the token there, else that of a name that ends there, else
that of the declaration around. -/
def elementAt? (offset : Nat) : Option Element :=
  let token := file.tokenAt offset
  file.tokenElement? token <|> (file.nameEndingAt? offset).bind file.tokenElement? <|>
    file.enclosingElement? token.outward

end SourceFile

end CaretName
