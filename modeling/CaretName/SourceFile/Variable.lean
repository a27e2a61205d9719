import CaretName.SourceFile.TypeName

/-!
# Variables

A variable is known by the place of its name in its declaration. This module tells which names
declare a variable and of what type, and finds the declaration that a name means: going
outward, the locals of the blocks around it, the variables of loops, resources and handlers,
the variables of type patterns, parameters, and the fields of the types around it.
-/
namespace CaretName

/-- Statement lists that may hold declarations of variables. -/
def statementLists : List Construct :=
  [.block, .constructorBody, .switchBlockStatementGroup]

/-- Constructs whose earlier children may introduce variables of patterns for later ones. -/
def patternScopes : List Construct :=
  [.ifStatement, .whileStatement, .forStatement, .binaryExpression, .ternaryExpression]

/-- The declared type of a variable: its text, and its place where it is written. -/
structure DeclaredType where
  type? : Option Place
  text : String
  deriving Repr

namespace Place

/-- The place if it is a name with the given spelling. -/
def named? (name : String) (place : Place) : Option Place :=
  if place.is .identifier && place.text == name then some place else none

/-- The name in a declaration, if it has the given spelling. -/
def nameIs? (name : String) (declaration : Place) : Option Place :=
  (declaration.child? .name).bind (named? name)

/-- The variables that a declaration declares, with their initial values. -/
def declarators (declaration : Place) : List Place := declaration.inRole .declarator

/-- The name of a variable that a declaration declares. -/
def declaratorNamed? (name : String) (declaration : Place) : Option Place :=
  declaration.declarators.findSome? (nameIs? name)

/-- The variable that a type pattern introduces. -/
def patternName? (pattern : Place) : Option Place :=
  (pattern.child? .name <|> pattern.parts.getLast?).filter (·.is .identifier)

/-- The brackets after the name of a variable. -/
def bracketsAfterName (declaration : Place) : String :=
  ((declaration.child? .dimensions).map fun brackets => compactType brackets.text).getD ""

/-- The type of a parameter that takes any number of values. -/
def spreadType? (parameter : Place) : Option Place :=
  parameter.parts.find? fun child =>
    !child.isAny [.modifiers, .variableDeclarator] && !child.annotates

/-- The declarator of a parameter that takes any number of values. -/
def spreadDeclarator? (parameter : Place) : Option Place :=
  parameter.parts.find? (·.is .variableDeclarator)

/-- The parameters in a list of parameters, without one for `this`. -/
def parameters (list : Place) : List Place :=
  list.parts.filter (·.isAny [.formalParameter, .spreadParameter])

/-- The name of a parameter, if it has the given spelling. -/
def parameterIs? (name : String) (parameter : Place) : Option Place :=
  if parameter.is .formalParameter then parameter.nameIs? name
  else parameter.spreadDeclarator?.bind (nameIs? name)

/-- The parameter with a name. -/
def parameterNamed? (name : String) (list : Place) : Option Place :=
  list.parameters.findSome? (parameterIs? name)

/-- Whether a name declares a variable. -/
def declaresVariable (name : Place) : Bool :=
  match name.parent? with
  | none => false
  | some parent =>
    if parent.isAny [.variableDeclarator, .formalParameter, .catchFormalParameter,
        .enhancedForStatement, .resource, .instanceofExpression, .enumConstant] then
      name.hasRole .name
    else if parent.is .lambdaExpression then name.hasRole .parameters
    else if parent.is .inferredParameters then true
    else if parent.is .typePattern then parent.patternName?.any name.same
    else false

/-- A declared type as written, with what follows the name of the variable. -/
def written (type : Place) (suffix : String) : DeclaredType :=
  ⟨some type, compactType type.text ++ suffix⟩

/-- The type of a variable declared with `var`, which only the creation of an object tells. -/
def inferredType? (declarator : Place) : Option DeclaredType :=
  (declarator.child? .value).bind fun value =>
    if value.is .objectCreationExpression then
      (value.child? .type).map fun type => type.written ""
    else none

/-- The type of a variable in a declaration of variables or in a parameter of any number of
values, from the place of its declarator. -/
def declaratorType? (declarator : Place) : Option DeclaredType :=
  declarator.parent?.bind fun declaration =>
    let brackets := declarator.bracketsAfterName
    if declaration.isAny [.fieldDeclaration, .constantDeclaration,
        .localVariableDeclaration] then
      (declaration.child? .type).bind fun type =>
        if type.text == "var" then declarator.inferredType? else some (type.written brackets)
    else if declaration.is .spreadParameter then
      declaration.spreadType?.map fun type => type.written (brackets ++ "...")
    else none

/-- The declared type of a variable, from the place of its name in its declaration. -/
def declaredType? (name : Place) : Option DeclaredType :=
  if !name.declaresVariable then none
  else name.parent?.bind fun parent =>
    if parent.is .variableDeclarator then parent.declaratorType?
    else if parent.is .formalParameter then
      (parent.child? .type).map (·.written parent.bracketsAfterName)
    else if parent.is .catchFormalParameter then
      (parent.parts.find? (·.is .catchType)).map fun type => ⟨none, compactType type.text⟩
    else if parent.isAny [.enhancedForStatement, .resource] then
      (parent.child? .type).bind fun type =>
        if type.text == "var" then none else some (type.written parent.bracketsAfterName)
    else if parent.is .instanceofExpression then
      (parent.child? .right).map (·.written "")
    else if parent.is .typePattern then parent.constructs.head?.map (·.written "")
    else if parent.is .enumConstant then
      (parent.enclosingType?.bind declaredName?).map fun name => ⟨none, name⟩
    else none

/-- The element for the name of a variable in its declaration. A variable whose type cannot be
read from the file has no qualified form. -/
def variableElement (name : Place) : Element :=
  match name.declaredType? with
  | some declared => .variable declared.text name.text
  | none => .other

/-- The field, record component or enum constant with a name in a type scope. -/
def fieldNamed? (name : String) (scope : Place) : Option Place :=
  let component :=
    if scope.is .recordDeclaration then
      (scope.child? .parameters).bind (parameterNamed? name)
    else none
  component <|> scope.scopeMembers.findSome? fun member =>
    if member.isAny [.fieldDeclaration, .constantDeclaration] then member.declaratorNamed? name
    else if member.is .enumConstant then member.nameIs? name
    else none

end Place

mutual

/-- The variable with a name that a pattern anywhere inside a node introduces. Bodies of lambda
expressions, classes and blocks are not looked into. -/
def Node.patternNamed? (name : String) (above : List Step) : Node → Option Place
  | .leaf .. => none
  | .branch kind role span children =>
    let place : Place := ⟨.branch kind role span children, above⟩
    if place.isAny [.lambdaExpression, .classBody, .block] then none
    else
      (if place.is .instanceofExpression then place.nameIs? name
        else if place.is .typePattern then place.patternName?.bind (Place.named? name)
        else none) <|> patternNamedAmong? name place 0 children

/-- The variable with a name that a pattern introduces in those of the children, numbered from
`index`, that are parts. -/
def patternNamedAmong? (name : String) (around : Place) (index : Nat) :
    List Node → Option Place
  | [] => none
  | node :: rest =>
    (if node.isPart then node.patternNamed? name (⟨around.node, index⟩ :: around.above)
      else none) <|> patternNamedAmong? name around (index + 1) rest

end

namespace Place

/-- The variable with a name that a pattern anywhere inside a place introduces. -/
def patternNamed? (name : String) (place : Place) : Option Place :=
  place.node.patternNamed? name place.above

/-- The parts of a construct that start before one of its children. -/
def partsBefore (around inner : Place) : List Place :=
  around.parts.takeWhile fun part => part.start < inner.start

/-- The variable with a name that an earlier part introduces for a child of a construct. After
a statement of a list, those in the condition of an if statement count: they hold where the
statement always leaves the list when the condition fails. -/
def introducedBefore? (name : String) (around inner : Place) : Option Place :=
  (around.partsBefore inner).findSome? fun part =>
    if around.is .forStatement && part.is .localVariableDeclaration then
      part.declaratorNamed? name
    else if around.isAny statementLists then
      if part.is .ifStatement then (part.child? .condition).bind (patternNamed? name) else none
    else part.patternNamed? name

/-- The local variable with a name that a statement list declares for one of its statements. -/
def localBefore? (name : String) (list inner : Place) : Option Place :=
  ((list.partsBefore inner).filter (·.is .localVariableDeclaration)).findSome?
      (declaratorNamed? name) <|>
    introducedBefore? name list inner

/-- The parameter with a name of a lambda expression. -/
def lambdaParameterNamed? (name : String) (lambda : Place) : Option Place :=
  (lambda.child? .parameters).bind fun list =>
    if list.is .identifier then list.named? name
    else if list.is .formalParameters then list.parameterNamed? name
    else if list.is .inferredParameters then list.parts.findSome? (named? name)
    else none

/-- The variable with a name that a construct declares for one of its children. -/
def declaredFor? (name : String) (around inner : Place) : Option Place :=
  if around.isAny statementLists then localBefore? name around inner
  else if around.isAny [.methodDeclaration, .constructorDeclaration] then
    (around.child? .parameters).bind (parameterNamed? name)
  else if around.is .lambdaExpression then around.lambdaParameterNamed? name
  else if around.is .catchClause then
    (around.parts.find? (·.is .catchFormalParameter)).bind (nameIs? name)
  else if around.is .enhancedForStatement then around.nameIs? name
  else if around.is .tryWithResourcesStatement then
    (around.child? .resources).bind fun resources => resources.parts.findSome? (nameIs? name)
  else if around.isTypeScope then around.fieldNamed? name
  else none

/-- The variable with a name that one step outward shows. -/
def variableAround? (name : String) (inner : Place) : Option Place :=
  inner.parent?.bind fun around =>
    declaredFor? name around inner <|>
      if around.isAny patternScopes then introducedBefore? name around inner else none

/-- The declaration of the variable that a name means at a place, going outward. -/
def variableNamed? (name : String) (site : Place) : Option Place :=
  site.outward.findSome? (variableAround? name)

end Place

namespace SourceFile

/-- The constant with a name of any enum in the file. -/
def enumConstant? (file : SourceFile) (name : String) : Option Place :=
  ((file.allTypes.filter (·.is .enumDeclaration)).flatMap Place.scopeMembers).findSome?
    fun member => if member.is .enumConstant then member.nameIs? name else none

end SourceFile

end CaretName
