import CaretName.Grammar.Statements

/-!
# Grammar of declarations

What a file, a class and the other types may contain.
-/
namespace CaretName.Grammar

/-- The interfaces that a class implements. -/
def superInterfaces : Grammar.Rule :=
  .optional (.field .interfaces (.node .superInterfaces (.seq ["implements", typeList])))

/-- The types that may extend a sealed one. -/
def permits : Grammar.Rule :=
  .optional (.field .permits (.node .permits (.seq ["permits", typeList])))

/-- Type parameters or none. -/
def optionalTypeParameters : Grammar.Rule :=
  .optional (.field .typeParameters (.part .typeParameters))

/-- The name of what is declared. -/
def nameField : Grammar.Rule := .field .name declaredName

/-- The members of a class. -/
def classBodyField : Grammar.Rule := .field .body (.part .classBody)

/-- The declaration of a class. -/
def classDeclaration : Grammar.Rule :=
  .node .classDeclaration (.seq [
    modifiers, "class", nameField, optionalTypeParameters,
    .optional (.field .superclass (.node .superclass (.seq ["extends", .part .type]))),
    superInterfaces, permits, classBodyField])

/-- The declaration of a record. -/
def recordDeclaration : Grammar.Rule :=
  .node .recordDeclaration (.seq [
    modifiers, "record", nameField, optionalTypeParameters,
    .field .parameters (.part .parameters), superInterfaces, classBodyField])

/-- A constant of an enum, possibly with members of its own. -/
def enumConstant : Grammar.Rule :=
  .node .enumConstant (.seq [
    modifiers, nameField, .optional (.field .arguments (.part .arguments)),
    .optional classBodyField])

/-- Variables that belong to a type. -/
def fieldDeclaration (construct : Construct) : Grammar.Rule :=
  .node construct (.seq [
    modifiers, .field .type (.part .plainType), variableDeclarators, ";"])

/-- The declaration of a method, with or without a body. -/
def method : Grammar.Rule :=
  .node .methodDeclaration (.seq [
    modifiers,
    .optional (.seq [.field .typeParameters (.part .typeParameters), annotations]),
    .field .type (.part .plainType), nameField, .field .parameters (.part .parameters),
    .optional (.field .dimensions (.part .dimensions)),
    .optional (.node .throws (.seq ["throws", .separated "," (.part .type)])),
    .choice [.field .body (.part .block), ";"]])

/-- A call of another constructor at the start of a constructor. -/
def constructorCall : Grammar.Rule :=
  let typeArguments : Grammar.Rule :=
    .optional (.field .typeArguments (.part .typeArguments))
  .node .explicitConstructorInvocation (.seq [
    .choice [
      .seq [typeArguments, .field .constructor (.choice [thisWord, superWord]),
        .ahead ["("]],
      .seq [.field .object (.part .primary), ".", typeArguments,
        .field .constructor superWord]],
    .field .arguments (.part .arguments), ";"])

/-- The declaration of a constructor. -/
def constructorDeclaration : Grammar.Rule :=
  .node .constructorDeclaration (.seq [
    modifiers, optionalTypeParameters, .field .name identifier,
    .field .parameters (.part .parameters),
    .optional (.node .throws (.seq ["throws", .separated "," (.part .type)])),
    .field .body (.node .constructorBody (.seq [
      "\x7b", .optional constructorCall, .many (.part .statement), "\x7d"]))])

/-- The constructor of a record that takes its components. -/
def compactConstructor : Grammar.Rule :=
  .node .compactConstructorDeclaration (.seq [
    modifiers, .field .name identifier, .field .body (.part .block)])

/-- The declaration of an interface. -/
def interfaceDeclaration : Grammar.Rule :=
  .node .interfaceDeclaration (.seq [
    modifiers, "interface", nameField, optionalTypeParameters,
    .optional (.node .extendsInterfaces (.seq ["extends", typeList])),
    permits,
    .field .body (.node .interfaceBody (.seq [
      "\x7b",
      .many (.choice [
        ";", .part .typeDeclaration, .part .method, fieldDeclaration .constantDeclaration]),
      "\x7d"]))])

/-- An element of an annotation type. -/
def annotationElement : Grammar.Rule :=
  .node .annotationTypeElementDeclaration (.seq [
    modifiers, .field .type (.part .plainType), nameField, "(", ")",
    .optional (.field .dimensions (.part .dimensions)),
    .optional (.seq ["default", .field .value (.part .annotationValue)]),
    ";"])

/-- The declaration of an annotation type. -/
def annotationTypeDeclaration : Grammar.Rule :=
  .node .annotationTypeDeclaration (.seq [
    modifiers, "@interface", nameField,
    .field .body (.node .annotationTypeBody (.seq [
      "\x7b",
      .many (.choice [
        ";", .part .typeDeclaration, annotationElement, fieldDeclaration .constantDeclaration]),
      "\x7d"]))])

/-- A member of a class. -/
def member : Grammar.Rule :=
  .choice [
    ";", .part .block,
    .node .staticInitializer (.seq ["static", .part .block]),
    .part .typeDeclaration, compactConstructor, constructorDeclaration, .part .method,
    fieldDeclaration .fieldDeclaration]

/-- The members of a class in braces. -/
def classBody : Grammar.Rule := .node .classBody (.seq ["\x7b", .many member, "\x7d"])

/-- The declaration of an enum. -/
def enumDeclaration : Grammar.Rule :=
  .node .enumDeclaration (.seq [
    modifiers, "enum", nameField, superInterfaces,
    .field .body (.node .enumBody (.seq [
      "\x7b", .commas enumConstant, .optional ",",
      .optional (.node .enumBodyDeclarations (.seq [";", .many member])),
      "\x7d"]))])

/-- Names with commas between, after a keyword. -/
def nameList (keyword : String) : Grammar.Rule :=
  .optional (.seq [.text keyword, .separated "," dottedName])

/-- The declaration of a module. -/
def moduleDeclaration : Grammar.Rule :=
  .node .moduleDeclaration (.seq [
    annotations, .optional "open", "module", .field .name dottedName,
    .field .body (.node .moduleBody (.seq [
      "\x7b",
      .many (.choice [
        .node .requiresModuleDirective (.seq [
          "requires",
          .many (.node .requiresModifier (.choice [
            .seq ["transitive"], "static"])),
          dottedName, ";"]),
        .node .exportsModuleDirective (.seq ["exports", dottedName, nameList "to", ";"]),
        .node .opensModuleDirective (.seq ["opens", dottedName, nameList "to", ";"]),
        .node .usesModuleDirective (.seq ["uses", dottedName, ";"]),
        .node .providesModuleDirective (.seq [
          "provides", dottedName, "with", .separated "," dottedName, ";"])]),
      "\x7d"]))])

/-- The package of a file. -/
def packageDeclaration : Grammar.Rule :=
  .node .packageDeclaration (.seq [annotations, "package", dottedName, ";"])

/-- An import of one type, of all types of a package, or of static members. -/
def importDeclaration : Grammar.Rule :=
  .node .importDeclaration (.seq [
    "import", .optional "static", dottedName,
    .optional (.seq [".", .node .asterisk "*"]), ";"])

/-- The declaration of a type. -/
def typeDeclaration : Grammar.Rule :=
  .choice [
    classDeclaration, recordDeclaration, interfaceDeclaration, annotationTypeDeclaration,
    enumDeclaration]

/-- A declaration that may stand among statements. -/
def declaration : Grammar.Rule :=
  .choice [
    .part .typeDeclaration, moduleDeclaration, packageDeclaration, importDeclaration]

/-- What stands at the top of a file. -/
def topLevel : Grammar.Rule := .choice [.part .statement, .part .method]

/-- The right-hand side of each named rule. -/
def rules : Part → Grammar.Rule
  | .topLevel => topLevel
  | .type => type
  | .plainType => plainType
  | .typeArguments => typeArguments
  | .typeParameters => typeParameters
  | .annotationUse => annotationUse
  | .dimensions => dimensions
  | .modifiers => modifierList
  | .parameters => parameters
  | .expression floor arrow => expressionAbove floor arrow
  | .primary => primary
  | .arguments => argumentList
  | .stringLiteral => stringLiteral
  | .arrayInitializer => arrayInitializer
  | .switch => switch
  | .recordPattern => recordPattern
  | .statement => statement
  | .block => block
  | .localVariable => localVariable
  | .typeDeclaration => typeDeclaration
  | .declaration => declaration
  | .method => method
  | .classBody => classBody
  | .annotationValue => annotationValue

end CaretName.Grammar
