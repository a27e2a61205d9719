import CaretName.Grammar.Part

/-!
# Grammar of types, annotations and parameters

A type grows from a name: dots make scoped types of it, angle brackets generic ones, square
brackets arrays.
-/
namespace CaretName.Grammar

/-- A type named by one word of the language. -/
def keywordType : Grammar.Rule :=
  .choice [
    .leaf .voidType "void",
    .leaf .booleanType "boolean",
    .node .integralType (.choice ["byte", "short", "int", "long", "char"]),
    .node .floatingPointType (.choice ["float", "double"])]

/-- Whether dots can follow. -/
def isScopeOfType (construct : Construct) : Bool :=
  construct == .typeIdentifier || construct == .scopedTypeIdentifier ||
    construct == .genericType

/-- Whether type arguments can follow. -/
def isRawType (construct : Construct) : Bool :=
  construct == .typeIdentifier || construct == .scopedTypeIdentifier

/-- A type that is no array. -/
def simpleType : Grammar.Rule :=
  .grow (.choice [keywordType, .name .typeIdentifier reserved])
    [{ onto := isScopeOfType
       role := none
       construct := .scopedTypeIdentifier
       tail := .seq [".", annotations, .name .typeIdentifier reservedAfterDot] },
     { onto := isRawType
       role := none
       construct := .genericType
       tail := .part .typeArguments }]

/-- A type without annotations in front. -/
def plainType : Grammar.Rule :=
  .grow simpleType
    [{ onto := fun construct => construct != .arrayType
       role := some .element
       construct := .arrayType
       tail := .field .dimensions (.part .dimensions) }]

/-- A type with or without annotations in front. -/
def type : Grammar.Rule :=
  .choice [
    .part .plainType,
    .node .annotatedType (.seq [.some (.part .annotationUse), .part .plainType])]

/-- A type argument that stands for a range of types. -/
def wildcard : Grammar.Rule :=
  .node .wildcard (.seq [
    annotations, "?",
    .optional (.choice [.seq ["extends", .part .type], .seq [superWord, .part .type]])])

/-- Type arguments, possibly none between the brackets. -/
def typeArguments : Grammar.Rule :=
  .node .typeArguments (.seq [
    "<", .commas (.choice [.part .type, wildcard]), .closing])

/-- The bounds of a type parameter. -/
def typeBound : Grammar.Rule :=
  .node .typeBound (.seq ["extends", .separated "&" (.part .type)])

/-- Type parameters with their bounds. -/
def typeParameters : Grammar.Rule :=
  .node .typeParameters (.seq [
    "<",
    .separated "," (.node .typeParameter (.seq [
      annotations, .name .typeIdentifier [], .optional typeBound])),
    .closing])

/-- Pairs of brackets. -/
def dimensions : Grammar.Rule :=
  .node .dimensions (.some (.seq [annotations, "[", "]"]))

/-- Types with commas between. -/
def typeList : Grammar.Rule := .node .typeList (.separated "," (.part .type))

/-- What an annotation element may be given. -/
def annotationValue : Grammar.Rule :=
  .choice [
    expression,
    .node .elementValueArrayInitializer (.seq [
      "\x7b", .commas (.part .annotationValue), .optional ",", "\x7d"]),
    .part .annotationUse]

/-- The arguments of an annotation: one value, or pairs of a key and a value. -/
def annotationArguments : Grammar.Rule :=
  .node .annotationArgumentList (.seq [
    "(",
    .choice [
      .separated "," (.node .elementValuePair (.seq [
        .field .key declaredName, "=", .field .value (.part .annotationValue)])),
      .part .annotationValue,
      .seq []],
    ")"])

/-- An annotation with or without arguments. -/
def annotationUse : Grammar.Rule :=
  .choice [
    .node .annotationWithArguments (.seq [
      "@", .field .name dottedName, .field .arguments annotationArguments]),
    .node .annotationMarker (.seq ["@", .field .name dottedName])]

/-- Modifiers and annotations in front of a declaration. -/
def modifierList : Grammar.Rule :=
  .node .modifiers (.some (.choice [
    .part .annotationUse, "public", "protected", "private", "abstract", "static", "final",
    "strictfp", "default", "synchronized", "native", "transient", "volatile", "sealed",
    "non-sealed"]))

/-- A parameter of one value. Without modifiers its name is not `this`. -/
def formalParameter : Grammar.Rule :=
  .node .formalParameter (.choice [
    .seq [.part .modifiers, .field .type (.part .plainType), variableName],
    .seq [.field .type (.part .plainType), variableNameBut ["this"]]])

/-- A last parameter that takes any number of values. -/
def spreadParameter : Grammar.Rule :=
  .node .spreadParameter (.seq [
    modifiers, .part .plainType, "...", annotations, variableDeclarator])

/-- The parameter that only declares the type of `this`. One with annotations names the type
that `this` belongs to. -/
def receiverParameter : Grammar.Rule :=
  let owner : Grammar.Rule := .seq [declaredName, "."]
  .node .receiverParameter (.choice [
    .seq [.part .plainType, .many owner, thisWord],
    .seq [.some (.part .annotationUse), .part .plainType, .some owner, thisWord]])

/-- The parameters of a method, a constructor, a record or a lambda expression. -/
def parameters : Grammar.Rule :=
  let ordinary : Grammar.Rule := .separated "," (.choice [spreadParameter, formalParameter])
  .node .formalParameters (.seq [
    "(",
    .choice [
      .seq [receiverParameter, .optional (.seq [",", .optional ordinary])],
      .optional ordinary],
    ")"])

end CaretName.Grammar
