import CaretName.Grammar.Rule

/-!
# Named rules of the grammar

`Part` names the rules that other rules refer to. Every rule that recursion passes through has
a name; the rest are plain definitions.

`reserved` are the words that never start an expression, a type or a label. After the dot of a
dotted name only the four words that have a meaning there are kept back, and the name in a
declaration may be any word.
-/
namespace CaretName

/-- The named rules of the grammar of compilation units. -/
inductive Part where
  /-- What stands at the top of a file. -/
  | topLevel
  /-- A type with or without annotations. -/
  | type
  /-- A type without annotations in front. -/
  | plainType
  | typeArguments
  | typeParameters
  | annotationUse
  | dimensions
  | modifiers
  | parameters
  /-- An expression made with operators that bind at least as tightly as `floor`. With `arrow`
  it may be a lambda expression. -/
  | expression (floor : Nat) (arrow : Bool)
  /-- An expression that needs no parentheses in front of a dot. -/
  | primary
  | arguments
  | stringLiteral
  | arrayInitializer
  | switch
  | recordPattern
  | statement
  | block
  | localVariable
  /-- A class, a record, an interface, an annotation type or an enum. -/
  | typeDeclaration
  /-- A declaration that may stand among statements. -/
  | declaration
  | method
  | classBody
  | annotationValue
  deriving Repr

/-- A rule of the grammar of compilation units. -/
abbrev Grammar.Rule := CaretName.Rule Part

namespace Grammar

/-- Words that start no expression, no type and no label. -/
def reserved : List String :=
  ["abstract", "assert", "boolean", "break", "byte", "case", "catch", "char", "class",
    "continue", "default", "do", "double", "else", "enum", "extends", "false", "final",
    "finally", "float", "for", "if", "implements", "import", "instanceof", "int", "interface",
    "long", "native", "new", "null", "package", "private", "protected", "public", "return",
    "short", "static", "strictfp", "super", "switch", "synchronized", "this", "throw",
    "throws", "transient", "true", "try", "void", "volatile", "while"]

/-- Words that are no name after a dot. -/
def reservedAfterDot : List String := ["class", "new", "super", "this"]

/-- A name where an expression may stand. -/
def identifier : Grammar.Rule := .name .identifier reserved

/-- A name after a dot. -/
def memberName : Grammar.Rule := .name .identifier reservedAfterDot

/-- A name that a declaration introduces. -/
def declaredName : Grammar.Rule := .name .identifier []

/-- A dotted name of packages and types, outside expressions. -/
def dottedName : Grammar.Rule :=
  .grow declaredName
    [{ onto := fun construct => construct == .identifier || construct == .scopedIdentifier
       role := some .scope
       construct := .scopedIdentifier
       tail := .seq [".", .field .name memberName] }]

/-- The reference to oneself. -/
def thisWord : Grammar.Rule := .leaf .thisWord "this"

/-- The reference to what is inherited. -/
def superWord : Grammar.Rule := .leaf .superWord "super"

/-- A full expression. -/
def expression : Grammar.Rule := .part (.expression 0 true)

/-- A full expression that is no lambda expression, as before the arrow of a switch rule. -/
def arrowless : Grammar.Rule := .part (.expression 0 false)

/-- Any number of annotations. -/
def annotations : Grammar.Rule := .many (.part .annotationUse)

/-- Modifiers or none. -/
def modifiers : Grammar.Rule := .optional (.part .modifiers)

/-- The name of a variable, which is none of the excluded words, with any brackets after it. -/
def variableNameBut (excluded : List String) : Grammar.Rule :=
  .seq [
    .field .name (.choice [.leaf .underscorePattern "_", .name .identifier excluded]),
    .optional (.field .dimensions (.part .dimensions))]

/-- The name of a variable with any brackets after it. -/
def variableName : Grammar.Rule := variableNameBut []

/-- A variable with its initial value. -/
def variableDeclarator : Grammar.Rule :=
  .node .variableDeclarator (.seq [
    variableName,
    .optional (.seq ["=", .field .value (.choice [expression, .part .arrayInitializer])])])

/-- Variables of one type. -/
def variableDeclarators : Grammar.Rule :=
  .separated "," (.field .declarator variableDeclarator)

end Grammar

end CaretName
